import SatoshiBridge.Library.PrefixCodec
import SatoshiBridge.Model.CompactTxid

/-!
# The transactions compact proofs speak about

A version 5 or version 6 Zcash transaction, as far as its ZIP-244 transaction id reads it. The
transparent part is spelled out; the shielded pools enter by their digests, which nothing in the
bridge looks into.
-/

set_option autoImplicit false
set_option relaxedAutoImplicit false

namespace SatoshiBridge

/-- The two transaction formats whose id is a ZIP-244 tree. -/
inductive ZcashVersion
  | v5 | v6
deriving DecidableEq

/-- `TxVersion::header`. -/
def ZcashVersion.header : ZcashVersion → ℕ
  | v5 => v5TxVersionHeader
  | v6 => v6TxVersionHeader

/-- A digest of 32 bytes. -/
abbrev Digest := { bytes : List UInt8 // bytes.length = 32 }

/-- The consensus serialization of a transparent output: its value and its script. -/
def txOutCodec : PrefixCodec TxOut where
  valid o := o.value < 256 ^ 8 ∧ o.scriptPubkey.length < 256 ^ 8
  write o := PrefixCodec.leBytes 8 o.value ++ PrefixCodec.sizedBytes o.scriptPubkey
  read bytes := do
    let (value, bytes) ← PrefixCodec.readLe 8 bytes
    let (script, bytes) ← PrefixCodec.readSizedBytes bytes
    some (⟨value, script⟩, bytes)
  read_write := by
    intro o ⟨hvalue, hscript⟩ rest
    rw [List.append_assoc, PrefixCodec.readLe_leBytes hvalue]
    simp only [Option.bind_eq_bind, Option.bind_some,
      PrefixCodec.readSizedBytes_sizedBytes hscript]
  read_nil := rfl

/-- A transparent input: its serialized outpoint and its sequence number. -/
structure ZcashTxIn where
  prevout : List UInt8
  sequence : ℕ

structure TransparentBundle where
  vin : List ZcashTxIn
  vout : List TxOut

structure ZcashTransaction where
  version : ZcashVersion
  versionGroupId : ℕ
  consensusBranchId : ℕ
  lockTime : ℕ
  expiryHeight : ℕ
  transparent : Option TransparentBundle
  saplingDigest : Digest
  orchardDigest : Digest
  ironwoodDigest : Digest

namespace ZcashTransaction

variable (host : Host) (t : ZcashTransaction)

/-- The transparent outputs. -/
def vout : List TxOut := (t.transparent.map TransparentBundle.vout).getD []

/-! ### What is hashed, each input under its personalisation -/

def headerInput : List UInt8 × List UInt8 :=
  (asciiBytes "ZTxIdHeadersHash", toLeBytes t.version.header ++ toLeBytes t.versionGroupId ++
    toLeBytes t.consensusBranchId ++ toLeBytes t.lockTime ++ toLeBytes t.expiryHeight)

def prevoutsInput (b : TransparentBundle) : List UInt8 × List UInt8 :=
  (asciiBytes "ZTxIdPrevoutHash", b.vin.flatMap ZcashTxIn.prevout)

def sequenceInput (b : TransparentBundle) : List UInt8 × List UInt8 :=
  (asciiBytes "ZTxIdSequencHash", b.vin.flatMap fun i ↦ toLeBytes i.sequence)

def outputsInput (vout : List TxOut) : List UInt8 × List UInt8 :=
  (asciiBytes "ZTxIdOutputsHash", vout.flatMap host.writeTxOut)

/-- The digest of an input. -/
def digest (input : List UInt8 × List UInt8) : List UInt8 := host.blake2b input.1 input.2

/-- The transparent digest of a transaction without transparent parts is over nothing. -/
def transparentInput : List UInt8 × List UInt8 :=
  (asciiBytes "ZTxIdTranspaHash", match t.transparent with
    | some b => digest host (prevoutsInput b) ++ digest host (sequenceInput b) ++
      digest host (outputsInput host b.vout)
    | none => [])

/-- Version 6 has a fifth node. -/
def ironwoodNodes : List (List UInt8) :=
  match t.version with
  | .v5 => []
  | .v6 => [t.ironwoodDigest.val]

def rootInput : List UInt8 × List UInt8 :=
  (asciiBytes "ZcashTxHash_" ++ toLeBytes t.consensusBranchId,
    digest host t.headerInput ++ digest host (t.transparentInput host) ++ t.saplingDigest.val ++
      t.orchardDigest.val ++ t.ironwoodNodes.flatten)

/-- The ZIP-244 transaction id. -/
def txid : Txid := txidOfBytes (digest host (t.rootInput host))

/-- Everything hashed for the transaction id. -/
def hashed : List (List UInt8 × List UInt8) :=
  [t.rootInput host, t.transparentInput host, t.headerInput] ++
    match t.transparent with
    | some b => [outputsInput host b.vout, prevoutsInput b, sequenceInput b]
    | none => []

/-- The compact proof a relayer makes from a transaction with a transparent part. -/
def compactProof (b : TransparentBundle) : CompactTxProof where
  versionHeader := t.version.header
  consensusBranchId := t.consensusBranchId
  headerDigest := digest host t.headerInput
  prevoutsDigest := digest host (prevoutsInput b)
  sequenceDigest := digest host (sequenceInput b)
  saplingDigest := t.saplingDigest.val
  orchardDigest := t.orchardDigest.val
  ironwoodDigest := match t.version with
    | .v5 => none
    | .v6 => some t.ironwoodDigest.val
  outputs := b.vout

end ZcashTransaction

namespace CompactTxProof

variable (host : Host) (proof : CompactTxProof)

def transparentInput : List UInt8 × List UInt8 :=
  (asciiBytes "ZTxIdTranspaHash", proof.prevoutsDigest ++ proof.sequenceDigest ++
    ZcashTransaction.digest host (ZcashTransaction.outputsInput host proof.outputs))

def rootInput : List UInt8 × List UInt8 :=
  (asciiBytes "ZcashTxHash_" ++ toLeBytes proof.consensusBranchId,
    proof.headerDigest ++ ZcashTransaction.digest host (proof.transparentInput host) ++
      proof.saplingDigest ++ proof.orchardDigest ++ proof.ironwoodDigest.toList.flatten)

/-- Everything `resolve` hashes. -/
def hashed : List (List UInt8 × List UInt8) :=
  [proof.rootInput host, proof.transparentInput host,
    ZcashTransaction.outputsInput host proof.outputs]

end CompactTxProof

end SatoshiBridge
