import SatoshiBridge.Model.Psbt

/-!
# Deposit proofs

A deposit is proven either with the bytes of the funding transaction or, on Zcash, with a compact
proof: the digests of the parts the bridge does not read and the complete list of transparent
outputs, from which the ZIP-244 transaction id is recomputed.
-/

set_option autoImplicit false
set_option relaxedAutoImplicit false

namespace SatoshiBridge

/-- The bytes of an ASCII personalisation string. -/
def asciiBytes (s : String) : List UInt8 := s.toList.map fun c ↦ UInt8.ofNat c.toNat

/-- The transaction id spelled by hash bytes, least significant byte first, under a leading one that
records how many bytes there are. -/
def txidOfBytes : List UInt8 → ℕ
  | [] => 1
  | b :: bytes => b.toNat + 256 * txidOfBytes bytes

/-- `u32::to_le_bytes`. -/
def toLeBytes (n : ℕ) : List UInt8 :=
  [UInt8.ofNat n, UInt8.ofNat (n / 2 ^ 8), UInt8.ofNat (n / 2 ^ 16), UInt8.ofNat (n / 2 ^ 24)]

/-- `V5_TX_VERSION_HEADER`. -/
def v5TxVersionHeader : ℕ := 0x80000005

/-- `V6_TX_VERSION_HEADER`. -/
def v6TxVersionHeader : ℕ := 0x80000006

structure CompactTxProof where
  versionHeader : ℕ
  consensusBranchId : ℕ
  headerDigest : List UInt8
  prevoutsDigest : List UInt8
  sequenceDigest : List UInt8
  saplingDigest : List UInt8
  orchardDigest : List UInt8
  ironwoodDigest : Option (List UInt8)
  outputs : List TxOut
deriving DecidableEq

structure DepositTxSummary where
  txId : Txid
  outputs : List TxOut
deriving DecidableEq

/-- `outputs_digest`. -/
def outputsDigest (host : Host) (vout : List TxOut) : Option (List UInt8) := do
  require (∀ o ∈ vout, o.value ≤ maxMoney)
  some (host.blake2b (asciiBytes "ZTxIdOutputsHash") (vout.flatMap host.writeTxOut))

/-- `digest32`. -/
def digest32 (bytes : List UInt8) : Option (List UInt8) := do
  require (bytes.length = 32)
  some bytes

/-- `digest32` of a digest that may be left out. -/
def digest32Option : Option (List UInt8) → Option (Option (List UInt8))
  | none => some none
  | some bytes => (digest32 bytes).map some

/-- The fifth node of the tree: present exactly in version 6. -/
def ironwoodNode (versionHeader : ℕ) (ironwoodDigest : Option (List UInt8)) :
    Option (List (List UInt8)) :=
  if versionHeader = v5TxVersionHeader then do
    require ironwoodDigest.isNone
    some []
  else if versionHeader = v6TxVersionHeader then do
    let digest ← ironwoodDigest
    some [digest]
  else none

/-- The root of the ZIP-244 tree over its nodes. -/
def zip244Root (host : Host) (consensusBranchId : ℕ)
    (header prevouts sequence outputs sapling orchard : List UInt8) (ironwood : List (List UInt8)) :
    Txid :=
  let transparent :=
    host.blake2b (asciiBytes "ZTxIdTranspaHash") (prevouts ++ sequence ++ outputs)
  txidOfBytes (host.blake2b (asciiBytes "ZcashTxHash_" ++ toLeBytes consensusBranchId)
    (header ++ transparent ++ sapling ++ orchard ++ ironwood.flatten))

namespace CompactTxProof

/-- `compact_txid` on the parts of a proof. -/
def compactTxid (host : Host) (proof : CompactTxProof) : Option Txid := do
  let header ← digest32 proof.headerDigest
  let prevouts ← digest32 proof.prevoutsDigest
  let sequence ← digest32 proof.sequenceDigest
  let sapling ← digest32 proof.saplingDigest
  let orchard ← digest32 proof.orchardDigest
  let ironwood ← digest32Option proof.ironwoodDigest
  require (proof.outputs ≠ [])
  let outputs ← outputsDigest host proof.outputs
  let ironwood ← ironwoodNode proof.versionHeader ironwood
  some (zip244Root host proof.consensusBranchId header prevouts sequence outputs sapling orchard
    ironwood)

/-- `CompactTxProof::resolve`; the Bitcoin build has no compact form. -/
def resolve (host : Host) (proof : CompactTxProof) : Option DepositTxSummary := do
  require host.zcash
  let txId ← proof.compactTxid host
  some ⟨txId, proof.outputs⟩

end CompactTxProof

inductive DepositTxProof
  | full (txBytes : List UInt8)
  | compact (proof : CompactTxProof)
deriving DecidableEq

/-- `internal_resolve_deposit_tx`. A Zcash transaction without a transparent bundle has no outputs
to read. -/
def internalResolveDepositTx (host : Host) : DepositTxProof → Option DepositTxSummary
  | .full txBytes => do
    let transaction ← host.decodeTransaction txBytes
    some ⟨host.computeTxid transaction, transaction.output⟩
  | .compact proof => proof.resolve host

end SatoshiBridge
