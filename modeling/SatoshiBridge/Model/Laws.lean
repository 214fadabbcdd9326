import Mathlib.Logic.Function.Basic
import SatoshiBridge.Model.Deposit

/-!
# What is assumed of the code the contract calls

`Host.Lawful` collects the documented behaviour of the libraries: transaction ids commit to inputs
and outputs, the digests of the ZIP-244 tree do not collide, distinct derivation paths give distinct
scripts, and the codecs invert their writers. From these, the output a transaction id and an index
name is unique, whether it was read from transaction bytes, from a compact proof or from a
transaction of the bridge itself.
-/

set_option autoImplicit false
set_option relaxedAutoImplicit false

namespace SatoshiBridge

/-- The addresses of the bridge can be parsed, and so can the address printed for the script of an
address that was parsed: it has that script again. -/
structure Host.ReadsAddresses (host : Host) : Prop where
  parse_chainAddress : ∀ chain key path, ∃ receiver,
    host.parseAddress chain (host.chainAddress chain key path)
      = some ⟨some (host.chainScript chain key path), receiver⟩
  parse_addressOfScript : ∀ chain target address script text,
    host.parseAddress chain target = some address → address.scriptPubkey = some script →
      host.addressOfScript chain script = some text →
      ∃ receiver, host.parseAddress chain text = some ⟨some script, receiver⟩

/-- Serde reads the messages it has written. -/
def Host.ReadsMessages (host : Host) : Prop :=
  ∀ msg, host.depositMsgFromJson (host.depositMsgToJson msg) = some msg

/-- The documented behaviour of the external code. -/
structure Host.Lawful (host : Host) : Prop extends Host.ReadsAddresses host where
  txid_commits : ∀ tx tx', host.computeTxid tx = host.computeTxid tx' →
    tx.input = tx'.input ∧ tx.output = tx'.output
  chainScript_injective : ∀ chain key, Function.Injective (host.chainScript chain key)
  depositMsg_roundTrip : ∀ msg, host.depositMsgFromJson (host.depositMsgToJson msg) = some msg
  sha256Hex_injective : Function.Injective host.sha256Hex
  sha256Hex_ne_account : ∀ s, host.sha256Hex s ≠ host.currentAccountId
  /-- Digests have one length, so none is a proper prefix of another. -/
  blake2b_prefix : host.zcash = true → ∀ personal input personal' input' tail tail',
    host.blake2b personal input ++ tail = host.blake2b personal' input' ++ tail' →
      host.blake2b personal input = host.blake2b personal' input'
  blake2b_injective : host.zcash = true → ∀ personal input personal' input',
    host.blake2b personal input = host.blake2b personal' input' →
      personal = personal' ∧ input = input'
  writeTxOut_injective : host.zcash = true → ∀ vout vout' : List TxOut,
    vout.flatMap host.writeTxOut = vout'.flatMap host.writeTxOut → vout = vout'
  /-- A transaction id is the root of a ZIP-244 tree over the transaction's own outputs, or, in
  the older formats, no root of such a tree. -/
  zip244 : host.zcash = true → ∀ tx : Transaction,
    (∃ branch header prevouts sequence sapling orchard ironwood,
      header.length = 32 ∧ prevouts.length = 32 ∧ sequence.length = 32 ∧
      host.computeTxid tx = zip244Root host branch header prevouts sequence
        (host.blake2b (asciiBytes "ZTxIdOutputsHash") (tx.output.flatMap host.writeTxOut))
        sapling orchard ironwood) ∨
    (∀ branch header prevouts sequence outputs sapling orchard ironwood,
      host.computeTxid tx ≠
        zip244Root host branch header prevouts sequence outputs sapling orchard ironwood)

/-- The script of an address the bridge derives. -/
def Host.pathScript (host : Host) (chain : Chain) (path : Path) : ScriptBuf :=
  host.chainScript chain host.rootPublicKey path

/-- The script of the change address. -/
def Host.changeScript (host : Host) (chain : Chain) : ScriptBuf :=
  host.pathScript chain host.currentAccountId

/-- The script of a deposit address. -/
def Host.depositScript (host : Host) (chain : Chain) (msg : DepositMsg) : ScriptBuf :=
  host.pathScript chain (getDepositPath host msg)

namespace Host.Lawful

variable {host : Host}

theorem getDepositPath_injective (laws : host.Lawful) :
    Function.Injective (getDepositPath host) := by
  intro msg msg' h
  have hjson := laws.sha256Hex_injective h
  have hparse := laws.depositMsg_roundTrip msg
  rw [hjson, laws.depositMsg_roundTrip msg'] at hparse
  exact (Option.some.inj hparse).symm

theorem depositScript_injective (laws : host.Lawful) (chain : Chain) :
    Function.Injective (host.depositScript chain) := fun _ _ h ↦
  laws.getDepositPath_injective (laws.chainScript_injective chain host.rootPublicKey h)

theorem depositScript_ne_changeScript (laws : host.Lawful) (chain : Chain) (msg : DepositMsg) :
    host.depositScript chain msg ≠ host.changeScript chain := fun h ↦
  laws.sha256Hex_ne_account _ (laws.chainScript_injective chain host.rootPublicKey h)

end Host.Lawful

/-! ### Outputs named by a transaction id -/

/-- The outputs some proof or transaction shows for a transaction id. -/
inductive ShowsOutputs (host : Host) (txId : Txid) (outputs : List TxOut) : Prop
  | transaction (tx : Transaction) (hid : host.computeTxid tx = txId) (hout : tx.output = outputs)
  | compact (proof : CompactTxProof) (h : proof.resolve host = some ⟨txId, outputs⟩)

/-- The output at an outpoint. -/
def PaysAt (host : Host) (key : OutPoint) (output : TxOut) : Prop :=
  ∃ outputs, ShowsOutputs host key.txid outputs ∧ outputs[key.vout]? = some output

theorem internalResolveDepositTx_shows {host : Host} {proof : DepositTxProof}
    {summary : DepositTxSummary} (h : internalResolveDepositTx host proof = some summary) :
    ShowsOutputs host summary.txId summary.outputs := by
  cases proof with
  | full bytes =>
    simp only [internalResolveDepositTx, Option.bind_eq_bind, Option.bind_eq_some_iff,
      Option.some.injEq] at h
    obtain ⟨tx, _, rfl⟩ := h
    exact .transaction tx rfl rfl
  | compact proof => exact .compact proof h

/-- What a compact proof resolves to is the root of the tree over its outputs. -/
theorem CompactTxProof.resolve_spec {host : Host} {proof : CompactTxProof} {txId : Txid}
    {outputs : List TxOut} (h : proof.resolve host = some ⟨txId, outputs⟩) :
    host.zcash = true ∧ ∃ branch header prevouts sequence sapling orchard ironwood,
      header.length = 32 ∧ prevouts.length = 32 ∧ sequence.length = 32 ∧
      txId = zip244Root host branch header prevouts sequence
        (host.blake2b (asciiBytes "ZTxIdOutputsHash") (outputs.flatMap host.writeTxOut))
        sapling orchard ironwood := by
  simp only [CompactTxProof.resolve, CompactTxProof.compactTxid, digest32, outputsDigest,
    Option.bind_eq_bind, Option.bind_eq_some_iff, require_eq_some, Option.some.injEq,
    exists_and_left, exists_const, DepositTxSummary.mk.injEq] at h
  obtain ⟨hz, txId', ⟨header, ⟨hh, rfl⟩, prevouts, ⟨hp, rfl⟩, sequence, ⟨hs, rfl⟩, sapling,
    ⟨_, rfl⟩, orchard, ⟨_, rfl⟩, _, _, _, digest, ⟨_, rfl⟩, ironwood, _, rfl⟩, rfl, rfl⟩ := h
  exact ⟨hz, _, _, _, _, _, _, _, hh, hp, hs, rfl⟩

/-! ### The tree determines the outputs -/

theorem one_le_txidOfBytes (xs : List UInt8) : 1 ≤ txidOfBytes xs := by
  induction xs with
  | nil => exact le_refl 1
  | cons x xs ih =>
    rw [txidOfBytes]
    omega

theorem txidOfBytes_injective : Function.Injective txidOfBytes := by
  intro xs
  induction xs with
  | nil =>
    intro ys h
    cases ys with
    | nil => rfl
    | cons y ys =>
      have hys := one_le_txidOfBytes ys
      simp only [txidOfBytes] at h
      omega
  | cons x xs ih =>
    intro ys h
    cases ys with
    | nil =>
      have hxs := one_le_txidOfBytes xs
      simp only [txidOfBytes] at h
      omega
    | cons y ys =>
      have hx := x.toNat_lt
      have hy := y.toNat_lt
      simp only [txidOfBytes] at h
      have hhead : x.toNat = y.toNat := by omega
      have htail : txidOfBytes xs = txidOfBytes ys := by omega
      rw [UInt8.toNat_inj.mp hhead, ih htail]

/-- Two trees with one root stand over the same outputs. -/
theorem zip244Root_outputs {host : Host} (laws : host.Lawful) (hz : host.zcash = true)
    {branch branch' : ℕ} {header header' prevouts prevouts' sequence sequence' sapling sapling'
      orchard orchard' : List UInt8} {ironwood ironwood' : List (List UInt8)}
    {vout vout' : List TxOut}
    (hh : header.length = 32) (hh' : header'.length = 32)
    (hp : prevouts.length = 32) (hp' : prevouts'.length = 32)
    (hs : sequence.length = 32) (hs' : sequence'.length = 32)
    (h : zip244Root host branch header prevouts sequence
        (host.blake2b (asciiBytes "ZTxIdOutputsHash") (vout.flatMap host.writeTxOut))
        sapling orchard ironwood
      = zip244Root host branch' header' prevouts' sequence'
        (host.blake2b (asciiBytes "ZTxIdOutputsHash") (vout'.flatMap host.writeTxOut))
        sapling' orchard' ironwood') :
    vout = vout' := by
  have hnodes := (laws.blake2b_injective hz _ _ _ _ (txidOfBytes_injective h)).2
  simp only [List.append_assoc] at hnodes
  have htail := (List.append_inj hnodes (hh.trans hh'.symm)).2
  have htransparent := laws.blake2b_prefix hz _ _ _ _ _ _ htail
  have hparts := (laws.blake2b_injective hz _ _ _ _ htransparent).2
  have hsuffix := (List.append_inj hparts (hp.trans hp'.symm)).2
  have hdigests := (List.append_inj hsuffix (hs.trans hs'.symm)).2
  exact laws.writeTxOut_injective hz _ _ (laws.blake2b_injective hz _ _ _ _ hdigests).2

/-- A transaction id shows one list of outputs. -/
theorem ShowsOutputs.unique {host : Host} (laws : host.Lawful) {txId : Txid}
    {outputs outputs' : List TxOut} (h : ShowsOutputs host txId outputs)
    (h' : ShowsOutputs host txId outputs') : outputs = outputs' := by
  -- A transaction and a compact proof meet in the tree of the transaction.
  have hmixed (tx : Transaction) (proof : CompactTxProof) (os : List TxOut)
      (hid : host.computeTxid tx = txId) (hproof : proof.resolve host = some ⟨txId, os⟩) :
      tx.output = os := by
    obtain ⟨hz, _, _, _, _, _, _, _, hh, hp, hs, htree⟩ := CompactTxProof.resolve_spec hproof
    rcases laws.zip244 hz tx with ⟨_, _, _, _, _, _, _, hh', hp', hs', htree'⟩ | hnone
    · rw [← hid, htree'] at htree
      exact zip244Root_outputs laws hz hh' hh hp' hp hs' hs htree
    · exact absurd (hid.trans htree) (hnone _ _ _ _ _ _ _ _)
  cases h with
  | transaction tx hid hout =>
    cases h' with
    | transaction tx' hid' hout' =>
      rw [← hout, ← hout']
      exact (laws.txid_commits tx tx' (hid.trans hid'.symm)).2
    | compact proof hproof => rw [← hout]; exact hmixed tx proof _ hid hproof
  | compact proof hproof =>
    cases h' with
    | transaction tx hid hout => rw [← hout]; exact (hmixed tx proof _ hid hproof).symm
    | compact proof' hproof' =>
      obtain ⟨hz, _, _, _, _, _, _, _, hh, hp, hs, htree⟩ := CompactTxProof.resolve_spec hproof
      obtain ⟨_, _, _, _, _, _, _, _, hh', hp', hs', htree'⟩ :=
        CompactTxProof.resolve_spec hproof'
      rw [htree] at htree'
      exact zip244Root_outputs laws hz hh hh' hp hp' hs hs' htree'

theorem PaysAt.unique {host : Host} (laws : host.Lawful) {key : OutPoint} {output output' : TxOut}
    (h : PaysAt host key output) (h' : PaysAt host key output') : output = output' := by
  obtain ⟨outputs, hshow, hat⟩ := h
  obtain ⟨outputs', hshow', hat'⟩ := h'
  rw [hshow.unique laws hshow', hat', Option.some.injEq] at hat
  exact hat.symm

end SatoshiBridge
