import Mathlib.Data.List.Basic
import SatoshiBridge.Model.Config

/-!
# Partially signed transactions

The operations of `PsbtWrapper` in both builds. A psbt determines the transaction it will become;
signing writes the unlocking scripts of inputs and leaves that transaction as it is, so the id of a
pending transaction is known before it is signed.
-/

set_option autoImplicit false
set_option relaxedAutoImplicit false

namespace SatoshiBridge

/-- `Zatoshis::from_u64` rejects more than the total supply of zatoshis. -/
def maxMoney : ℕ := 2100000000000000

/-- `Chain::get_branch_id`; a chain that is not Zcash is unreachable. -/
def Chain.getBranchId (chain : Chain) (blockHeight : ℕ) : Option BranchId :=
  let select (nu61 nu62 nu63 nu7 : ℕ) : BranchId :=
    if nu7 ≠ 0 ∧ nu7 ≤ blockHeight then .nu7
    else if nu63 ≠ 0 ∧ nu63 ≤ blockHeight then .nu6_3
    else if nu62 ≠ 0 ∧ nu62 ≤ blockHeight then .nu6_2
    else if nu61 ≠ 0 ∧ nu61 ≤ blockHeight then .nu6_1
    else .nu6
  match chain with
  | .zcashMainnet => some (select 3146400 3364600 3428143 3543405)
  | .zcashTestnet => some (select 3536500 4052000 4134000 4465026)
  | _ => none

/-! ### Shielded bundles -/

/-- `EXPECTED_ACTIONS_NUMBER`. -/
def expectedActionsNumber : ℕ := 1

/-- `extract_orchard_bundle`. -/
def extractOrchardBundle (host : Host) (orchardBundleBytes : Option (List UInt8))
    (branchId : BranchId) : Option (Option ParsedOrchardBundle) :=
  match orchardBundleBytes with
  | none => some none
  | some bytes => do
    let bundle ← host.readBundle branchId bytes
    require (bundle.actions = expectedActionsNumber)
    let output ← host.recoverOutputWithOvk bundle
    require (output.amount ≠ 0)
    some (some ⟨bundle, output⟩)

namespace PsbtWrapper

/-- The sequence number of every input: `ENABLE_RBF_NO_LOCKTIME` on Bitcoin, `MAX` on Zcash. -/
def sequence (host : Host) : ℕ := if host.zcash then 0xFFFFFFFF else 0xFFFFFFFD

/-- The unsigned transaction of a psbt. From the Ironwood epochs on, Zcash transactions are built
in version 6. -/
def transaction (host : Host) (psbt : PsbtWrapper) : Transaction where
  version := match psbt.branchId with
    | none => 2
    | some branchId => if isIronwood branchId then 6 else 5
  lockTime := 0
  branchId := psbt.branchId
  expiryHeight := psbt.expiryHeight
  input := psbt.vin.map fun i ↦ ⟨i.previousOutput, sequence host⟩
  output := psbt.vout
  shielded := psbt.orchard.map fun parsed ↦ parsed.bundle.bytes

/-- `PsbtWrapper::new` of the Bitcoin build. -/
def newBitcoin (input : List OutPoint) (output : List TxOut) : Option PsbtWrapper := do
  require (input ≠ [])
  require (output ≠ [])
  some {
    branchId := none
    expiryHeight := 0
    vin := input.map fun o ↦ ⟨o, none⟩
    vout := output
    inputsUtxo := input.map fun _ ↦ none
    orchard := none
    recipientAddress := none }

/-- `PsbtWrapper::new` of the Zcash build. Outputs may be empty when a bundle carries the value. -/
def newZcash (host : Host) (config : Config) (input : List OutPoint) (output : List TxOut)
    (orchardBundleBytes : Option (List UInt8)) (expiryHeight currentHeight : ℕ)
    (recipientAddress : Option String) : Option PsbtWrapper := do
  require (input ≠ [])
  require (output ≠ [] ∨ orchardBundleBytes.isSome)
  require (∀ o ∈ output, o.value ≤ maxMoney)
  let branchId ← config.chain.getBranchId currentHeight
  let orchard ← extractOrchardBundle host orchardBundleBytes branchId
  some {
    branchId := some branchId
    expiryHeight := expiryHeight
    vin := input.map fun o ↦ ⟨o, none⟩
    vout := output
    inputsUtxo := input.map fun _ ↦ some ⟨0, []⟩
    orchard := orchard
    recipientAddress := recipientAddress }

/-- `PsbtWrapper::from_original_psbt` of the Bitcoin build. -/
def fromOriginalPsbtBitcoin (original : PsbtWrapper) (output : List TxOut) : PsbtWrapper where
  branchId := none
  expiryHeight := 0
  vin := original.vin.map fun i ↦ ⟨i.previousOutput, none⟩
  vout := output
  inputsUtxo := original.inputsUtxo
  orchard := none
  recipientAddress := none

/-- `PsbtWrapper::from_original_psbt` of the Zcash build: the inputs are kept with their unlocking
scripts, and an empty output list keeps the outputs of the original. -/
def fromOriginalPsbtZcash (host : Host) (config : Config) (original : PsbtWrapper)
    (output : List TxOut) (orchardBundleBytes : Option (List UInt8))
    (expiryHeight currentHeight : ℕ) : Option PsbtWrapper := do
  require (∀ o ∈ output, o.value ≤ maxMoney)
  let branchId ← config.chain.getBranchId currentHeight
  let orchard ← extractOrchardBundle host orchardBundleBytes branchId
  some {
    branchId := some branchId
    expiryHeight := expiryHeight
    vin := original.vin
    vout := if output = [] then original.vout else output
    inputsUtxo := original.inputsUtxo
    orchard := orchard
    recipientAddress := original.recipientAddress }

/-- `set_input_utxo`: the coins of the first inputs, one for each element. -/
def setInputUtxo (host : Host) (psbt : PsbtWrapper) (inputUtxo : List TxOut) :
    Option PsbtWrapper := do
  require (inputUtxo.length ≤ psbt.inputsUtxo.length)
  require (host.zcash → ∀ o ∈ inputUtxo, o.value ≤ maxMoney)
  some { psbt with
    inputsUtxo := inputUtxo.map some ++ psbt.inputsUtxo.drop inputUtxo.length }

/-- `get_output`. -/
abbrev getOutput (psbt : PsbtWrapper) : List TxOut := psbt.vout

/-- `get_input_num`. -/
def getInputNum (psbt : PsbtWrapper) : ℕ := psbt.vin.length

/-- `get_output_num`. -/
def getOutputNum (psbt : PsbtWrapper) : ℕ := psbt.vout.length

/-- `get_utxo_storage_keys`. -/
def getUtxoStorageKeys (psbt : PsbtWrapper) : List OutPoint :=
  psbt.vin.map PsbtInput.previousOutput

/-- `add_extra_outputs`: what a bundle pays, besides the transparent outputs. -/
def extraOutputs (psbt : PsbtWrapper) : List ℕ :=
  match psbt.orchard with
  | none => []
  | some parsed => [parsed.output.amount]

/-- The value of a bundle, zero without one. -/
def orchardAmount (psbt : PsbtWrapper) : ℕ := psbt.extraOutputs.sum

/-- `get_pending_id`. -/
def getPendingId (host : Host) (psbt : PsbtWrapper) : Option Txid := do
  require (host.extractTxOk psbt)
  some (host.computeTxid (psbt.transaction host))

/-- `extract_tx_bytes_with_sign`. -/
def extractTxBytesWithSign (host : Host) (psbt : PsbtWrapper) : Option SignedTransaction := do
  require (host.extractTxOk psbt)
  some ⟨psbt.transaction host, psbt.vin.map PsbtInput.scriptSig⟩

/-- `get_recipient_address`. -/
abbrev getRecipientAddress (psbt : PsbtWrapper) : Option String := psbt.recipientAddress

/-- The coins of all inputs, when every one is known. -/
def coins (psbt : PsbtWrapper) : Option (List TxOut) := psbt.inputsUtxo.mapM id

/-- `Script::is_p2pkh`. -/
def isP2pkh : ScriptBuf → Bool
  | 0x76 :: 0xa9 :: 0x14 :: rest => rest.length = 22 ∧ rest.drop 20 = [0x88, 0xac]
  | _ => false

/-- `Script::is_p2sh`. -/
def isP2sh : ScriptBuf → Bool
  | 0xa9 :: 0x14 :: rest => rest.length = 21 ∧ rest.drop 20 = [0x87]
  | _ => false

/-- `get_hash_to_sign`. On Bitcoin the coin of the input has to be present and of the kind the
sighash is for; on Zcash the transparent bundle is rebuilt with the checks of
`build_transparent_bundle`. -/
def getHashToSign (host : Host) (psbt : PsbtWrapper) (vin : ℕ) : Option (List UInt8) :=
  if host.zcash then do
    let coins ← psbt.coins
    require (psbt.vin.length = coins.length)
    require (psbt.vin ≠ [] ∨ psbt.vout ≠ [])
    require (∀ o ∈ psbt.vout, isP2pkh o.scriptPubkey ∨ isP2sh o.scriptPubkey)
    host.zcashSighash (psbt.transaction host) coins vin
  else do
    let utxo ← (psbt.inputsUtxo[vin]?).join
    host.p2wpkhSighash (psbt.transaction host) vin utxo

/-- `save_signature`. -/
def saveSignature (psbt : PsbtWrapper) (signIndex : ℕ) (scriptSig : ScriptSig) :
    Option PsbtWrapper := do
  let input ← psbt.vin[signIndex]?
  some { psbt with vin := psbt.vin.set signIndex ⟨input.previousOutput, some scriptSig⟩ }

/-- `validate_orchard_bundle`. -/
def validateOrchardBundle (host : Host) (psbt : PsbtWrapper) (expectedAddr : String)
    (chain : Chain) : Option Unit := do
  let orchard ← psbt.orchard
  let recipient ← host.parseAddress chain expectedAddr
  let expected ← recipient.orchardReceiver
  require (orchard.output.recipientAddr = expected)
  require (orchard.output.amount < 2 ^ 63)
  require (orchard.bundle.valueBalance = -(orchard.output.amount : ℤ))

/-- `get_min_fee`: the actions count for the pool of the branch. -/
def getMinFee (host : Host) (psbt : PsbtWrapper) : ℕ :=
  let actionCount := (psbt.orchard.map fun parsed ↦ parsed.bundle.actions).getD 0
  let ironwood := (psbt.branchId.map isIronwood).getD false
  host.zip317MinFee psbt.vin.length (psbt.vout.map fun o ↦ (host.writeTxOut o).length)
    (if ironwood then 0 else actionCount) (if ironwood then actionCount else 0)

/-! ### What the operations keep -/

variable {host : Host} {psbt psbt' : PsbtWrapper}

theorem transaction_input_keys (host : Host) (psbt : PsbtWrapper) :
    (psbt.transaction host).input.map TxIn.previousOutput = psbt.getUtxoStorageKeys := by
  simp only [transaction, getUtxoStorageKeys, List.map_map]
  rfl

theorem setInputUtxo_spec {inputUtxo : List TxOut}
    (h : psbt.setInputUtxo host inputUtxo = some psbt') :
    inputUtxo.length ≤ psbt.inputsUtxo.length ∧
      psbt' = { psbt with
        inputsUtxo := inputUtxo.map some ++ psbt.inputsUtxo.drop inputUtxo.length } := by
  simp only [setInputUtxo, Option.bind_eq_bind, Option.bind_eq_some_iff, require_eq_some,
    Option.some.injEq, exists_and_left, exists_const] at h
  exact ⟨h.1, h.2.2.symm⟩

/-- Saving a signature keeps everything the transaction is built from. -/
theorem saveSignature_spec (host : Host) {signIndex : ℕ} {scriptSig : ScriptSig}
    (h : psbt.saveSignature signIndex scriptSig = some psbt') :
    psbt'.transaction host = psbt.transaction host ∧
      psbt'.getUtxoStorageKeys = psbt.getUtxoStorageKeys ∧
      psbt'.inputsUtxo = psbt.inputsUtxo ∧ psbt'.vout = psbt.vout ∧
      psbt'.orchard = psbt.orchard ∧ psbt'.recipientAddress = psbt.recipientAddress := by
  simp only [saveSignature, Option.bind_eq_bind, Option.bind_eq_some_iff,
    Option.some.injEq] at h
  obtain ⟨input, hinput, rfl⟩ := h
  have hkeep (β : Type) (f : PsbtInput → β) (hf : ∀ i : PsbtInput, ∀ s, f ⟨i.1, s⟩ = f i) :
      (psbt.vin.set signIndex ⟨input.previousOutput, some scriptSig⟩).map f = psbt.vin.map f := by
    rw [List.map_set, hf input (some scriptSig)]
    apply List.ext_getElem?
    intro i
    by_cases hi : i = signIndex
    · subst hi
      simp only [List.getElem?_set, List.getElem?_map, hinput, List.length_map, if_true,
        Option.map_some]
      exact if_pos (List.getElem?_eq_some_iff.mp hinput).1
    · simp [Ne.symm hi]
  refine ⟨?_, hkeep _ _ fun _ _ ↦ rfl, rfl, rfl, rfl, rfl⟩
  simp only [transaction]
  rw [hkeep _ _ fun _ _ ↦ rfl]

theorem newBitcoin_spec {input : List OutPoint} {output : List TxOut}
    (h : newBitcoin input output = some psbt) :
    input ≠ [] ∧ psbt.getUtxoStorageKeys = input ∧ psbt.vout = output ∧
      psbt.inputsUtxo.length = input.length ∧ psbt.orchard = none ∧
      psbt.recipientAddress = none := by
  simp only [newBitcoin, Option.bind_eq_bind, Option.bind_eq_some_iff, require_eq_some,
    Option.some.injEq, exists_and_left, exists_const] at h
  obtain ⟨hne, _, rfl⟩ := h
  refine ⟨hne, ?_, rfl, List.length_map _, rfl, rfl⟩
  simp only [getUtxoStorageKeys, List.map_map]
  exact List.map_id' input

theorem newZcash_spec {config : Config} {input : List OutPoint} {output : List TxOut}
    {bytes : Option (List UInt8)} {expiryHeight currentHeight : ℕ} {recipient : Option String}
    (h : newZcash host config input output bytes expiryHeight currentHeight recipient
      = some psbt) :
    input ≠ [] ∧ psbt.getUtxoStorageKeys = input ∧ psbt.vout = output ∧
      psbt.inputsUtxo.length = input.length ∧ psbt.recipientAddress = recipient ∧
      (psbt.orchard.isSome ↔ bytes.isSome) := by
  simp only [newZcash, Option.bind_eq_bind, Option.bind_eq_some_iff, require_eq_some,
    Option.some.injEq, exists_and_left, exists_const] at h
  obtain ⟨hne, _, _, branchId, _, orchard, horchard, rfl⟩ := h
  refine ⟨hne, ?_, rfl, List.length_map _, rfl, ?_⟩
  · simp only [getUtxoStorageKeys, List.map_map]
    exact List.map_id' input
  · cases bytes with
    | none =>
      cases horchard
      simp
    | some b =>
      simp only [extractOrchardBundle, Option.bind_eq_bind, Option.bind_eq_some_iff,
        Option.some.injEq] at horchard
      obtain ⟨_, _, _, _, _, _, _, _, rfl⟩ := horchard
      simp

theorem fromOriginalPsbtZcash_spec {config : Config} {original : PsbtWrapper}
    {output : List TxOut} {bytes : Option (List UInt8)} {expiryHeight currentHeight : ℕ}
    (h : fromOriginalPsbtZcash host config original output bytes expiryHeight currentHeight
      = some psbt) :
    psbt.getUtxoStorageKeys = original.getUtxoStorageKeys ∧
      psbt.inputsUtxo = original.inputsUtxo ∧
      psbt.recipientAddress = original.recipientAddress ∧
      (bytes = none → psbt.orchard = none) := by
  simp only [fromOriginalPsbtZcash, Option.bind_eq_bind, Option.bind_eq_some_iff,
    require_eq_some, Option.some.injEq, exists_and_left, exists_const] at h
  obtain ⟨_, branchId, _, orchard, horchard, rfl⟩ := h
  refine ⟨rfl, rfl, rfl, ?_⟩
  intro hbytes
  rw [hbytes] at horchard
  cases horchard
  rfl

theorem fromOriginalPsbtBitcoin_keys (original : PsbtWrapper) (output : List TxOut) :
    (fromOriginalPsbtBitcoin original output).getUtxoStorageKeys = original.getUtxoStorageKeys := by
  simp only [fromOriginalPsbtBitcoin, getUtxoStorageKeys, List.map_map]
  rfl

end PsbtWrapper

end SatoshiBridge
