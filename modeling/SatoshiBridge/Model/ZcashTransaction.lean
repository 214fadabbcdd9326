import SatoshiBridge.Model.PsbtFormat
import SatoshiBridge.Model.Zip244

/-!
# The transactions built from a Zcash psbt

A psbt is built into a transaction twice: with its unlocking scripts and its bundle for broadcast,
and with the coins of its inputs and without the bundle for signing. What is signed is computed from
digests, among which the bundle is put back.
-/

set_option autoImplicit false
set_option relaxedAutoImplicit false

namespace SatoshiBridge.Zcash

open SatoshiBridge.PsbtWrapper (isP2pkh isP2sh)

/-! ### Transaction data -/

/-- The transparent part of a transaction: inputs, outputs and what authorizes the inputs. -/
structure Bundle (Input Authorization : Type) where
  vin : List Input
  vout : List TxOut
  authorization : Authorization

/-- The bytes of a Sapling bundle; the bridge never builds one. -/
abbrev SaplingBundle := List UInt8

structure TransactionData (Input Authorization : Type) where
  version : ZcashVersion
  consensusBranchId : BranchId
  lockTime : ℕ
  expiryHeight : ℕ
  transparentBundle : Option (Bundle Input Authorization)
  saplingBundle : Option SaplingBundle
  orchardBundle : Option OrchardBundle
  ironwoodBundle : Option OrchardBundle

namespace TransactionData

variable {Input Authorization : Type}

/-- `from_parts`. -/
def fromParts (version : ZcashVersion) (consensusBranchId : BranchId)
    (lockTime expiryHeight : ℕ) (transparentBundle : Option (Bundle Input Authorization))
    (saplingBundle : Option SaplingBundle) (orchardBundle : Option OrchardBundle) :
    TransactionData Input Authorization where
  version := version
  consensusBranchId := consensusBranchId
  lockTime := lockTime
  expiryHeight := expiryHeight
  transparentBundle := transparentBundle
  saplingBundle := saplingBundle
  orchardBundle := orchardBundle
  ironwoodBundle := none

/-- `from_parts_v6`. -/
def fromPartsV6 (consensusBranchId : BranchId) (lockTime expiryHeight : ℕ)
    (transparentBundle : Option (Bundle Input Authorization))
    (saplingBundle : Option SaplingBundle) (orchardBundle ironwoodBundle : Option OrchardBundle) :
    TransactionData Input Authorization where
  version := .v6
  consensusBranchId := consensusBranchId
  lockTime := lockTime
  expiryHeight := expiryHeight
  transparentBundle := transparentBundle
  saplingBundle := saplingBundle
  orchardBundle := orchardBundle
  ironwoodBundle := ironwoodBundle

end TransactionData

/-- What a transaction does, apart from its authorization: the parts its digests are computed
from. -/
structure Effects where
  version : ZcashVersion
  consensusBranchId : BranchId
  lockTime : ℕ
  expiryHeight : ℕ
  transparent : Option (List TxIn × List TxOut)
  sapling : Option SaplingBundle
  orchard : Option OrchardBundle
  ironwood : Option OrchardBundle
deriving DecidableEq

/-- An input without its unlocking script. -/
def effectOfInput (i : WireTxIn) : TxIn := ⟨i.prevout, i.sequence⟩

/-- The effects of a transaction whose inputs carry their unlocking scripts. -/
def TransactionData.effects {Authorization : Type} (tx : TransactionData WireTxIn Authorization) :
    Effects where
  version := tx.version
  consensusBranchId := tx.consensusBranchId
  lockTime := tx.lockTime
  expiryHeight := tx.expiryHeight
  transparent := tx.transparentBundle.map fun bundle ↦
    (bundle.vin.map effectOfInput, bundle.vout)
  sapling := tx.saplingBundle
  orchard := tx.orchardBundle
  ironwood := tx.ironwoodBundle

/-! ### Digests -/

/-- `SIGHASH_ALL`. -/
def sighashAll : ℕ := 1

/-- `SignableInput::Transparent`. -/
structure SignableInput where
  hashType : ℕ
  index : ℕ
  scriptCode : ScriptBuf
  scriptPubkey : ScriptBuf
  value : ℕ
deriving DecidableEq

/-- `TxDigests`. -/
structure TxDigests (Digest : Type) where
  header : Digest
  transparent : Digest
  sapling : Digest
  orchard : Digest
  ironwood : Digest
deriving DecidableEq

/-- The digests of the library, as functions of the parts they are computed from, and its signature
hash, as a function of the transparent part, the coins, the input and the digests. -/
structure DigestLibrary (Digest Hash : Type) where
  digestHeader : ZcashVersion → BranchId → ℕ → ℕ → Digest
  digestTransparent : Option (List TxIn × List TxOut) → Digest
  digestSapling : ZcashVersion → Option SaplingBundle → Digest
  digestOrchard : ZcashVersion → Option OrchardBundle → Digest
  digestIronwood : Option OrchardBundle → Digest
  signatureHash : ZcashVersion → BranchId → List TxIn × List TxOut → List TxOut →
    SignableInput → TxDigests Digest → Hash

/-- The digests of the parts of a transaction. -/
def DigestLibrary.digests {Digest Hash : Type} (lib : DigestLibrary Digest Hash)
    (effects : Effects) : TxDigests Digest where
  header := lib.digestHeader effects.version effects.consensusBranchId effects.lockTime
    effects.expiryHeight
  transparent := lib.digestTransparent effects.transparent
  sapling := lib.digestSapling effects.version effects.sapling
  orchard := lib.digestOrchard effects.version effects.orchard
  ironwood := lib.digestIronwood effects.ironwood

/-- The signature hash of an input of a transaction, given the coins of all inputs. -/
def DigestLibrary.sighash {Digest Hash : Type} (lib : DigestLibrary Digest Hash)
    (effects : Effects) (coins : List TxOut) (index : ℕ) (coin : TxOut) : Hash :=
  lib.signatureHash effects.version effects.consensusBranchId
    (effects.transparent.getD ([], [])) coins
    ⟨sighashAll, index, coin.scriptPubkey, coin.scriptPubkey, coin.value⟩ (lib.digests effects)

/-! ### The two builders -/

/-- `build_transparent_bundle`: the authorization is the coins. -/
def buildTransparentBundle (vin : List WireTxIn) (vout coins : List TxOut) :
    Option (Bundle TxIn (List TxOut)) := do
  require (vin.length = coins.length)
  require (vin ≠ [] ∨ vout ≠ [])
  require (∀ o ∈ vout, isP2pkh o.scriptPubkey ∨ isP2sh o.scriptPubkey)
  some {
    vin := vin.map fun i ↦ ⟨i.prevout, i.sequence⟩
    vout := vout
    authorization := coins }

/-- `to_zcash_tx`. -/
def toZcashTx (vin : List WireTxIn) (vout coins : List TxOut) (expiryHeight : ℕ)
    (branchId : BranchId) : Option (TransactionData TxIn (List TxOut)) := do
  let transparentBundle ← buildTransparentBundle vin vout coins
  let lockTime := 0
  if isIronwood branchId then
    some (.fromPartsV6 branchId lockTime expiryHeight (some transparentBundle) none none none)
  else
    some (.fromParts .v5 branchId lockTime expiryHeight (some transparentBundle) none none)

namespace PsbtWrapper

variable (psbt : PsbtWrapper)

/-- `get_zcash_tx`, up to the id that `freeze` computes. -/
def getZcashTx : TransactionData WireTxIn Unit :=
  let transparentBundle : Bundle WireTxIn Unit := ⟨psbt.vin, psbt.vout, ()⟩
  let shielded := psbt.orchard.map ParsedOrchardBundle.bundle
  if isIronwood psbt.branchId then
    .fromPartsV6 psbt.branchId 0 psbt.expiryHeight (some transparentBundle) none none shielded
  else
    .fromParts .v5 psbt.branchId 0 psbt.expiryHeight (some transparentBundle) none shielded

variable {Digest Hash : Type} (lib : DigestLibrary Digest Hash)

/-- `tx_digest`. -/
def txDigest (tx : TransactionData TxIn (List TxOut)) : TxDigests Digest :=
  let shielded := psbt.orchard.map ParsedOrchardBundle.bundle
  let (orchardBundle, ironwoodBundle) :=
    if isIronwood psbt.branchId then (none, shielded) else (shielded, none)
  { header := lib.digestHeader tx.version tx.consensusBranchId tx.lockTime tx.expiryHeight
    transparent := lib.digestTransparent (tx.transparentBundle.map fun b ↦ (b.vin, b.vout))
    sapling := lib.digestSapling tx.version none
    orchard := lib.digestOrchard tx.version orchardBundle
    ironwood := lib.digestIronwood ironwoodBundle }

/-- `get_hash_to_sign`. -/
def getHashToSign (vin : ℕ) : Option Hash := do
  let tx ← toZcashTx psbt.vin psbt.vout psbt.inputsUtxo psbt.expiryHeight psbt.branchId
  let txidParts := psbt.txDigest lib tx
  let coin ← psbt.inputsUtxo[vin]?
  let transparentBundle ← tx.transparentBundle
  require (vin < transparentBundle.vin.length)
  let signable : SignableInput :=
    ⟨sighashAll, vin, coin.scriptPubkey, coin.scriptPubkey, coin.value⟩
  some (lib.signatureHash tx.version tx.consensusBranchId
    (transparentBundle.vin, transparentBundle.vout) transparentBundle.authorization signable
    txidParts)

end PsbtWrapper

/-! ### The two transactions -/

section Builders

variable {vin : List WireTxIn} {vout coins : List TxOut} {expiryHeight : ℕ} {branchId : BranchId}

theorem buildTransparentBundle_eq_some {bundle : Bundle TxIn (List TxOut)} :
    buildTransparentBundle vin vout coins = some bundle ↔
      vin.length = coins.length ∧ (vin ≠ [] ∨ vout ≠ []) ∧
        (∀ o ∈ vout, isP2pkh o.scriptPubkey ∨ isP2sh o.scriptPubkey) ∧
        ⟨vin.map effectOfInput, vout, coins⟩ = bundle := by
  simp only [buildTransparentBundle, Option.bind_eq_bind, Option.bind_eq_some_iff,
    require_eq_some, Option.some.injEq, exists_and_left, exists_const]
  rfl

/-- The version of the bridge's transactions on a branch. -/
def versionFor (branchId : BranchId) : ZcashVersion := if isIronwood branchId then .v6 else .v5

theorem toZcashTx_spec {tx : TransactionData TxIn (List TxOut)}
    (h : toZcashTx vin vout coins expiryHeight branchId = some tx) :
    tx.version = versionFor branchId ∧ tx.consensusBranchId = branchId ∧ tx.lockTime = 0 ∧
      tx.expiryHeight = expiryHeight ∧
      tx.transparentBundle = some ⟨vin.map effectOfInput, vout, coins⟩ := by
  simp only [toZcashTx, Option.bind_eq_bind, Option.bind_eq_some_iff,
    buildTransparentBundle_eq_some] at h
  obtain ⟨bundle, ⟨_, _, _, rfl⟩, h⟩ := h
  unfold versionFor
  by_cases hironwood : isIronwood branchId = true
  · rw [if_pos hironwood, Option.some.injEq] at h
    rw [if_pos hironwood, ← h]
    exact ⟨rfl, rfl, rfl, rfl, rfl⟩
  · rw [if_neg hironwood, Option.some.injEq] at h
    rw [if_neg hironwood, ← h]
    exact ⟨rfl, rfl, rfl, rfl, rfl⟩

/-- What the transaction for broadcast does. -/
theorem PsbtWrapper.effects_getZcashTx (psbt : PsbtWrapper) :
    psbt.getZcashTx.effects = {
      version := versionFor psbt.branchId
      consensusBranchId := psbt.branchId
      lockTime := 0
      expiryHeight := psbt.expiryHeight
      transparent := some (psbt.vin.map effectOfInput, psbt.vout)
      sapling := none
      orchard :=
        if isIronwood psbt.branchId then none else psbt.orchard.map ParsedOrchardBundle.bundle
      ironwood :=
        if isIronwood psbt.branchId then psbt.orchard.map ParsedOrchardBundle.bundle
        else none } := by
  unfold PsbtWrapper.getZcashTx versionFor
  by_cases hironwood : isIronwood psbt.branchId = true
  · simp only [if_pos hironwood]
    rfl
  · simp only [if_neg hironwood]
    rfl

/-- The digests that are signed are those of the transaction for broadcast. -/
theorem PsbtWrapper.txDigest_eq {Digest Hash : Type} (lib : DigestLibrary Digest Hash)
    (psbt : PsbtWrapper) {tx : TransactionData TxIn (List TxOut)}
    (h : toZcashTx psbt.vin psbt.vout psbt.inputsUtxo psbt.expiryHeight psbt.branchId = some tx) :
    psbt.txDigest lib tx = lib.digests psbt.getZcashTx.effects := by
  obtain ⟨hversion, hbranch, hlock, hexpiry, hbundle⟩ := toZcashTx_spec h
  rw [psbt.effects_getZcashTx]
  unfold PsbtWrapper.txDigest DigestLibrary.digests
  rw [hversion, hbranch, hlock, hexpiry, hbundle]
  by_cases hironwood : isIronwood psbt.branchId = true
  · simp only [if_pos hironwood, Option.map_some]
  · simp only [if_neg hironwood, Option.map_some]

/-- The signature hash of an input is that of the transaction for broadcast. -/
theorem PsbtWrapper.getHashToSign_eq {Digest Hash : Type} (lib : DigestLibrary Digest Hash)
    (psbt : PsbtWrapper) (vin : ℕ) :
    psbt.getHashToSign lib vin = (do
      let _ ← buildTransparentBundle psbt.vin psbt.vout psbt.inputsUtxo
      let coin ← psbt.inputsUtxo[vin]?
      require (vin < psbt.vin.length)
      some (lib.sighash psbt.getZcashTx.effects psbt.inputsUtxo vin coin)) := by
  unfold PsbtWrapper.getHashToSign
  cases hbundle : buildTransparentBundle psbt.vin psbt.vout psbt.inputsUtxo with
  | none =>
    rw [toZcashTx, hbundle]
    rfl
  | some bundle =>
    have hbuilt : ∃ tx, toZcashTx psbt.vin psbt.vout psbt.inputsUtxo psbt.expiryHeight
        psbt.branchId = some tx := by
      simp only [toZcashTx, hbundle, Option.bind_eq_bind, Option.bind_some]
      split
      · exact ⟨_, rfl⟩
      · exact ⟨_, rfl⟩
    obtain ⟨tx, htx⟩ := hbuilt
    obtain ⟨hversion, hbranch, _, _, htransparent⟩ := toZcashTx_spec htx
    simp only [htx, psbt.txDigest_eq lib htx, htransparent, hversion, hbranch, List.length_map,
      Option.bind_eq_bind, Option.bind_some, DigestLibrary.sighash, psbt.effects_getZcashTx,
      Option.getD_some]

end Builders

/-! ### The transactions of the bridge -/

/-- A transaction by its effects, as the rest of the bridge sees it. -/
def Effects.transaction (effects : Effects) : Transaction where
  version := match effects.version with
    | .v5 => 5
    | .v6 => 6
  lockTime := effects.lockTime
  branchId := some effects.consensusBranchId
  expiryHeight := effects.expiryHeight
  input := (effects.transparent.map Prod.fst).getD []
  output := (effects.transparent.map Prod.snd).getD []
  shielded := (effects.orchard.or effects.ironwood).map OrchardBundle.bytes

/-- The transaction of a psbt of the bridge is the one built for broadcast. -/
theorem transaction_getZcashTx {host : Host} {psbt : SatoshiBridge.PsbtWrapper}
    {wrapper : PsbtWrapper} (h : psbt.toZcash host = some wrapper) :
    wrapper.getZcashTx.effects.transaction = psbt.transaction host := by
  simp only [SatoshiBridge.PsbtWrapper.toZcash, Option.bind_eq_bind, Option.bind_eq_some_iff,
    Option.some.injEq] at h
  obtain ⟨branchId, hbranch, rfl⟩ := h
  rw [PsbtWrapper.effects_getZcashTx]
  unfold Effects.transaction SatoshiBridge.PsbtWrapper.transaction versionFor
  simp only [hbranch, Option.map_some, Option.getD_some, List.map_map]
  by_cases hironwood : isIronwood branchId = true
  · simp only [if_pos hironwood, Option.none_or, Option.map_map]
    rfl
  · simp only [if_neg hironwood, Option.or_none, Option.map_map]
    rfl

/-- The signature hash of a host is that of a library. -/
def DigestLibrary.Describes {Digest : Type} (lib : DigestLibrary Digest (List UInt8))
    (host : Host) : Prop :=
  ∀ psbt : PsbtWrapper, ∀ vin, host.zcashSighash psbt.getZcashTx.effects.transaction psbt.inputsUtxo
    vin = do
      let coin ← psbt.inputsUtxo[vin]?
      require (vin < psbt.vin.length)
      some (lib.sighash psbt.getZcashTx.effects psbt.inputsUtxo vin coin)

/-- What the bridge signs is the signature hash of the wrapper, when the coins are known. -/
theorem getHashToSign_toZcash {Digest : Type} {lib : DigestLibrary Digest (List UInt8)}
    {host : Host} (hzcash : host.zcash = true) (hlib : lib.Describes host)
    {psbt : SatoshiBridge.PsbtWrapper} {wrapper : PsbtWrapper}
    (h : psbt.toZcash host = some wrapper)
    (hcoins : psbt.coins = some wrapper.inputsUtxo) (vin : ℕ) :
    psbt.getHashToSign host vin = wrapper.getHashToSign lib vin := by
  have hvin : wrapper.vin = psbt.vin.map (SatoshiBridge.PsbtWrapper.inputToWire host) ∧
      wrapper.vout = psbt.vout := by
    simp only [SatoshiBridge.PsbtWrapper.toZcash, Option.bind_eq_bind, Option.bind_eq_some_iff,
      Option.some.injEq] at h
    obtain ⟨_, _, rfl⟩ := h
    exact ⟨rfl, rfl⟩
  have hempty : psbt.vin ≠ [] ↔ wrapper.vin ≠ [] := by
    rw [hvin.1, Ne, Ne, List.map_eq_nil_iff]
  have hlength : psbt.vin.length = wrapper.vin.length := by rw [hvin.1, List.length_map]
  rw [wrapper.getHashToSign_eq]
  simp only [SatoshiBridge.PsbtWrapper.getHashToSign, hzcash, if_true, hcoins,
    ← transaction_getZcashTx h, hlib wrapper vin, buildTransparentBundle, hempty, hlength,
    ← hvin.2, Option.bind_eq_bind, Option.bind_some, Option.bind_assoc]

end SatoshiBridge.Zcash
