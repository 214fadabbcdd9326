import SatoshiBridge.Invariants.Coins
import SatoshiBridge.Model.SampleNetwork

/-!
# Signing on the chains of the Bitcoin build

The sighash and the witness of the Bitcoin build are those of P2WPKH. The addresses of the bridge
are P2WPKH on the chains that have segwit, and P2PKH on Dogecoin, where no pending transaction can
be signed.
-/

set_option autoImplicit false
set_option relaxedAutoImplicit false

namespace SatoshiBridge

variable {host : Host} {s : Sys} {codecs : AddressCodecs} {chain : Chain}

/-! ### The kind of the scripts -/

/-- An address of the bridge is P2WPKH exactly on the chains that have segwit. -/
theorem AddressCodecs.Describes.isP2wpkh_pathScript (hdescribes : codecs.Describes host)
    (chain : Chain) (path : Path) :
    isP2wpkh (host.pathScript chain path) = (getSegwitHrp chain).isSome := by
  obtain ⟨hash, hscript, _⟩ := hdescribes.derived chain host.rootPublicKey path
  cases hhrp : getSegwitHrp chain with
  | none =>
    rw [NetworkAddress.fromPubkey, hhrp, Option.isSome_none, if_neg Bool.false_ne_true,
      NetworkAddress.scriptPubkey, Option.some.injEq] at hscript
    rw [Host.pathScript, ← hscript]
    exact isP2wpkh_newP2pkh hash
  | some hrp =>
    rw [NetworkAddress.fromPubkey, hhrp, Option.isSome_some, if_pos rfl,
      NetworkAddress.scriptPubkey, Option.some.injEq] at hscript
    rw [Host.pathScript, ← hscript]
    exact isP2wpkh_newWitnessProgram hash

/-! ### Sighashes -/

/-- Every input has a sighash of the kind its coin is spent by, and every missing signature can be
asked for. -/
structure Contract.Signable (host : Host) (c : Contract) (id : Txid) (info : BTCPendingInfo) :
    Prop where
  sighash : ∀ index key, info.inputs[index]? = some key → ∃ coin payload, PaysAt host key coin ∧
    isP2wpkh coin.scriptPubkey = true ∧
    host.p2wpkhSighash (info.psbt.transaction host) index coin = some payload ∧
    info.psbt.getHashToSign host index = some payload
  asked : ∀ index, info.signatures[index]? = some none →
    ∀ keyVersion, (c.internalSignBtcTransaction host id index keyVersion).isSome

/-- The sighash of an input is that of its coin. -/
theorem BTCPendingInfo.Funded.getHashToSign {info : BTCPendingInfo} (h : info.Funded host chain)
    (hbuild : host.zcash = false) {index : ℕ} {utxo : UTXO}
    (hutxo : info.vutxos[index]? = some utxo) :
    info.psbt.getHashToSign host index = host.p2wpkhSighash (info.psbt.transaction host) index
      ⟨utxo.balance, host.pathScript chain utxo.path⟩ := by
  have hcoin : info.psbt.inputsUtxo[index]? =
      some (some ⟨utxo.balance, host.pathScript chain utxo.path⟩) := by
    rw [h.coins, coinsOf, List.getElem?_map, hutxo, Option.map_some]
  unfold PsbtWrapper.getHashToSign
  rw [hbuild, if_neg Bool.false_ne_true, hcoin]
  rfl

/-- A sighash exists for an input exactly when the bridge has P2WPKH addresses. -/
theorem BTCPendingInfo.Funded.getHashToSign_isSome {info : BTCPendingInfo}
    (h : info.Funded host chain) (hbuild : host.zcash = false) (hsighash : host.SighashesP2wpkh)
    (hdescribes : codecs.Describes host) {index : ℕ} (hindex : index < info.inputs.length) :
    (info.psbt.getHashToSign host index).isSome ↔ (getSegwitHrp chain).isSome = true := by
  have hlength := h.spends.length_eq
  have hutxo := List.getElem?_eq_getElem (hlength ▸ hindex)
  have hinput : index < (info.psbt.transaction host).input.length := by
    have hkeys := congrArg List.length (PsbtWrapper.transaction_input_keys host info.psbt)
    rw [List.length_map] at hkeys
    rwa [hkeys]
  rw [h.getHashToSign hbuild hutxo, hsighash, hdescribes.isP2wpkh_pathScript]
  exact and_iff_right hinput

/-- A transaction whose inputs have sighashes can be signed. -/
theorem BTCPendingInfo.Funded.signable {c : Contract} {id : Txid} {info : BTCPendingInfo}
    (h : info.Funded host chain) (hbuild : host.zcash = false) (hsighash : host.SighashesP2wpkh)
    (hdescribes : codecs.Describes host) (hpending : c.btcPendingInfos.lookup id = some info)
    (hsegwit : (getSegwitHrp chain).isSome = true) : c.Signable host id info where
  sighash := by
    intro index key hkey
    obtain ⟨hindex, hat⟩ := List.getElem?_eq_some_iff.mp hkey
    have hindex' : index < info.vutxos.length := h.spends.length_eq ▸ hindex
    have hspends : Holds host chain info.inputs[index] info.vutxos[index] :=
      (List.forall₂_iff_get.mp h.spends).2 index hindex hindex'
    rw [hat] at hspends
    obtain ⟨payload, hpayload⟩ := Option.isSome_iff_exists.mp
      ((h.getHashToSign_isSome hbuild hsighash hdescribes hindex).mpr hsegwit)
    refine ⟨_, payload, hspends.pays, ?_, ?_, hpayload⟩
    · exact (hdescribes.isP2wpkh_pathScript chain _).trans hsegwit
    · rw [← h.getHashToSign hbuild (List.getElem?_eq_getElem hindex')]
      exact hpayload
  asked := by
    intro index hmissing keyVersion
    obtain ⟨hsignature, _⟩ := List.getElem?_eq_some_iff.mp hmissing
    have hindex : index < info.inputs.length := h.signatures ▸ hsignature
    have hutxo := List.getElem?_eq_getElem (h.spends.length_eq ▸ hindex)
    obtain ⟨payload, hpayload⟩ := Option.isSome_iff_exists.mp
      ((h.getHashToSign_isSome hbuild hsighash hdescribes hindex).mpr hsegwit)
    simp only [Contract.internalSignBtcTransaction, Contract.internalUnwrapBtcPendingInfo,
      hpending, hmissing, hpayload, hutxo, require, Option.bind_eq_bind, Option.bind_some, if_true,
      Option.isSome_some]

/-- On the Bitcoin build a pending transaction can be signed exactly when its chain has segwit.
Assumes that the library computes a P2WPKH sighash for a P2WPKH coin only, and that serde reads the
messages it has written. -/
theorem Sys.Reachable.signable_iff (laws : codecs.Lawful) (hdescribes : codecs.Describes host)
    (hreads : host.ReadsMessages) (hsighash : host.SighashesP2wpkh) (hbuild : host.zcash = false)
    {guard : Sys.Guard} (h : Sys.Reachable host guard s) {id : Txid} {info : BTCPendingInfo}
    (hpending : s.contract.btcPendingInfos.lookup id = some info) :
    s.contract.Signable host id info ↔ (getSegwitHrp s.contract.config.chain).isSome = true := by
  have hreached := h.anytime (hdescribes.readsAddresses laws)
  have hfunded : info.Funded host s.contract.config.chain := hreached.funded hreads id info hpending
  constructor
  · intro hsignable
    obtain ⟨key, rest, hinputs⟩ := List.exists_cons_of_ne_nil hfunded.nonempty
    have hfirst : info.inputs[0]? = some key := by
      rw [hinputs]
      rfl
    obtain ⟨_, payload, _, _, _, hpayload⟩ := hsignable.sighash 0 key hfirst
    have hindex : 0 < info.inputs.length := List.length_pos_iff.mpr hfunded.nonempty
    rw [← hfunded.getHashToSign_isSome hbuild hsighash hdescribes hindex, hpayload]
    rfl
  · exact hfunded.signable hbuild hsighash hdescribes hpending

namespace Sample

/-! ### A host with sighashes -/

/-- The sighash of the library, without its content. -/
def p2wpkhSighash (tx : Transaction) (index : ℕ) (coin : TxOut) : Option (List UInt8) :=
  if index < tx.input.length ∧ isP2wpkh coin.scriptPubkey = true then some [] else none

/-- The sample network with a table of transactions and with sighashes. -/
noncomputable def signingHost (transactions : List Transaction) : Host :=
  { networkHost with
    computeTxid := fun tx ↦ 2 * Numbering.number transactions tx
    decodeTransaction := fun
      | [b] => transactions[b.toNat]?
      | _ => none
    p2wpkhSighash := p2wpkhSighash }

theorem codecs_describe_signing (transactions : List Transaction) :
    Sample.codecs.Describes (signingHost transactions) where
  parseAddress := fun _ _ ↦ rfl
  addressOfScript := fun _ _ ↦ rfl
  derived := fun chain key path ↦ codecs_describe.derived chain key path

theorem signingHost_sighashes (transactions : List Transaction) :
    (signingHost transactions).SighashesP2wpkh := by
  intro tx index coin
  change (p2wpkhSighash tx index coin).isSome ↔ _
  unfold p2wpkhSighash
  split
  · rename_i h
    exact iff_of_true rfl h
  · rename_i h
    exact iff_of_false Bool.false_ne_true h

/-- Alice deposits and withdraws. -/
def withdrawal (target : String) (outputs : List TxOut) : List Action :=
  sync ++ deposit aliceMsg 0 ++
    [.call (env "nbtc" 2 0) (.ftOnTransfer "alice" 900
      (.withdraw target [⟨0, 0⟩] outputs none none))]

end Sample

/-- The withdrawal of Alice on Bitcoin can be signed. -/
theorem signable_withdrawal :
    ∃ s info, Sample.afterIn (Sample.signingHost Sample.networkTransactions)
        (Sample.withdrawal Sample.recipientText (Sample.withdrawalOutputs 890)) = some s ∧
      s.contract.btcPendingInfos.lookup 2 = some info ∧
      s.contract.Signable (Sample.signingHost Sample.networkTransactions) 2 info := by
  have hrun : ((Sample.afterIn (Sample.signingHost Sample.networkTransactions)
      (Sample.withdrawal Sample.recipientText (Sample.withdrawalOutputs 890))).bind fun s ↦
        (s.contract.btcPendingInfos.lookup 2).map fun _ ↦ s.contract.config.chain) =
      some .bitcoinMainnet := by
    decide +kernel
  obtain ⟨s, hs, hsome⟩ := Option.bind_eq_some_iff.mp hrun
  obtain ⟨info, hinfo, hchain⟩ := Option.map_eq_some_iff.mp hsome
  have hreach : Sys.Reachable (Sample.signingHost Sample.networkTransactions) Sys.always s :=
    Sample.reachesIn (by decide) hs
  refine ⟨s, info, hs, hinfo, ?_⟩
  rw [hreach.signable_iff Sample.codecs_lawful (Sample.codecs_describe_signing _)
    Sample.depositMsg_roundTrip (Sample.signingHost_sighashes _) rfl hinfo, hchain]
  rfl

namespace Sample

/-! ### The same withdrawal on Dogecoin -/

def dogecoinConfig : Config := { config with chain := .dogecoinMainnet }

/-- The withdrawal of Alice, with the change first. -/
noncomputable def dogecoinOutputs : List TxOut :=
  [⟨100, newP2pkh (pathHash bridge)⟩, ⟨890, recipientScript⟩]

/-- Pays Alice on Dogecoin. -/
noncomputable def dogecoinTransactions : List Transaction :=
  [{ fundingTx with output := [⟨1000, newP2pkh (pathHash "h")⟩] }, spendTx [⟨0, 0⟩] dogecoinOutputs]

/-- The address of the recipient on Dogecoin. -/
def dogecoinText : String := spell (0x1E :: recipientHash.bytes)

end Sample

/-- The withdrawal of Alice on Dogecoin is accepted and cannot be signed. -/
theorem unsignable_withdrawal :
    ∃ s info, Sys.Reachable (Sample.signingHost Sample.dogecoinTransactions) Sys.always s ∧
      s.contract.btcPendingInfos.lookup 2 = some info ∧
      ¬s.contract.Signable (Sample.signingHost Sample.dogecoinTransactions) 2 info := by
  have hrun : ((Sample.afterWith (Sample.signingHost Sample.dogecoinTransactions)
      Sample.dogecoinConfig
      (Sample.withdrawal Sample.dogecoinText Sample.dogecoinOutputs)).bind fun s ↦
        (s.contract.btcPendingInfos.lookup 2).map fun info ↦ (info.inputs,
          info.psbt.getHashToSign (Sample.signingHost Sample.dogecoinTransactions) 0)) =
      some ([⟨0, 0⟩], none) := by
    decide +kernel
  obtain ⟨s, hs, hsome⟩ := Option.bind_eq_some_iff.mp hrun
  obtain ⟨info, hinfo, heq⟩ := Option.map_eq_some_iff.mp hsome
  rw [Prod.mk.injEq] at heq
  refine ⟨s, info, Sample.reachesWith (by decide +kernel) hs, hinfo, fun hsignable ↦ ?_⟩
  obtain ⟨_, payload, _, _, _, hpayload⟩ := hsignable.sighash 0 ⟨0, 0⟩ (by rw [heq.1]; rfl)
  rw [heq.2] at hpayload
  cases hpayload

end SatoshiBridge
