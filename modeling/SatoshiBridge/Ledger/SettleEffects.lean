import SatoshiBridge.Ledger.ReplaceEffects

/-!
# The effects of confirmations, signatures and transfers

The light client's answer moves a transaction to the burn stage, the burn callback settles its
family; signing and the transfers of the bridge's own tokens complete the life of a transaction.
-/

set_option autoImplicit false
set_option relaxedAutoImplicit false

namespace SatoshiBridge

variable {host : Host} {Completes : Ledger → OutPoint → Prop} {env : Env} {c c' : Contract}
  {inflight : Multiset Promise} {log : List Mark} {receipt : Receipt}

/-! ### Verifying inclusion -/

theorem internalVerifyWithdrawEntry_simulates {method : Method} {txId : Txid}
    (hkeyed : c.Keyed host) (hbrings : method.brings = none)
    (h : c.internalVerifyWithdrawEntry env txId = some receipt) :
    Simulates host Completes (.call env method) c inflight log receipt := by
  simp only [Contract.internalVerifyWithdrawEntry, Contract.internalUnwrapBtcPendingInfo,
    BTCPendingInfo.assertWithdrawRelatedPendingVerifyTx, Option.bind_eq_bind,
    Option.bind_eq_some_iff, require_eq_some, Option.some.injEq, exists_and_left,
    exists_const] at h
  obtain ⟨info, hinfo, _, ⟨hkind, _⟩, _, _, _, _, rfl⟩ := h
  exact simulates_issue hkeyed ⟨info, hinfo, hkind⟩ hbrings

theorem internalVerifyActiveUtxoManagementEntry_simulates {method : Method} {txId : Txid}
    (hkeyed : c.Keyed host) (hbrings : method.brings = none)
    (h : c.internalVerifyActiveUtxoManagementEntry env txId = some receipt) :
    Simulates host Completes (.call env method) c inflight log receipt := by
  simp only [Contract.internalVerifyActiveUtxoManagementEntry,
    Contract.internalUnwrapBtcPendingInfo,
    BTCPendingInfo.assertActiveUtxoManagementRelatedPendingVerifyTx, Option.bind_eq_bind,
    Option.bind_eq_some_iff, require_eq_some, Option.some.injEq, exists_and_left,
    exists_const] at h
  obtain ⟨info, hinfo, _, ⟨hkind, _⟩, _, _, _, _, rfl⟩ := h
  exact simulates_issue hkeyed ⟨info, hinfo, hkind⟩ hbrings

theorem verifyWithdrawV2_simulates {txId : Txid} (hkeyed : c.Keyed host)
    (h : c.verifyWithdrawV2 env txId = some receipt) :
    Simulates host Completes (.call env (.verifyWithdrawV2 txId)) c inflight log receipt := by
  simp only [Contract.verifyWithdrawV2, Option.bind_eq_bind, Option.bind_eq_some_iff] at h
  obtain ⟨_, _, _, _, info, _, h⟩ := h
  split at h
  · exact internalVerifyWithdrawEntry_simulates hkeyed rfl h
  · split at h
    · exact internalVerifyActiveUtxoManagementEntry_simulates hkeyed rfl h
    · simp only [Contract.internalVerifyRefundFinalizeEntry, Option.bind_eq_bind,
        Option.bind_eq_some_iff, Option.some.injEq] at h
      obtain ⟨_, _, _, _, _, _, confirmations, _, rfl⟩ := h
      exact simulates_issue hkeyed trivial rfl

theorem moveToBurnStage_spec {result : PromiseResult} {txId : Txid} {info' : BTCPendingInfo}
    (h : c.moveToBurnStage result txId = some (c', info')) :
    ∃ info, c.btcPendingInfos.lookup txId = some info ∧
      info.state.stage = .pendingVerify ∧ info.state.isRefund = false ∧
      info' = { info with state := info.state.setStage .pendingBurn } ∧
      c' = { c with btcPendingInfos := c.btcPendingInfos.insert txId info' } := by
  simp only [Contract.moveToBurnStage, Contract.internalUnwrapBtcPendingInfo,
    BTCPendingInfo.assertPendingVerify, BTCPendingInfo.toPendingBurnStage,
    Contract.internalSetBtcPendingInfo, Option.bind_eq_bind, Option.bind_eq_some_iff,
    require_eq_some, Option.some.injEq, exists_and_left, exists_const, Prod.mk.injEq] at h
  obtain ⟨_, _, _, info, hinfo, hstage, info₁, ⟨hrefund, rfl⟩, rfl, rfl⟩ := h
  exact ⟨info, hinfo, hstage, Bool.eq_false_of_not_eq_true hrefund, rfl, rfl⟩

theorem root_setStage (info : BTCPendingInfo) (stage : PendingInfoStage) (txId : Txid) :
    BTCPendingInfo.root { info with state := info.state.setStage stage } txId = info.root txId := by
  simp only [BTCPendingInfo.root, BTCPendingInfo.getOriginalTxId,
    PendingInfoState.originalTxId_setStage]

theorem internalVerifyWithdrawCallback_simulates {result : PromiseResult} {txId : Txid}
    {confirmations : ℕ} (hkeyed : c.Keyed host)
    (h : c.internalVerifyWithdrawCallback env result txId = some receipt) :
    Simulates host Completes (.answer env (.verifyWithdraw txId confirmations) result) c inflight
      log receipt := by
  simp only [Contract.internalVerifyWithdrawCallback, Option.bind_eq_bind, Option.bind_eq_some_iff,
    Option.some.injEq, Prod.exists] at h
  obtain ⟨c₁, info', hmove, burn, hburn, rfl⟩ := h
  obtain ⟨info, hinfo, hstage, hrefund, rfl, rfl⟩ := moveToBurnStage_spec hmove
  simp only [Contract.verifyWithdrawBurnPromise, Contract.internalUnwrapBtcPendingInfo,
    AList.lookup_insert, Option.bind_eq_bind, Option.bind_some, Option.bind_eq_some_iff,
    Option.some.injEq, Prod.exists] at hburn
  obtain ⟨protocolFee, relayerFee, hfees, rfl⟩ := hburn
  have hattest := @Effect.attest host Completes
    (c.ledger inflight log) env (.verifyWithdraw txId confirmations) _ result txId true info
    rfl hinfo hstage hrefund
    (.withdraw env.signer relayerFee protocolFee (BridgeFee.getProtocolAndRelayerFee_spec hfees))
  refine ⟨hattest.of_eq ?_, hkeyed⟩
  simp only [root_setStage]
  rfl

theorem verifyActiveUtxoManagementCallback_simulates {result : PromiseResult} {txId : Txid}
    {confirmations : ℕ} (hkeyed : c.Keyed host)
    (h : c.verifyActiveUtxoManagementCallback env result txId = some receipt) :
    Simulates host Completes (.answer env (.verifyActiveUtxoManagement txId confirmations) result)
      c inflight log receipt := by
  simp only [Contract.verifyActiveUtxoManagementCallback, Option.bind_eq_bind,
    Option.bind_eq_some_iff, Option.some.injEq, Prod.exists] at h
  obtain ⟨c₁, info', hmove, burn, hburn, rfl⟩ := h
  obtain ⟨info, hinfo, hstage, hrefund, rfl, rfl⟩ := moveToBurnStage_spec hmove
  simp only [Contract.verifyActiveUtxoManagementBurnPromise,
    Contract.internalUnwrapBtcPendingInfo, AList.lookup_insert, Option.bind_eq_bind,
    Option.bind_some, Option.some.injEq] at hburn
  subst hburn
  have hattest := @Effect.attest host Completes
    (c.ledger inflight log) env (.verifyActiveUtxoManagement txId confirmations) _ result
    txId false info rfl hinfo hstage hrefund (.active env.signer)
  refine ⟨hattest.of_eq ?_, hkeyed⟩
  simp only [root_setStage]
  rfl

/-! ### Burn callbacks -/

/-- The outputs that pay the change script become coins. -/
theorem registerChange_inv {info : BTCPendingInfo} {txId : Txid} {utxos : List (OutPoint × UTXO)}
    (h : c.registerChange host info txId = some (c', utxos)) :
    ∃ tx change, info.getTransaction = some tx ∧
      c.config.getChangeScriptPubkey host = some change ∧
      utxos = Contract.changeUtxos host change txId tx.output ∧
      c' = { c with utxos := FiniteMap.insertAll c.utxos utxos } := by
  simp only [Contract.registerChange, Option.bind_eq_bind, Option.bind_eq_some_iff,
    Option.some.injEq, Prod.mk.injEq] at h
  obtain ⟨tx, htx, change, hchange, rfl, rfl⟩ := h
  exact ⟨tx, change, htx, hchange, rfl, rfl⟩

theorem registerChange_spec {info : BTCPendingInfo} {txId : Txid}
    {utxos : List (OutPoint × UTXO)} (laws : host.ReadsAddresses) (hkeyed : c.Keyed host)
    (h : c.registerChange host info txId = some (c', utxos)) :
    ∃ tx, info.getTransaction = some tx ∧ c.config.changeAddress.isSome = true ∧
      utxos = Contract.changeUtxos host (host.changeScript c.config.chain) txId tx.output ∧
      c' = { c with utxos := FiniteMap.insertAll c.utxos utxos } := by
  obtain ⟨tx, change, htx, hchange, rfl, rfl⟩ := registerChange_inv h
  obtain ⟨rfl, hready⟩ := hkeyed.getChangeScriptPubkey laws hchange
  exact ⟨tx, htx, hready, rfl, rfl⟩

theorem releaseReserved_spec {reserved used : ℕ} (h : c.releaseReserved reserved used = some c') :
    ∃ fees, Fees.Releases reserved used c.fees fees ∧
      c' = { c with
        accCollectedProtocolFee := fees.collected
        curAvailableProtocolFee := fees.available
        accClaimedProtocolFee := fees.claimed
        curReservedProtocolFee := fees.reserved
        accProtocolFeeForGas := fees.forGas } := by
  simp only [Contract.releaseReserved, Option.bind_eq_bind, Option.bind_eq_some_iff,
    checkedSub_eq_some, Option.some.injEq] at h
  obtain ⟨curReserved, hreserved, unused, hunused, rfl⟩ := h
  refine ⟨⟨c.accCollectedProtocolFee, c.curAvailableProtocolFee + unused,
    c.accClaimedProtocolFee, curReserved, c.accProtocolFeeForGas + used⟩,
    ⟨rfl, ?_, rfl, hreserved, rfl, ?_⟩, rfl⟩
  · simp only [Contract.fees]
    omega
  · omega

/-- What the settlement of a family does: the original is gone, its reservation is released and
one account is rewritten. -/
structure Settles (c : Contract) (info : BTCPendingInfo) (txId : Txid)
    (reserved used : OriginalState → ℕ) (c' : Contract) : Prop where
  settles : ∃ o s fees rbfTxs accounts rest,
    c.btcPendingInfos.lookup (info.root txId) = some o ∧ o.state.originalState = some s ∧
    Fees.Releases (reserved s) (used s) c.fees fees ∧
    {a | a ∈ accounts} = {a | a ∈ c.accounts} ∧
    (rest : FiniteMap Txid BTCPendingInfo).erase txId
      = (c.btcPendingInfos.erase (info.root txId)).erase txId ∧
    c' = { c with
      rbfTxs := rbfTxs
      accounts := accounts
      btcPendingInfos := rest
      accCollectedProtocolFee := fees.collected
      curAvailableProtocolFee := fees.available
      accClaimedProtocolFee := fees.claimed
      curReservedProtocolFee := fees.reserved
      accProtocolFeeForGas := fees.forGas }

/-- A withdrawal releases what its original reserved for a cancellation. -/
theorem releaseIfPositive {reserved : ℕ} (info : BTCPendingInfo) (used : Option ℕ)
    (hused : ∀ n ∈ used, 0 < reserved → n = withdrawUsage info reserved)
    (h : (if 0 < reserved then used.bind fun n ↦ c.releaseReserved reserved n else some c)
      = some c') :
    ∃ fees, Fees.Releases reserved (withdrawUsage info reserved) c.fees fees ∧
      c' = { c with
        accCollectedProtocolFee := fees.collected
        curAvailableProtocolFee := fees.available
        accClaimedProtocolFee := fees.claimed
        curReservedProtocolFee := fees.reserved
        accProtocolFeeForGas := fees.forGas } := by
  split at h
  · rename_i hpos
    rw [Option.bind_eq_some_iff] at h
    obtain ⟨n, hn, h⟩ := h
    rw [← hused n hn hpos]
    exact releaseReserved_spec h
  · rename_i hzero
    have hreserved : reserved = 0 := Nat.eq_zero_of_not_pos hzero
    subst hreserved
    rw [Option.some.injEq] at h
    subst h
    exact ⟨c.fees, Fees.Releases.refl c.fees, rfl⟩

theorem usedReserved_spec {info : BTCPendingInfo} {n reserved : ℕ}
    (h : Contract.usedReserved info = some n) (hpos : 0 < reserved) :
    n = withdrawUsage info reserved := by
  unfold Contract.usedReserved at h
  unfold withdrawUsage
  split at h
  · rename_i hcancel
    simp only [Option.bind_eq_bind, Option.bind_eq_some_iff, checkedSub_eq_some,
      Option.some.injEq] at h
    obtain ⟨balance, hbalance, rfl⟩ := h
    rw [if_pos ⟨hpos, hcancel⟩]
    omega
  · rename_i hcancel
    rw [if_neg fun hboth ↦ hcancel hboth.2]
    exact (Option.some.inj h).symm

theorem settleWithdraw_spec {info : BTCPendingInfo} {txId : Txid}
    (h : c.settleWithdraw info txId = some c')
    (hinfo : c.btcPendingInfos.lookup txId = some info) :
    Settles c info txId (fun s ↦ s.cancelRbfReserved.getD 0)
      (fun s ↦ withdrawUsage info (s.cancelRbfReserved.getD 0)) c' := by
  unfold Contract.settleWithdraw at h
  split at h
  · rename_i originalTxId horiginal
    have hroot : info.root txId = originalTxId := by
      rw [BTCPendingInfo.root, horiginal, Option.getD_some]
    simp only [Contract.removeFromVerifyList, BTCPendingInfo.getCancelRbfReserved,
      Option.bind_eq_bind, Option.bind_eq_some_iff, Option.some.injEq, Prod.exists] at h
    obtain ⟨c₁, hmut, c₂, o, hremove, _, ⟨s, hs, rfl⟩, h⟩ := h
    obtain ⟨_, accounts, rfl, hsame⟩ := internalUnwrapMutAccount_spec hmut
    obtain ⟨ho, rfl⟩ := internalRemoveBtcPendingInfo_spec hremove
    obtain ⟨fees, hfees, rfl⟩ := releaseIfPositive info _
      (fun n hn hpos ↦ usedReserved_spec hn hpos) h
    exact ⟨o, s, fees, _, accounts, _, hroot ▸ ho, hs, hfees, hsame, by rw [hroot], rfl⟩
  · rename_i horiginal
    have hroot : info.root txId = txId := by
      rw [BTCPendingInfo.root, horiginal, Option.getD_none]
    simp only [Contract.removeFromVerifyList, BTCPendingInfo.getCancelRbfReserved,
      Option.bind_eq_bind, Option.bind_eq_some_iff, Option.some.injEq] at h
    obtain ⟨c₁, hmut, _, ⟨s, hs, rfl⟩, h⟩ := h
    obtain ⟨_, accounts, rfl, hsame⟩ := internalUnwrapMutAccount_spec hmut
    have hcancel : info.state.isWithdrawCancelRbf = false := by
      cases hstate : info.state <;> rw [hstate] at hs <;> cases hs <;> rfl
    obtain ⟨fees, hfees, rfl⟩ := releaseIfPositive info (some 0) (by
      intro n hn _
      rw [withdrawUsage, if_neg fun hboth ↦ by rw [hcancel] at hboth; cases hboth.2]
      exact (Option.some.inj hn).symm) h
    refine ⟨info, s, fees, _, accounts, c.btcPendingInfos,
      (congrArg c.btcPendingInfos.lookup hroot).trans hinfo, hs, hfees, hsame, ?_, rfl⟩
    rw [hroot, FiniteMap.erase_erase_self]

theorem settleActiveUtxoManagement_spec {info : BTCPendingInfo} {txId : Txid}
    (h : c.settleActiveUtxoManagement info txId = some c')
    (hinfo : c.btcPendingInfos.lookup txId = some info) :
    Settles c info txId OriginalState.maxGasFee (fun _ ↦ info.burnAmount) c' := by
  unfold Contract.settleActiveUtxoManagement at h
  split at h
  · rename_i originalTxId horiginal
    have hroot : info.root txId = originalTxId := by
      rw [BTCPendingInfo.root, horiginal, Option.getD_some]
    simp only [Contract.removeFromVerifyList, BTCPendingInfo.getMaxGasFee,
      Option.bind_eq_bind, Option.bind_eq_some_iff, Option.some.injEq, Prod.exists] at h
    obtain ⟨c₁, hmut, c₂, o, hremove, _, ⟨s, hs, rfl⟩, h⟩ := h
    obtain ⟨_, accounts, rfl, hsame⟩ := internalUnwrapMutAccount_spec hmut
    obtain ⟨ho, rfl⟩ := internalRemoveBtcPendingInfo_spec hremove
    obtain ⟨fees, hfees, rfl⟩ := releaseReserved_spec h
    exact ⟨o, s, fees, _, accounts, _, hroot ▸ ho, hs, hfees, hsame, by rw [hroot], rfl⟩
  · rename_i horiginal
    have hroot : info.root txId = txId := by
      rw [BTCPendingInfo.root, horiginal, Option.getD_none]
    simp only [Contract.removeFromVerifyList, BTCPendingInfo.getMaxGasFee,
      Option.bind_eq_bind, Option.bind_eq_some_iff, Option.some.injEq] at h
    obtain ⟨c₁, hmut, _, ⟨s, hs, rfl⟩, c₂, hrelease, rfl⟩ := h
    obtain ⟨_, accounts, rfl, hsame⟩ := internalUnwrapMutAccount_spec hmut
    obtain ⟨fees, hfees, rfl⟩ := releaseReserved_spec hrelease
    refine ⟨info, s, fees, _, accounts, c.btcPendingInfos,
      (congrArg c.btcPendingInfos.lookup hroot).trans hinfo, hs, hfees, hsame, ?_, rfl⟩
    rw [hroot, FiniteMap.erase_erase_self]

/-- Removing the confirmed transaction itself after its family was settled. -/
theorem removed_after_settling {info removed : BTCPendingInfo} {txId : Txid}
    {rest : FiniteMap Txid BTCPendingInfo} {c₁ c₂ : Contract}
    (hrest : rest.erase txId = (c.btcPendingInfos.erase (info.root txId)).erase txId)
    (hc₁ : c₁.btcPendingInfos = rest)
    (h : c₁.internalRemoveBtcPendingInfo txId = some (c₂, removed)) :
    c₂ = { c₁ with
      btcPendingInfos := (c.btcPendingInfos.erase (info.root txId)).erase txId } := by
  obtain ⟨_, rfl⟩ := internalRemoveBtcPendingInfo_spec h
  rw [hc₁, hrest]

/-- A failed burn takes the transaction back to the verify stage. -/
theorem burnFailed_simulates {p : Promise} {result : PromiseResult} {txId : Txid}
    {info : BTCPendingInfo} (hkeyed : c.Keyed host) (hburns : p.burns = some txId)
    (hfailed : ¬result.isSuccess = true) (hinfo : c.btcPendingInfos.lookup txId = some info) :
    Simulates host Completes (.answer env p result) c inflight log (c.burnFailed info txId) :=
  .silent (Effect.burnFailed (l := c.ledger inflight log) env p result txId info hburns
    (Bool.eq_false_of_not_eq_true hfailed) hinfo) hkeyed

/-- What the callback of a withdrawal's burn does: after a success it registers the change, settles
the family, collects the fee and removes the transaction last; otherwise it moves the transaction
back. -/
inductive Contract.WithdrawBurnAnswered (host : Host) (c : Contract) (result : PromiseResult)
    (txId : Txid) (protocolFee : ℕ) : Receipt → Prop
  | burnt (c₁ c₂ c₃ : Contract) (info removed : BTCPendingInfo) (utxos : List (OutPoint × UTXO))
      (hsuccess : result.isSuccess = true) (hinfo : c.btcPendingInfos.lookup txId = some info)
      (hassert : Contract.assertCancelRefund info = some ())
      (hregister : c.registerChange host info txId = some (c₁, utxos))
      (hsettle : c₁.settleWithdraw info txId = some c₂)
      (hroom : 0 < protocolFee → c₂.fees.HasRoom protocolFee)
      (hremove : (c₂.collected protocolFee).internalRemoveBtcPendingInfo txId
        = some (c₃, removed)) :
      WithdrawBurnAnswered host c result txId protocolFee
        { contract := c₃
          promises := if 0 < Contract.cancelRefund info then
              [.transferNbtc (c₂.collected protocolFee).config.nbtcAccountId info.accountId
                (Contract.cancelRefund info)]
            else []
          marks := [.utxoAdded (utxos.map Prod.fst), .committed txId (info.root txId)]
          returns := some (.bool true) }
  | failed (info : BTCPendingInfo) (hfailed : ¬result.isSuccess = true)
      (hinfo : c.btcPendingInfos.lookup txId = some info) :
      WithdrawBurnAnswered host c result txId protocolFee (c.burnFailed info txId)

theorem verifyWithdrawBurnCallback_inv {result : PromiseResult} {txId : Txid} {protocolFee : ℕ}
    (h : c.verifyWithdrawBurnCallback host result txId protocolFee = some receipt) :
    c.WithdrawBurnAnswered host result txId protocolFee receipt := by
  simp only [Contract.verifyWithdrawBurnCallback, Contract.internalUnwrapBtcPendingInfo,
    Option.bind_eq_bind, Option.bind_eq_some_iff] at h
  obtain ⟨info, hinfo, ⟨⟩, hassert, h⟩ := h
  split at h
  · rename_i hsuccess
    simp only [Option.bind_eq_some_iff, collectIfPositive_eq_some, Option.some.injEq,
      Prod.exists] at h
    obtain ⟨c₁, utxos, hregister, c₂, hsettle, _, ⟨hroom, rfl⟩, c₃, removed, hremove, rfl⟩ := h
    exact .burnt c₁ c₂ c₃ info removed utxos hsuccess hinfo hassert hregister hsettle hroom hremove
  · rename_i hfailed
    cases h
    exact .failed info hfailed hinfo

/-- The callback of active management does the same without a fee. -/
inductive Contract.ActiveBurnAnswered (host : Host) (c : Contract) (result : PromiseResult)
    (txId : Txid) : Receipt → Prop
  | burnt (c₁ c₂ c₃ : Contract) (info removed : BTCPendingInfo) (utxos : List (OutPoint × UTXO))
      (hsuccess : result.isSuccess = true) (hinfo : c.btcPendingInfos.lookup txId = some info)
      (hregister : c.registerChange host info txId = some (c₁, utxos))
      (hsettle : c₁.settleActiveUtxoManagement info txId = some c₂)
      (hremove : c₂.internalRemoveBtcPendingInfo txId = some (c₃, removed)) :
      ActiveBurnAnswered host c result txId
        { contract := c₃
          promises := []
          marks := [.utxoAdded (utxos.map Prod.fst), .committed txId (info.root txId)]
          returns := some (.bool true) }
  | failed (info : BTCPendingInfo) (hfailed : ¬result.isSuccess = true)
      (hinfo : c.btcPendingInfos.lookup txId = some info) :
      ActiveBurnAnswered host c result txId (c.burnFailed info txId)

theorem verifyActiveUtxoManagementBurnCallback_inv {result : PromiseResult} {txId : Txid}
    (h : c.verifyActiveUtxoManagementBurnCallback host result txId = some receipt) :
    c.ActiveBurnAnswered host result txId receipt := by
  simp only [Contract.verifyActiveUtxoManagementBurnCallback,
    Contract.internalUnwrapBtcPendingInfo, Option.bind_eq_bind, Option.bind_eq_some_iff] at h
  obtain ⟨info, hinfo, h⟩ := h
  split at h
  · rename_i hsuccess
    simp only [Option.bind_eq_some_iff, Option.some.injEq, Prod.exists] at h
    obtain ⟨c₁, utxos, hregister, c₂, hsettle, c₃, removed, hremove, rfl⟩ := h
    exact .burnt c₁ c₂ c₃ info removed utxos hsuccess hinfo hregister hsettle hremove
  · rename_i hfailed
    cases h
    exact .failed info hfailed hinfo

theorem verifyWithdrawBurnCallback_simulates {result : PromiseResult} {txId : Txid}
    {token account relayer : AccountId} {amount relayerFee protocolFee : ℕ}
    (laws : host.ReadsAddresses) (hkeyed : c.Keyed host)
    (h : c.verifyWithdrawBurnCallback host result txId protocolFee = some receipt) :
    Simulates host Completes
      (.answer env (.withdrawBurn token account amount relayer relayerFee txId protocolFee) result)
      c inflight log receipt := by
  cases verifyWithdrawBurnCallback_inv h with
  | burnt _ _ _ info _ utxos hsuccess hinfo _ hregister hsettle hroom hremove =>
    obtain ⟨tx, htx, hready, rfl, rfl⟩ := registerChange_spec laws hkeyed hregister
    obtain ⟨o, s, fees, rbfTxs, accounts, rest, ho, hs, hfees, hsame, hrest, rfl⟩ :=
      (settleWithdraw_spec hsettle hinfo).settles
    obtain rfl := removed_after_settling (c := c) hrest rfl hremove
    have hcommit := @Effect.commitWithdraw host Completes
      (c.ledger inflight log) env token account relayer amount relayerFee txId protocolFee
      result info o tx s fees hsuccess ⟨hinfo, ho, htx, hready⟩ hs hfees hroom
    refine ⟨hcommit.of_eq ?_, hkeyed⟩
    simp only [Contract.ledger, Contract.collected, hsame, refundTransfer]
    by_cases hrefund : 0 < Contract.cancelRefund info
    · rw [if_pos hrefund, if_pos hrefund]
      rfl
    · rw [if_neg hrefund, if_neg hrefund]
      rfl
  | failed info hfailed hinfo => exact burnFailed_simulates hkeyed rfl hfailed hinfo

theorem verifyActiveUtxoManagementBurnCallback_simulates {result : PromiseResult} {txId : Txid}
    {token account relayer : AccountId} {amount : ℕ} (laws : host.ReadsAddresses)
    (hkeyed : c.Keyed host)
    (h : c.verifyActiveUtxoManagementBurnCallback host result txId = some receipt) :
    Simulates host Completes
      (.answer env (.activeUtxoManagementBurn token account amount relayer txId) result)
      c inflight log receipt := by
  cases verifyActiveUtxoManagementBurnCallback_inv h with
  | burnt _ _ _ info _ utxos hsuccess hinfo hregister hsettle hremove =>
    obtain ⟨tx, htx, hready, rfl, rfl⟩ := registerChange_spec laws hkeyed hregister
    obtain ⟨o, s, fees, rbfTxs, accounts, rest, ho, hs, hfees, hsame, hrest, rfl⟩ :=
      (settleActiveUtxoManagement_spec hsettle hinfo).settles
    obtain rfl := removed_after_settling (c := c) hrest rfl hremove
    have hcommit := @Effect.commitActive host Completes
      (c.ledger inflight log) env token account relayer amount txId result info o tx s fees
      hsuccess ⟨hinfo, ho, htx, hready⟩ hs hfees
    refine .marking (hcommit.of_eq ?_) hkeyed
    simp only [Contract.ledger, hsame]
    rfl
  | failed info hfailed hinfo => exact burnFailed_simulates hkeyed rfl hfailed hinfo

/-! ### Transfers of the bridge's own tokens -/

theorem transferNbtcCallback_simulates {token account : AccountId} {amount : ℕ}
    {result : PromiseResult} (hkeyed : c.Keyed host)
    (h : c.transferNbtcCallback result account amount = some receipt) :
    Simulates host Completes (.answer env (.transferNbtc token account amount) result) c inflight
      log receipt := by
  unfold Contract.transferNbtcCallback at h
  split at h
  · rename_i hsuccess
    rw [Option.some.injEq] at h
    subst h
    exact simulates_ignore hkeyed hsuccess
  · rename_i hfailure
    rw [Option.some.injEq] at h
    subst h
    exact .silent (Effect.transferFailed (l := c.ledger inflight log) env token account amount
      result (Bool.eq_false_of_not_eq_true hfailure)) hkeyed

theorem withdrawProtocolFeeCallback_simulates {token receiver : AccountId} {amount : ℕ}
    {result : PromiseResult} (hkeyed : c.Keyed host)
    (h : c.withdrawProtocolFeeCallback result amount = some receipt) :
    Simulates host Completes (.answer env (.withdrawProtocolFee token receiver amount) result) c
      inflight log receipt := by
  unfold Contract.withdrawProtocolFeeCallback at h
  split at h
  · rename_i hsuccess
    rw [Option.some.injEq] at h
    subst h
    exact simulates_ignore hkeyed hsuccess
  · rename_i hfailure
    simp only [Option.bind_eq_bind, Option.bind_eq_some_iff, checkedSub_eq_some,
      Option.some.injEq] at h
    obtain ⟨claimed, hclaimed, rfl⟩ := h
    exact .silent (Effect.feeFailed (l := c.ledger inflight log) env token receiver amount claimed
      result (Bool.eq_false_of_not_eq_true hfailure) hclaimed) hkeyed

theorem claimLostFound_simulates (hkeyed : c.Keyed host)
    (h : c.claimLostFound env = some receipt) :
    Simulates host Completes (.call env .claimLostFound) c inflight log receipt := by
  simp only [Contract.claimLostFound, Option.bind_eq_bind, Option.bind_eq_some_iff,
    Option.some.injEq] at h
  obtain ⟨_, _, _, _, amount, hamount, rfl⟩ := h
  exact .sending (Effect.claim (l := c.ledger inflight log) env _ amount rfl hamount) hkeyed

theorem withdrawProtocolFee_simulates {amount : Option ℕ} (hkeyed : c.Keyed host)
    (h : c.withdrawProtocolFee env amount = some receipt) :
    Simulates host Completes (.call env (.withdrawProtocolFee amount)) c inflight log
      receipt := by
  simp only [Contract.withdrawProtocolFee, Option.bind_eq_bind, Option.bind_eq_some_iff,
    require_eq_some, Option.some.injEq, exists_and_left, exists_const] at h
  obtain ⟨_, _, _, ⟨_, hle⟩, rfl⟩ := h
  exact .sending (Effect.withdrawFee (l := c.ledger inflight log) env _ _ rfl hle) hkeyed

/-! ### Signatures -/

theorem signBtcTransaction_simulates {id : Txid} {signIndex keyVersion : ℕ}
    (hkeyed : c.Keyed host)
    (h : c.signBtcTransaction host env id signIndex keyVersion = some receipt) :
    Simulates host Completes (.call env (.signBtcTransaction id signIndex keyVersion)) c inflight
      log receipt := by
  simp only [Contract.signBtcTransaction, Contract.internalUnwrapBtcPendingInfo,
    BTCPendingInfo.assertPendingSign, Option.bind_eq_bind, Option.bind_eq_some_iff,
    require_eq_some, exists_and_left, exists_const] at h
  obtain ⟨_, _, info, hinfo, _, hstage, h⟩ := h
  split at h
  · rename_i horphan
    obtain ⟨originalTxId, horiginal, _⟩ := horphan
    simp only [Option.bind_eq_some_iff, require_eq_some, Option.some.injEq, exists_and_left,
      exists_const, Prod.exists] at h
    obtain ⟨account, _, _, c₁, hmut, c₂, removed, hremove, rfl⟩ := h
    obtain ⟨_, accounts, rfl, hsame⟩ := internalUnwrapMutAccount_spec hmut
    obtain ⟨_, rfl⟩ := internalRemoveBtcPendingInfo_spec hremove
    have hdroppable : Droppable info := by
      refine Or.inl ⟨?_, ?_⟩
      · rw [BTCPendingInfo.getOriginalTxId] at horiginal
        rw [Option.mem_def.mp horiginal]
        exact Option.some_ne_none _
      · intro hburn
        rw [hstage] at hburn
        cases hburn
    exact (Discards.single hinfo hdroppable hsame).simulates hkeyed rfl
  · simp only [Contract.internalSignBtcTransaction, Option.bind_eq_bind,
      Option.bind_eq_some_iff, Option.some.injEq] at h
    obtain ⟨_, _, _, _, _, _, payload, _, vutxo, _, rfl⟩ := h
    exact simulates_issue hkeyed trivial rfl

/-- One signature more: the transaction is the same, and it is complete when none is missing. -/
theorem signedPendingInfo_spec {info info' : BTCPendingInfo} {signIndex nowSec : ℕ}
    {signature : SignatureResponse} {scriptSig : ScriptSig}
    (hmissing : info.signatures[signIndex]? = some none)
    (h : Contract.signedPendingInfo host info signIndex signature scriptSig nowSec
      = some info') :
    Signs host info info' := by
  simp only [Contract.signedPendingInfo, Option.bind_eq_bind, Option.bind_eq_some_iff] at h
  obtain ⟨psbt, hpsbt, h⟩ := h
  obtain ⟨htx, hinputs, hcoins, hvout, horchard, hrecipient⟩ :=
    PsbtWrapper.saveSignature_spec host hpsbt
  have hnone : ∃ s ∈ info.signatures, s = none := ⟨none, List.mem_of_getElem? hmissing, rfl⟩
  split at h
  · rename_i hall
    simp only [PsbtWrapper.extractTxBytesWithSign, Option.bind_eq_bind, Option.bind_eq_some_iff,
      require_eq_some, Option.some.injEq, exists_and_left, exists_const] at h
    obtain ⟨signed, ⟨_, rfl⟩, rfl⟩ := h
    refine ⟨hnone, htx, hinputs, hcoins, hvout, horchard, hrecipient, List.length_set,
      psbt, _, nowSec, Or.inr ⟨?_, _, htx, rfl⟩⟩
    intro s hs hsnone
    have hsome := List.all_eq_true.mp hall s hs
    rw [hsnone] at hsome
    cases hsome
  · rename_i hsome
    rw [Option.some.injEq] at h
    subst h
    refine ⟨hnone, htx, hinputs, hcoins, hvout, horchard, hrecipient, List.length_set,
      psbt, _, nowSec, Or.inl ⟨?_, rfl⟩⟩
    rw [BTCPendingInfo.isAllSigned, List.all_eq_true] at hsome
    push Not at hsome
    obtain ⟨s, hs, hsnone⟩ := hsome
    exact ⟨s, hs, Option.not_isSome_iff_eq_none.mp hsnone⟩

theorem signBtcTransactionCallback_simulates {result : PromiseResult} {accountId : AccountId}
    {id : Txid} {signIndex keyVersion : ℕ} {payload : List UInt8} {path : Path}
    (hkeyed : c.Keyed host)
    (h : c.signBtcTransactionCallback host env result accountId id signIndex = some receipt) :
    Simulates host Completes
      (.answer env (.sign accountId id signIndex payload path keyVersion) result) c inflight log
      receipt := by
  unfold Contract.signBtcTransactionCallback at h
  split at h
  · rw [Option.some.injEq] at h
    subst h
    exact simulates_ignore hkeyed trivial
  · rename_i signature
    simp only [Contract.internalUnwrapBtcPendingInfo, Option.bind_eq_bind,
      Option.bind_eq_some_iff, require_eq_some, exists_and_left, exists_const] at h
    obtain ⟨info, hinfo, vutxo, _, _, _, previous, hprevious, rfl, nowSec, _, scriptSig, _, info',
      hsigned, h⟩ := h
    have hsigns := signedPendingInfo_spec hprevious hsigned
    have hsign := @Effect.sign host Completes (c.ledger inflight log)
      env accountId id signIndex payload path keyVersion (.value (.signature signature)) info info'
      hinfo hsigns
    split at h
    · simp only [Option.bind_eq_some_iff, Option.some.injEq] at h
      obtain ⟨account, _, _, _, c₁, hmut, rfl⟩ := h
      obtain ⟨_, accounts, rfl, hsame⟩ := internalUnwrapMutAccount_spec hmut
      refine .silent (hsign.of_eq ?_) hkeyed
      simp only [Contract.ledger, Contract.internalSetBtcPendingInfo, hsame]
      rfl
    · rw [Option.bind_some, Option.some.injEq] at h
      subst h
      exact .silent hsign hkeyed
  · cases h

/-! ### The root public key -/

theorem syncChainSignaturesRootPublicKey_simulates (hkeyed : c.Keyed host)
    (h : c.syncChainSignaturesRootPublicKey env = some receipt) :
    Simulates host Completes (.call env .syncChainSignaturesRootPublicKey) c inflight log
      receipt := by
  simp only [Contract.syncChainSignaturesRootPublicKey, Option.bind_eq_bind,
    Option.bind_eq_some_iff, Option.some.injEq] at h
  obtain ⟨_, _, _, _, _, _, rfl⟩ := h
  exact simulates_issue hkeyed trivial rfl

theorem syncRootPublicKeyCallback_simulates {result : PromiseResult} (hkeyed : c.Keyed host)
    (hanswers : Promise.syncRootPublicKey.Answers host result)
    (h : c.syncRootPublicKeyCallback host result = some receipt) :
    Simulates host Completes (.answer env .syncRootPublicKey result) c inflight log receipt := by
  unfold Contract.syncRootPublicKeyCallback at h
  split at h
  · rw [Option.some.injEq] at h
    subst h
    exact simulates_ignore hkeyed trivial
  · rename_i key
    rw [Option.some.injEq] at h
    subst h
    refine .silent (Effect.setKey (l := c.ledger inflight log) env _) (Or.inr ?_)
    rw [hanswers rfl key rfl]
    exact ⟨rfl, rfl⟩
  · cases h

end SatoshiBridge
