import SatoshiBridge.Ledger.SpendEffects

/-!
# The effects of replacements

The four replacement methods differ in the kind of their original, in their checks and in what they
reserve; each is the same step of the ledger. The methods that drop replacements and orphans take
pending transactions out and nothing else.
-/

set_option autoImplicit false
set_option relaxedAutoImplicit false

namespace SatoshiBridge

variable {host : Host} {Completes : Ledger → OutPoint → Prop} {env : Env} {c c' : Contract}
  {inflight : Multiset Promise} {log : List Mark} {receipt : Receipt}

/-! ### The state of the original -/

theorem assertWithdrawOriginalPendingVerifyTx_spec {info : BTCPendingInfo}
    (h : info.assertWithdrawOriginalPendingVerifyTx = some ()) :
    ∃ s, info.state = .withdrawOriginal s ∧ s.stage = .pendingVerify := by
  unfold BTCPendingInfo.assertWithdrawOriginalPendingVerifyTx at h
  split at h
  · rename_i s hstate
    exact ⟨s, hstate, require_eq_some.mp h⟩
  · cases h

theorem assertActiveUtxoManagementOriginalPendingVerifyTx_spec {info : BTCPendingInfo}
    (h : info.assertActiveUtxoManagementOriginalPendingVerifyTx = some ()) :
    ∃ s, info.state = .activeUtxoManagementOriginal s ∧ s.stage = .pendingVerify := by
  unfold BTCPendingInfo.assertActiveUtxoManagementOriginalPendingVerifyTx at h
  split at h
  · rename_i s hstate
    exact ⟨s, hstate, require_eq_some.mp h⟩
  · cases h

theorem ReplacementKind.stages {id : Txid} {old new : PendingInfoState} {s : OriginalState}
    (h : ReplacementKind id old new) (hs : old.originalState = some s) :
    new.stage = .pendingSign ∧ old.stage = s.stage := by
  cases h <;> cases hs <;> exact ⟨rfl, rfl⟩

theorem PendingInfoState.originalState_setOriginalState {state : PendingInfoState}
    {s : OriginalState} (hs : state.originalState = some s) (s' : OriginalState) :
    (state.setOriginalState s').originalState = some s' := by
  cases state <;> cases hs <;> rfl

theorem BTCPendingInfo.getMaxGasFee_eq {info : BTCPendingInfo} {s : OriginalState}
    (hs : info.state.originalState = some s) : info.getMaxGasFee = some s.maxGasFee := by
  rw [BTCPendingInfo.getMaxGasFee, hs]
  rfl

/-- On Bitcoin a replacement of a withdrawal pays more gas than the maximum on record. -/
theorem checkWithdrawChainSpecific_spec {o : BTCPendingInfo} {s : OriginalState} {gasFee : ℕ}
    (hs : o.state.originalState = some s)
    (h : Contract.checkWithdrawChainSpecific host o gasFee = some ())
    (hchain : host.zcash = false) :
    s.maxGasFee < gasFee := by
  unfold Contract.checkWithdrawChainSpecific at h
  rw [hchain, if_neg Bool.false_ne_true, BTCPendingInfo.getMaxGasFee_eq hs] at h
  have hpositive : 0 < gasFee - s.maxGasFee := require_eq_some.mp h
  exact Nat.lt_of_sub_pos hpositive

/-! ### Storing a replacement -/

/-- A psbt that spends what an original spends, as `from_original_psbt` leaves it. -/
structure Respends (host : Host) (o : BTCPendingInfo) (psbt : PsbtWrapper) : Prop where
  inputs : psbt.getUtxoStorageKeys = o.inputs
  coins : psbt.inputsUtxo = o.psbt.inputsUtxo
  noNote : host.zcash = false → psbt.orchard = none

theorem setRbfPendingInfo_spec {id : Txid} {build : Txid → BTCPendingInfo} {psbt : PsbtWrapper}
    {isCancel : Bool} {info : BTCPendingInfo}
    (h : c.setRbfPendingInfo host id build psbt isCancel = some (c', info)) :
    ∃ newId, newId = host.computeTxid (psbt.transaction host) ∧ info = build newId ∧
      c.btcPendingInfos.lookup newId = none ∧
      c' = { c with
        btcPendingInfos := c.btcPendingInfos.insert newId (build newId)
        rbfTxs := c.rbfTxs.insert id (insert newId ((c.rbfTxs.lookup id).getD ∅)) } := by
  simp only [Contract.setRbfPendingInfo, Option.bind_eq_bind, Option.bind_eq_some_iff,
    require_eq_some, Option.some.injEq, exists_and_left, exists_const, Prod.mk.injEq] at h
  obtain ⟨newId, hid, c₁, hinsert, _, _, rfl, rfl⟩ := h
  obtain ⟨hnone, rfl⟩ := insertNewBtcPendingInfo_spec hinsert
  exact ⟨newId, getPendingId_spec hid, rfl, hnone, rfl⟩

theorem reserveProtocolFee_spec {amount : ℕ} (h : c.reserveProtocolFee amount = some c') :
    ∃ available, available + amount = c.curAvailableProtocolFee ∧
      c' = { c with
        curAvailableProtocolFee := available
        curReservedProtocolFee := c.curReservedProtocolFee + amount } := by
  simp only [Contract.reserveProtocolFee, Option.bind_eq_bind, Option.bind_eq_some_iff,
    checkedSub_eq_some, Option.some.injEq] at h
  obtain ⟨available, havailable, rfl⟩ := h
  exact ⟨available, havailable, rfl⟩

/-- What the internal function of an RBF method does: the original is updated, the replacement is
stored beside it and protocol fees are reserved. -/
structure ReplacesIn (host : Host) (c : Contract) (id : Txid) (info : BTCPendingInfo)
    (payee : Option String) (c' : Contract) : Prop where
  replaces : ∃ o o' extra available, ∀ inflight log,
    Replaces host (c.ledger inflight log) id o o' info payee extra ∧
    available + extra = c.curAvailableProtocolFee ∧
    c' = { c with
      btcPendingInfos := (c.btcPendingInfos.insert id o').insert info.btcPendingId info
      rbfTxs := c.rbfTxs.insert id (insert info.btcPendingId ((c.rbfTxs.lookup id).getD ∅))
      curAvailableProtocolFee := available
      curReservedProtocolFee := c.curReservedProtocolFee + extra }

/-- The replacement of a kind, before it is named. -/
def replacement (o : BTCPendingInfo) (state : PendingInfoState) (actual gasFee burnAmount : ℕ)
    (nowSec : ℕ) (psbt : PsbtWrapper) (newId : Txid) : BTCPendingInfo :=
  { initRbfBtcPendingInfo o state nowSec newId psbt with
    gasFee := gasFee
    burnAmount := burnAmount
    actualReceivedAmount := actual }

/-- A replacement that passed the checks of its kind, stored under a new id. -/
theorem replacesIn_of (extra available : ℕ) {id : Txid} {o : BTCPendingInfo}
    {s s' : OriginalState} {state : PendingInfoState} {actual gasFee burnAmount nowSec newId : ℕ}
    {psbt : PsbtWrapper} {payee : Option String}
    (hpsbt : Respends host o psbt) (ho : c.btcPendingInfos.lookup id = some o)
    (hs : o.state.originalState = some s) (hstage : s.stage = .pendingVerify)
    (hstage' : s'.stage = s.stage) (hkind : ReplacementKind id o.state state)
    (hid : newId = host.computeTxid (psbt.transaction host))
    (hreservation : ({ o with state := o.state.setOriginalState s' } : BTCPendingInfo).reservation
      = o.reservation + extra)
    (husage : (replacement o state actual gasFee burnAmount nowSec psbt newId).usage
      ≤ o.reservation + extra)
    (hpayment : Payment host c.config.chain payee
      (replacement o state actual gasFee burnAmount nowSec psbt newId))
    (hrecipient : ∀ target ∈ payee, Recipient host c.config.chain o target)
    (hgas : host.zcash = false → s.maxGasFee < gasFee ∧ s'.maxGasFee = gasFee)
    (hready : c.config.changeAddress.isSome = true)
    (hnone : (c.btcPendingInfos.insert id
      { o with state := o.state.setOriginalState s' }).lookup newId = none)
    (havailable : available + extra = c.curAvailableProtocolFee) :
    ReplacesIn host c id (replacement o state actual gasFee burnAmount nowSec psbt newId) payee
      { c with
        btcPendingInfos := (c.btcPendingInfos.insert id
          { o with state := o.state.setOriginalState s' }).insert newId
            (replacement o state actual gasFee burnAmount nowSec psbt newId)
        rbfTxs := c.rbfTxs.insert id (insert newId ((c.rbfTxs.lookup id).getD ∅))
        curAvailableProtocolFee := available
        curReservedProtocolFee := c.curReservedProtocolFee + extra } := by
  refine ⟨o, _, extra, available, fun inflight log ↦ ⟨?_, havailable, rfl⟩⟩
  obtain ⟨hsign, hverify⟩ := hkind.stages hs
  exact {
    named := hid
    txBytes := rfl
    signatures := fun _ hmem ↦ (List.mem_replicate.mp hmem).2
    stage := hsign
    original := ho
    originalStage := hverify.trans hstage
    kind := hkind
    updated := ⟨s, s', hs, hstage', rfl⟩
    reservation := hreservation
    usage := hreservation ▸ husage
    inputs := hpsbt.inputs
    coins := hpsbt.coins
    vutxos := rfl
    account := rfl
    transferAmount := rfl
    withdrawFee := rfl
    signatureCount := by
      simp only [replacement, initRbfBtcPendingInfo, List.length_replicate]
    payment := hpayment
    recipient := hrecipient
    noNote := hpsbt.noNote
    gas := by
      intro hchain
      obtain ⟨hmore, hmax⟩ := hgas hchain
      refine ⟨s.maxGasFee, BTCPendingInfo.getMaxGasFee_eq hs, hmore, ?_⟩
      rw [BTCPendingInfo.getMaxGasFee_eq (PendingInfoState.originalState_setOriginalState hs s'),
        hmax]
      rfl
    ready := hready
    fresh := by
      rw [FiniteMap.lookup_insert_eq] at hnone
      split at hnone
      · cases hnone
      · exact hnone }

/-! ### What the four methods check and store -/

/-- A reservation that is made only when there is something to reserve. -/
theorem reserveIfPositive {β : Type} {amount : ℕ} {rest : Contract → Option β} {b : β}
    (h : (if 0 < amount then (c.reserveProtocolFee amount).bind rest else rest c) = some b) :
    ∃ available, available + amount = c.curAvailableProtocolFee ∧
      rest { c with
        curAvailableProtocolFee := available
        curReservedProtocolFee := c.curReservedProtocolFee + amount } = some b := by
  split at h
  · rw [Option.bind_eq_some_iff] at h
    obtain ⟨c₁, hc₁, h⟩ := h
    obtain ⟨available, havailable, rfl⟩ := reserveProtocolFee_spec hc₁
    exact ⟨available, havailable, h⟩
  · rename_i hzero
    have hamount : amount = 0 := Nat.eq_zero_of_not_pos hzero
    subst hamount
    exact ⟨c.curAvailableProtocolFee, rfl, h⟩

/-- What an RBF method has checked of an original and its record when it replaces it, by its kind,
with the state of the replacement, the new record of the original, the fees it reserves, what the
replacement burns, and the payee. -/
inductive Contract.RbfChecks (host : Host) (env : Env) (c : Contract)
    (accountId predecessor : AccountId) (id : Txid) (psbt : PsbtWrapper) (o : BTCPendingInfo)
    (s : OriginalState) (nowSec actual gasFee : ℕ) :
    RbfMethod → PendingInfoState → OriginalState → ℕ → ℕ → Option String → Prop
  | withdrawRbf (change : ScriptBuf) (target : String) (protocol received : ℕ)
      (hkind : o.state = .withdrawOriginal s) (howner : o.accountId = accountId)
      (hactive : s.cancelRbfReserved = none)
      (hchange : c.config.getChangeScriptPubkey host = some change)
      (htarget : c.extractRecipientAddress host o = some target)
      (hcheck : c.checkWithdrawPsbt host env psbt target change o.vutxos o.transferAmount
        o.withdrawFee = some (protocol, received, actual, gasFee))
      (hgas : Contract.checkWithdrawChainSpecific host o gasFee = some ()) :
      RbfChecks host env c accountId predecessor id psbt o s nowSec actual gasFee .withdrawRbf
        (.withdrawUserRbf ⟨.pendingSign, id⟩)
        { s with maxGasFee := gasFee, lastRbfTimeSec := some nowSec } 0 (actual + gasFee)
        (some target)
  | cancelWithdraw (userBalance : ℕ) (hkind : o.state = .withdrawOriginal s)
      (hage : o.createTimeSec + c.config.maxBtcTxPendingSec < nowSec)
      (hcheck : c.checkPsbtOutputAllChangeAddress host psbt o.vutxos false true =
        some (actual, gasFee))
      (hgas : Contract.checkWithdrawChainSpecific host o gasFee = some ())
      (huser : userBalance + o.withdrawFee = o.transferAmount)
      (hexcess : 0 < gasFee - userBalance → c.aclHasRole .dao predecessor = true) :
      RbfChecks host env c accountId predecessor id psbt o s nowSec actual gasFee .cancelWithdraw
        (.withdrawCancelRbf ⟨.pendingSign, id⟩)
        { s with
          maxGasFee := max s.maxGasFee gasFee
          lastRbfTimeSec := some nowSec
          cancelRbfReserved := some (max (s.cancelRbfReserved.getD 0) (gasFee - userBalance)) }
        (gasFee - userBalance - s.cancelRbfReserved.getD 0) gasFee none
  | activeUtxoManagementRbf (hkind : o.state = .activeUtxoManagementOriginal s)
      (howner : o.accountId = accountId)
      (hcheck : c.checkPsbtOutputAllChangeAddress host psbt o.vutxos true false =
        some (actual, gasFee))
      (hmore : 0 < gasFee - s.maxGasFee) :
      RbfChecks host env c accountId predecessor id psbt o s nowSec actual gasFee
        .activeUtxoManagementRbf (.activeUtxoManagementRbf ⟨.pendingSign, id⟩)
        { s with maxGasFee := gasFee, lastRbfTimeSec := some nowSec } (gasFee - s.maxGasFee) gasFee
        none
  | cancelActiveUtxoManagement (hkind : o.state = .activeUtxoManagementOriginal s)
      (hage : o.createTimeSec + c.config.maxBtcTxPendingSec < nowSec)
      (hcheck : c.checkPsbtOutputAllChangeAddress host psbt o.vutxos true true =
        some (actual, gasFee))
      (hmore : 0 < gasFee - s.maxGasFee) :
      RbfChecks host env c accountId predecessor id psbt o s nowSec actual gasFee
        .cancelActiveUtxoManagement (.activeUtxoManagementCancelRbf ⟨.pendingSign, id⟩)
        { s with
          maxGasFee := max s.maxGasFee gasFee
          lastRbfTimeSec := some nowSec
          cancelRbfReserved := some 0 } (gasFee - s.maxGasFee) gasFee none

/-- What the internal function of an RBF method does: it writes the new record of the original,
reserves protocol fees and stores the replacement under a new id. -/
inductive Contract.Rbf (host : Host) (env : Env) (c : Contract) (method : RbfMethod)
    (accountId predecessor : AccountId) (id : Txid) (psbt : PsbtWrapper) :
    Contract → BTCPendingInfo → Option String → Prop
  | mk (o : BTCPendingInfo) (s s' : OriginalState) (state : PendingInfoState)
      (nowSec actual gasFee extra burnAmount available newId : ℕ) (payee : Option String)
      (horiginal : c.btcPendingInfos.lookup id = some o)
      (hstate : o.state.originalState = some s) (hstage : s.stage = .pendingVerify)
      (hnow : env.nowSec = some nowSec)
      (hchecks : c.RbfChecks host env accountId predecessor id psbt o s nowSec actual gasFee method
        state s' extra burnAmount payee)
      (hid : newId = host.computeTxid (psbt.transaction host))
      (hnone : (c.btcPendingInfos.insert id
        { o with state := o.state.setOriginalState s' }).lookup newId = none)
      (havailable : available + extra = c.curAvailableProtocolFee) :
      Rbf host env c method accountId predecessor id psbt
        { c with
          btcPendingInfos := (c.btcPendingInfos.insert id
            { o with state := o.state.setOriginalState s' }).insert newId
              (replacement o state actual gasFee burnAmount nowSec psbt newId)
          rbfTxs := c.rbfTxs.insert id (insert newId ((c.rbfTxs.lookup id).getD ∅))
          curAvailableProtocolFee := available
          curReservedProtocolFee := c.curReservedProtocolFee + extra }
        (replacement o state actual gasFee burnAmount nowSec psbt newId) payee

section

variable {method : RbfMethod} {accountId predecessor : AccountId} {id : Txid} {psbt : PsbtWrapper}
  {info : BTCPendingInfo} {payee : Option String}

theorem internalWithdrawRbf_inv
    (h : c.internalWithdrawRbf host env accountId id psbt = some (c', info, payee)) :
    c.Rbf host env .withdrawRbf accountId predecessor id psbt c' info payee := by
  simp only [Contract.internalWithdrawRbf, Contract.internalUnwrapBtcPendingInfo,
    Contract.checkWithdrawRbfPsbtValid, BTCPendingInfo.assertNotCanceled,
    BTCPendingInfo.getCancelRbfReserved, BTCPendingInfo.updateMaxGasFee,
    Contract.internalSetBtcPendingInfo, Option.bind_eq_bind, Option.bind_eq_some_iff,
    require_eq_some, Option.some.injEq, exists_and_left, exists_const, Prod.exists,
    Prod.mk.injEq] at h
  obtain ⟨o, ho, howner, ⟨_, ⟨s₁, hs₁, rfl⟩, hactive⟩, _, hassert, nowSec, hnow, target, actual,
    gasFee, ⟨change, hchange, tx, htx, _, target', htarget, _, _, actual', gasFee', hcheck, rfl,
    rfl, rfl⟩, _, hgas, o', ⟨s₂, hs₂, rfl⟩, c₁, info₁, hset, rfl, rfl, rfl⟩ := h
  obtain ⟨s, hkind, hstage⟩ := assertWithdrawOriginalPendingVerifyTx_spec hassert
  obtain ⟨newId, hid, rfl, hnone, rfl⟩ := setRbfPendingInfo_spec hset
  have hs : o.state.originalState = some s := by rw [hkind]; rfl
  rw [hs, Option.some.injEq] at hs₁ hs₂
  subst hs₁ hs₂
  exact .mk o s _ _ nowSec actual' gasFee' 0 _ c.curAvailableProtocolFee newId _ ho hs hstage hnow
    (.withdrawRbf change target' _ _ hkind howner hactive hchange htarget hcheck hgas) hid hnone rfl

theorem internalCancelWithdraw_inv
    (h : c.internalCancelWithdraw host env id psbt predecessor = some (c', info, payee)) :
    c.Rbf host env .cancelWithdraw accountId predecessor id psbt c' info payee := by
  simp only [Contract.internalCancelWithdraw, Contract.internalUnwrapBtcPendingInfo,
    Contract.checkCancelWithdrawRbfPsbtValid, BTCPendingInfo.getCancelRbfReserved,
    Option.bind_eq_bind, Option.bind_eq_some_iff, require_eq_some, checkedSub_eq_some,
    exists_and_left, exists_const, Prod.exists] at h
  obtain ⟨o, ho, nowSec, hnow, age, hage, hoverdue, _, hassert, _, ⟨s₁, hs₁, hreserved⟩, actual,
    gasFee, hcheck, _, hgas, userBalance, huser, hexcess, h⟩ := h
  rw [Option.some.injEq] at hreserved
  subst hreserved
  obtain ⟨available, havailable, h⟩ := reserveIfPositive h
  simp only [BTCPendingInfo.doCancel, Contract.internalSetBtcPendingInfo, Option.bind_eq_bind,
    Option.bind_eq_some_iff, Option.some.injEq, Prod.exists, Prod.mk.injEq] at h
  obtain ⟨o', ⟨s₂, hs₂, rfl⟩, c₁, info₁, hset, rfl, rfl, rfl⟩ := h
  obtain ⟨s, hkind, hstage⟩ := assertWithdrawOriginalPendingVerifyTx_spec hassert
  obtain ⟨newId, hid, rfl, hnone, rfl⟩ := setRbfPendingInfo_spec hset
  have hs : o.state.originalState = some s := by rw [hkind]; rfl
  rw [hs, Option.some.injEq] at hs₁ hs₂
  subst hs₁ hs₂
  exact .mk o s _ _ nowSec actual gasFee _ _ available newId _ ho hs hstage hnow
    (.cancelWithdraw userBalance hkind (by omega) hcheck hgas huser hexcess) hid hnone havailable

theorem internalActiveUtxoManagementRbf_inv
    (h : c.internalActiveUtxoManagementRbf host env accountId id psbt
      = some (c', info, payee)) :
    c.Rbf host env .activeUtxoManagementRbf accountId predecessor id psbt c' info payee := by
  simp only [Contract.internalActiveUtxoManagementRbf, Contract.internalUnwrapBtcPendingInfo,
    Contract.checkActiveUtxoManagementRbfPsbtValid, BTCPendingInfo.getMaxGasFee,
    BTCPendingInfo.updateMaxGasFee, Contract.internalSetBtcPendingInfo,
    Option.bind_eq_bind, Option.bind_eq_some_iff, require_eq_some, Option.some.injEq,
    exists_and_left, exists_const, Prod.exists, Prod.mk.injEq] at h
  obtain ⟨o, ho, howner, _, _, _, hassert, nowSec, hnow, actual, gasFee, ⟨tx, _, _, hcheck⟩,
    maxGasFee, ⟨s₁, hs₁, rfl⟩, hmore, c₁, hreserve, o', ⟨s₂, hs₂, rfl⟩, c₂, info₁, hset, rfl, rfl,
    rfl⟩ := h
  obtain ⟨s, hkind, hstage⟩ := assertActiveUtxoManagementOriginalPendingVerifyTx_spec hassert
  obtain ⟨available, havailable, rfl⟩ := reserveProtocolFee_spec hreserve
  obtain ⟨newId, hid, rfl, hnone, rfl⟩ := setRbfPendingInfo_spec hset
  have hs : o.state.originalState = some s := by rw [hkind]; rfl
  rw [hs, Option.some.injEq] at hs₁ hs₂
  subst hs₁ hs₂
  exact .mk o s _ _ nowSec actual gasFee _ _ available newId _ ho hs hstage hnow
    (.activeUtxoManagementRbf hkind howner hcheck hmore) hid hnone havailable

theorem internalCancelActiveUtxoManagement_inv
    (h : c.internalCancelActiveUtxoManagement host env id psbt = some (c', info, payee)) :
    c.Rbf host env .cancelActiveUtxoManagement accountId predecessor id psbt c' info payee := by
  simp only [Contract.internalCancelActiveUtxoManagement, Contract.internalUnwrapBtcPendingInfo,
    Contract.checkCancelActiveUtxoManagementRbfPsbtValid, BTCPendingInfo.getMaxGasFee,
    BTCPendingInfo.doCancel, Contract.internalSetBtcPendingInfo,
    Option.bind_eq_bind, Option.bind_eq_some_iff, require_eq_some, checkedSub_eq_some,
    Option.some.injEq, exists_and_left, exists_const, Prod.exists, Prod.mk.injEq] at h
  obtain ⟨o, ho, nowSec, hnow, age, hage, hoverdue, _, hassert, actual, gasFee, hcheck, maxGasFee,
    ⟨s₁, hs₁, rfl⟩, hmore, c₁, hreserve, o', ⟨s₂, hs₂, rfl⟩, c₂, info₁, hset, rfl, rfl, rfl⟩ := h
  obtain ⟨s, hkind, hstage⟩ := assertActiveUtxoManagementOriginalPendingVerifyTx_spec hassert
  obtain ⟨available, havailable, rfl⟩ := reserveProtocolFee_spec hreserve
  obtain ⟨newId, hid, rfl, hnone, rfl⟩ := setRbfPendingInfo_spec hset
  have hs : o.state.originalState = some s := by rw [hkind]; rfl
  rw [hs, Option.some.injEq] at hs₁ hs₂
  subst hs₁ hs₂
  exact .mk o s _ _ nowSec actual gasFee _ _ available newId _ ho hs hstage hnow
    (.cancelActiveUtxoManagement hkind (by omega) hcheck hmore) hid hnone havailable

/-- The four methods do the same after different checks. -/
theorem internalRbf_inv
    (h : c.internalRbf host env method accountId id psbt predecessor = some (c', info, payee)) :
    c.Rbf host env method accountId predecessor id psbt c' info payee := by
  cases method with
  | withdrawRbf => exact internalWithdrawRbf_inv h
  | cancelWithdraw => exact internalCancelWithdraw_inv h
  | activeUtxoManagementRbf => exact internalActiveUtxoManagementRbf_inv h
  | cancelActiveUtxoManagement => exact internalCancelActiveUtxoManagement_inv h

end

/-! ### The effect of the four methods -/

theorem extractRecipientAddress_spec {o : BTCPendingInfo} {target : String}
    (laws : host.ReadsAddresses)
    (hkeyed : c.Keyed host) (h : c.extractRecipientAddress host o = some target) :
    Recipient host c.config.chain o target := by
  unfold Contract.extractRecipientAddress at h
  split at h
  · rename_i recipient hrecipient
    rw [Option.some.injEq] at h
    exact Or.inl (hrecipient.trans (congrArg some h))
  · rename_i hnone
    simp only [Option.bind_eq_bind, Option.bind_eq_some_iff] at h
    obtain ⟨change, hchange, tx, htx, output, houtput, haddress⟩ := h
    obtain ⟨rfl, _⟩ := hkeyed.getChangeScriptPubkey laws hchange
    exact Or.inr ⟨hnone, tx, output, htx, houtput, haddress⟩

/-- The two replacements of active management share what they reserve and pay. -/
theorem replacesIn_activeManagement {id : Txid} {o : BTCPendingInfo} {s s' : OriginalState}
    {state : PendingInfoState} {actual gasFee nowSec newId available : ℕ}
    {psbt : PsbtWrapper} {forceHealthyOutput isCancel : Bool} (laws : host.ReadsAddresses)
    (hkeyed : c.Keyed host)
    (hnote : psbt.orchard = none) (hpsbt : Respends host o psbt)
    (ho : c.btcPendingInfos.lookup id = some o)
    (hstate : o.state = .activeUtxoManagementOriginal s) (hstage : s.stage = .pendingVerify)
    (hstage' : s'.stage = s.stage) (hmax : s'.maxGasFee = gasFee)
    (hmore : 0 < gasFee - s.maxGasFee)
    (hkind : state = .activeUtxoManagementRbf ⟨.pendingSign, id⟩ ∨
      state = .activeUtxoManagementCancelRbf ⟨.pendingSign, id⟩)
    (hcheck : c.checkPsbtOutputAllChangeAddress host psbt o.vutxos forceHealthyOutput isCancel
      = some (actual, gasFee))
    (hid : newId = host.computeTxid (psbt.transaction host))
    (hnone : (c.btcPendingInfos.insert id
      { o with state := o.state.setOriginalState s' }).lookup newId = none)
    (havailable : available + (gasFee - s.maxGasFee) = c.curAvailableProtocolFee) :
    ReplacesIn host c id (replacement o state actual gasFee gasFee nowSec psbt newId) none
      { c with
        btcPendingInfos := (c.btcPendingInfos.insert id
          { o with state := o.state.setOriginalState s' }).insert newId
            (replacement o state actual gasFee gasFee nowSec psbt newId)
        rbfTxs := c.rbfTxs.insert id (insert newId ((c.rbfTxs.lookup id).getD ∅))
        curAvailableProtocolFee := available
        curReservedProtocolFee := c.curReservedProtocolFee + (gasFee - s.maxGasFee) } := by
  obtain ⟨hbalance, hpays, hready⟩ :=
    checkPsbtOutputAllChangeAddress_spec laws hkeyed hnote hcheck
  have hs : o.state.originalState = some s := by rw [hstate]; rfl
  refine replacesIn_of _ _ hpsbt ho hs hstage hstage' ?_ hid ?_ ?_ ?_ ?_ ?_ hready hnone havailable
  · rcases hkind with rfl | rfl
    · rw [hstate]; exact .activeRbf s
    · rw [hstate]; exact .activeCancel s
  · simp only [BTCPendingInfo.reservation, hstate, PendingInfoState.setOriginalState, hmax]
    omega
  · rcases hkind with rfl | rfl <;>
      simp only [BTCPendingInfo.usage, BTCPendingInfo.reservation, replacement,
        initRbfBtcPendingInfo, hstate] <;> omega
  · rcases hkind with rfl | rfl <;> exact ⟨hbalance, rfl, hpays⟩
  · rintro _ ⟨⟩
  · exact fun _ ↦ ⟨Nat.lt_of_sub_pos hmore, hmax⟩

theorem internalRbf_spec {method : RbfMethod} {accountId predecessor : AccountId} {id : Txid}
    {psbt : PsbtWrapper} {info : BTCPendingInfo} {payee : Option String}
    (laws : host.ReadsAddresses) (hkeyed : c.Keyed host)
    (hnote : method ≠ .withdrawRbf → psbt.orchard = none)
    (hpsbt : ∀ o, c.btcPendingInfos.lookup id = some o → Respends host o psbt)
    (h : c.internalRbf host env method accountId id psbt predecessor
      = some (c', info, payee)) :
    ReplacesIn host c id info payee c' := by
  obtain ⟨o, s, s', state, nowSec, actual, gasFee, extra, burnAmount, available, newId, _, ho, hs,
    hstage, _, hchecks, hid, hnone, havailable⟩ := internalRbf_inv h
  have hrespends := hpsbt o ho
  cases hchecks with
  | withdrawRbf change target _ _ hkind _ hactive hchange htarget hcheck hgas =>
    obtain ⟨rfl, hready⟩ := hkeyed.getChangeScriptPubkey laws hchange
    obtain ⟨hbalance, hamount, address, haddress, hpays⟩ :=
      checkWithdrawPsbt_spec hrespends.noNote hcheck
    refine replacesIn_of 0 available hrespends ho hs hstage rfl ?_ hid ?_ (Nat.zero_le _) ?_ ?_ ?_
      hready hnone havailable
    · rw [hkind]
      exact .user s hactive
    · rw [hkind]
      simp only [BTCPendingInfo.reservation, PendingInfoState.setOriginalState, hkind, add_zero]
    · exact ⟨hbalance, hamount, rfl, target, rfl, address, haddress, hpays⟩
    · rintro _ ⟨⟩
      exact extractRecipientAddress_spec laws hkeyed htarget
    · intro hchain
      exact ⟨checkWithdrawChainSpecific_spec hs hgas hchain, rfl⟩
  | cancelWithdraw userBalance hkind _ hcheck hgas huser _ =>
    obtain ⟨hbalance, hpays, hready⟩ :=
      checkPsbtOutputAllChangeAddress_spec laws hkeyed (hnote nofun) hcheck
    refine replacesIn_of _ _ hrespends ho hs hstage rfl ?_ hid ?_ ?_ ?_ ?_ ?_ hready hnone
      havailable
    · rw [hkind]
      exact .cancel s
    · simp only [BTCPendingInfo.reservation, hkind, PendingInfoState.setOriginalState,
        Option.getD_some]
      omega
    · -- The gas beyond the user's amount is covered by the reservation made now or earlier.
      simp only [BTCPendingInfo.usage, BTCPendingInfo.reservation, replacement,
        initRbfBtcPendingInfo, hkind]
      omega
    · exact ⟨hbalance, rfl, hpays⟩
    · rintro _ ⟨⟩
    · intro hchain
      have hmore := checkWithdrawChainSpecific_spec hs hgas hchain
      exact ⟨hmore, max_eq_right (Nat.le_of_lt hmore)⟩
  | activeUtxoManagementRbf hkind _ hcheck hmore =>
    exact replacesIn_activeManagement laws hkeyed (hnote nofun) hrespends ho hkind hstage rfl rfl
      hmore (Or.inl rfl) hcheck hid hnone havailable
  | cancelActiveUtxoManagement hkind _ hcheck hmore =>
    exact replacesIn_activeManagement laws hkeyed (hnote nofun) hrespends ho hkind hstage rfl
      (max_eq_right (by omega)) hmore (Or.inr rfl) hcheck hid hnone havailable

/-! ### The RBF methods -/

theorem finishRbf_simulates {cause : Cause} {method : RbfMethod}
    {accountId predecessor : AccountId} {id : Txid} {psbt : PsbtWrapper}
    (laws : host.ReadsAddresses)
    (hkeyed : c.Keyed host) (hnote : method ≠ .withdrawRbf → psbt.orchard = none)
    (hpsbt : ∀ o, c.btcPendingInfos.lookup id = some o → Respends host o psbt)
    (hbuilds : cause.Builds none)
    (h : c.finishRbf host env method accountId id psbt predecessor = some receipt) :
    Simulates host Completes cause c inflight log receipt := by
  simp only [Contract.finishRbf, Option.bind_eq_bind, Option.bind_eq_some_iff, Option.some.injEq,
    Prod.exists] at h
  obtain ⟨c₁, info, payee, hrbf, c₂, hsign, rfl⟩ := h
  obtain ⟨o, o', extra, available, hall⟩ :=
    (internalRbf_spec laws hkeyed hnote hpsbt hrbf).replaces
  obtain ⟨hreplaces, havailable, rfl⟩ := hall inflight log
  obtain ⟨_, accounts', rfl, hsame⟩ := addPendingSignId_spec hsign
  have hreserves : Fees.Reserves extra c.fees
      { c.fees with available := available, reserved := c.fees.reserved + extra } :=
    ⟨rfl, havailable, rfl, rfl, rfl⟩
  refine .marking ((Effect.replace (l := c.ledger inflight log) cause id o o' info payee extra _
    hreplaces hreserves hbuilds).of_eq ?_) hkeyed
  simp only [Contract.ledger, hsame]
  rfl

theorem Respends.bitcoin {o : BTCPendingInfo} {output : List TxOut} :
    Respends host o (PsbtWrapper.fromOriginalPsbtBitcoin o.psbt output) :=
  ⟨PsbtWrapper.fromOriginalPsbtBitcoin_keys o.psbt output, rfl, fun _ ↦ rfl⟩

theorem rbfChainSpecific_simulates {method : Method} {rbf : RbfMethod} {accountId : AccountId}
    {id : Txid} {output : List TxOut} {data : Option ChainSpecificData} (laws : host.ReadsAddresses)
    (hkeyed : c.Keyed host) (hdata : rbf ≠ .withdrawRbf → data = none)
    (howner : rbf = .cancelWithdraw ∨ rbf = .cancelActiveUtxoManagement →
      ∃ o, c.btcPendingInfos.lookup id = some o ∧ o.accountId = accountId)
    (hbrings : method.brings = none)
    (h : c.rbfChainSpecific host env rbf accountId id output data = some receipt) :
    Simulates host Completes (.call env method) c inflight log receipt := by
  unfold Contract.rbfChainSpecific at h
  split at h
  · rename_i hzcash
    rw [Option.some.injEq] at h
    subst h
    exact simulates_issue hkeyed ⟨hzcash, hdata, howner⟩ hbrings
  · simp only [Contract.internalUnwrapBtcPendingInfo, Option.bind_eq_bind,
      Option.bind_eq_some_iff] at h
    obtain ⟨o, ho, h⟩ := h
    refine finishRbf_simulates laws hkeyed (fun _ ↦ rfl) ?_ hbrings h
    intro o' ho'
    rw [ho, Option.some.injEq] at ho'
    subst ho'
    exact .bitcoin

theorem rbfCallback_simulates {result : PromiseResult} {rbf : RbfMethod}
    {accountId predecessor : AccountId} {id : Txid} {output : List TxOut}
    {data : Option ChainSpecificData} (laws : host.ReadsAddresses) (hzcash : host.zcash = true)
    (hkeyed : c.Keyed host) (hdata : rbf ≠ .withdrawRbf → data = none)
    (h : c.rbfCallback host env result rbf accountId id output data predecessor
      = some receipt) :
    Simulates host Completes
      (.answer env (.rbf rbf accountId id output data predecessor) result) c inflight log
      receipt := by
  simp only [Contract.rbfCallback, Contract.internalUnwrapBtcPendingInfo, Option.bind_eq_bind,
    Option.bind_eq_some_iff] at h
  obtain ⟨height, _, _, _, expiry, _, o, ho, psbt, hpsbt, h⟩ := h
  obtain ⟨hinputs, hcoins, _, hnote⟩ := PsbtWrapper.fromOriginalPsbtZcash_spec hpsbt
  refine finishRbf_simulates laws hkeyed ?_ ?_ rfl h
  · intro hrbf
    rw [hdata hrbf] at hnote
    exact hnote rfl
  · intro o' ho'
    rw [ho, Option.some.injEq] at ho'
    subst ho'
    refine ⟨hinputs, hcoins, fun hz ↦ ?_⟩
    rw [hzcash] at hz
    cases hz

theorem withdrawRbf_simulates {id : Txid} {output : List TxOut} {data : Option ChainSpecificData}
    (laws : host.ReadsAddresses) (hkeyed : c.Keyed host)
    (h : c.withdrawRbf host env id output data = some receipt) :
    Simulates host Completes (.call env (.withdrawRbf id output data)) c inflight log receipt := by
  simp only [Contract.withdrawRbf, Option.bind_eq_bind, Option.bind_eq_some_iff] at h
  obtain ⟨_, _, _, _, _, _, h⟩ := h
  exact rbfChainSpecific_simulates laws hkeyed (fun hne ↦ absurd rfl hne)
    (fun hcancel ↦ by rcases hcancel with hcancel | hcancel <;> cases hcancel) rfl h

theorem cancelWithdraw_simulates {id : Txid} {output : List TxOut} (laws : host.ReadsAddresses)
    (hkeyed : c.Keyed host) (h : c.cancelWithdraw host env id output = some receipt) :
    Simulates host Completes (.call env (.cancelWithdraw id output)) c inflight log receipt := by
  simp only [Contract.cancelWithdraw, Contract.internalUnwrapBtcPendingInfo, Option.bind_eq_bind,
    Option.bind_eq_some_iff] at h
  obtain ⟨_, _, _, _, _, _, o, ho, _, _, h⟩ := h
  exact rbfChainSpecific_simulates laws hkeyed (fun _ ↦ rfl) (fun _ ↦ ⟨o, ho, rfl⟩) rfl h

theorem activeUtxoManagementRbf_simulates {id : Txid} {output : List TxOut}
    (laws : host.ReadsAddresses)
    (hkeyed : c.Keyed host) (h : c.activeUtxoManagementRbf host env id output = some receipt) :
    Simulates host Completes (.call env (.activeUtxoManagementRbf id output)) c inflight log
      receipt := by
  simp only [Contract.activeUtxoManagementRbf, Option.bind_eq_bind, Option.bind_eq_some_iff] at h
  obtain ⟨_, _, _, _, _, _, _, _, h⟩ := h
  exact rbfChainSpecific_simulates laws hkeyed (fun _ ↦ rfl)
    (fun hcancel ↦ by rcases hcancel with hcancel | hcancel <;> cases hcancel) rfl h

theorem cancelActiveUtxoManagement_simulates {id : Txid} {output : List TxOut}
    (laws : host.ReadsAddresses) (hkeyed : c.Keyed host)
    (h : c.cancelActiveUtxoManagement host env id output = some receipt) :
    Simulates host Completes (.call env (.cancelActiveUtxoManagement id output)) c inflight log
      receipt := by
  simp only [Contract.cancelActiveUtxoManagement, Contract.internalUnwrapBtcPendingInfo,
    Option.bind_eq_bind, Option.bind_eq_some_iff] at h
  obtain ⟨_, _, _, _, _, _, o, ho, _, _, h⟩ := h
  exact rbfChainSpecific_simulates laws hkeyed (fun _ ↦ rfl) (fun _ ↦ ⟨o, ho, rfl⟩) rfl h

/-! ### Dropping pending transactions -/

theorem internalRemoveBtcPendingInfo_spec {id : Txid} {info : BTCPendingInfo}
    (h : c.internalRemoveBtcPendingInfo id = some (c', info)) :
    c.btcPendingInfos.lookup id = some info ∧
      c' = { c with btcPendingInfos := c.btcPendingInfos.erase id } := by
  simp only [Contract.internalRemoveBtcPendingInfo, Option.bind_eq_bind, Option.bind_eq_some_iff,
    Option.some.injEq, Prod.mk.injEq] at h
  obtain ⟨info', hinfo, rfl, rfl⟩ := h
  exact ⟨hinfo, rfl⟩

/-- What dropping pending transactions one after the other leaves. -/
structure Discards (c : Contract) (ids : List Txid) (c' : Contract) : Prop where
  takes : ∃ rest infos accounts, FiniteMap.takeAll c.btcPendingInfos ids = some (rest, infos) ∧
    (∀ info ∈ infos, Droppable info) ∧ {a | a ∈ accounts} = {a | a ∈ c.accounts} ∧
    c' = { c with btcPendingInfos := rest, accounts := accounts }

theorem Discards.simulates {method : Method} {ids : List Txid} {returns : Option ReturnValue}
    (hkeyed : c.Keyed host) (hbrings : method.brings = none) (h : Discards c ids c') :
    Simulates host Completes (.call env method) c inflight log
      { contract := c', promises := [], marks := [], returns := returns } := by
  obtain ⟨rest, infos, accounts, htakes, hdroppable, hsame, rfl⟩ := h.takes
  refine .silent ((Effect.discard (l := c.ledger inflight log) env method ids rest infos hbrings
    htakes hdroppable).of_eq ?_) hkeyed
  simp only [Contract.ledger, hsame]
  rfl

/-- Dropping one transaction. -/
theorem Discards.single {id : Txid} {info : BTCPendingInfo}
    {accounts : FiniteMap AccountId Account} (hinfo : c.btcPendingInfos.lookup id = some info)
    (hdroppable : Droppable info) (hsame : {a | a ∈ accounts} = {a | a ∈ c.accounts}) :
    Discards c [id] { c with
      btcPendingInfos := c.btcPendingInfos.erase id
      accounts := accounts } := by
  refine ⟨c.btcPendingInfos.erase id, [info], accounts, ?_, ?_, hsame, rfl⟩
  · simp only [FiniteMap.takeAll, hinfo, Option.bind_eq_bind, Option.bind_some]
  · intro other hother
    rw [List.mem_singleton.mp hother]
    exact hdroppable

theorem internalClearInvalidPendingVerifyRbf_discards {id : Txid}
    (h : c.internalClearInvalidPendingVerifyRbf id = some c') : Discards c [id] c' := by
  simp only [Contract.internalClearInvalidPendingVerifyRbf, Option.bind_eq_bind,
    Option.bind_eq_some_iff, Prod.exists] at h
  obtain ⟨c₁, info, hremove, originalTxId, horiginal, _, _, account, _, h⟩ := h
  obtain ⟨hinfo, rfl⟩ := internalRemoveBtcPendingInfo_spec hremove
  have hchild : info.state.originalTxId ≠ none := by
    intro hnone
    rw [BTCPendingInfo.getOriginalTxId, hnone] at horiginal
    cases horiginal
  have hcut : Droppable info ∧
      Contract.internalUnwrapMutAccount { c with btcPendingInfos := c.btcPendingInfos.erase id }
        info.accountId (fun account ↦
          { account with btcPendingSignIds := account.btcPendingSignIds.erase id }) = some c' := by
    split at h
    all_goals
      simp only [BTCPendingInfo.assertPendingSign, BTCPendingInfo.assertPendingVerify,
        Option.bind_eq_some_iff, require_eq_some, exists_and_left, exists_const] at h
      refine ⟨Or.inl ⟨hchild, ?_⟩, h.2⟩
      rw [h.1]
      exact nofun
  obtain ⟨hdroppable, hmut⟩ := hcut
  obtain ⟨_, accounts, rfl, hsame⟩ := internalUnwrapMutAccount_spec hmut
  exact .single hinfo hdroppable hsame

theorem foldlM_clear_discards : ∀ {ids : List Txid} {c c' : Contract},
    ids.foldlM Contract.internalClearInvalidPendingVerifyRbf c = some c' → Discards c ids c' := by
  intro ids
  induction ids with
  | nil =>
    intro c c' h
    cases h
    exact ⟨c.btcPendingInfos, [], c.accounts, rfl, fun _ ho ↦ absurd ho List.not_mem_nil, rfl, rfl⟩
  | cons id ids ih =>
    intro c c' h
    simp only [List.foldlM_cons, Option.bind_eq_bind, Option.bind_eq_some_iff] at h
    obtain ⟨mid, hmid, hrest⟩ := h
    obtain ⟨rest₁, infos₁, accounts₁, htake₁, hdrop₁, hsame₁, rfl⟩ :=
      (internalClearInvalidPendingVerifyRbf_discards hmid).takes
    obtain ⟨rest, infos, accounts, htake, hdrop, hsame, rfl⟩ := (ih hrest).takes
    obtain ⟨info, _, hinfo, hnil, rfl⟩ := FiniteMap.takeAll_cons_eq_some htake₁
    cases hnil
    refine ⟨rest, info :: infos, accounts, ?_, ?_, hsame.trans hsame₁, rfl⟩
    · simp only [FiniteMap.takeAll, hinfo, Option.bind_eq_bind, Option.bind_some]
      rw [htake, Option.bind_some]
    · intro other hother
      rcases List.mem_cons.mp hother with rfl | hother
      · exact hdrop₁ _ (by simp)
      · exact hdrop other hother

theorem clearInvalidPendingVerifyRbf_simulates {id : Txid} (hkeyed : c.Keyed host)
    (h : c.clearInvalidPendingVerifyRbf env id = some receipt) :
    Simulates host Completes (.call env (.clearInvalidPendingVerifyRbf id)) c inflight log
      receipt := by
  simp only [Contract.clearInvalidPendingVerifyRbf, Option.bind_eq_bind, Option.bind_eq_some_iff,
    Option.some.injEq] at h
  obtain ⟨_, _, c₁, hclear, rfl⟩ := h
  exact (internalClearInvalidPendingVerifyRbf_discards hclear).simulates hkeyed rfl

theorem batchClearInvalidPendingVerifyRbf_simulates {ids : List Txid} (hkeyed : c.Keyed host)
    (h : c.batchClearInvalidPendingVerifyRbf env ids = some receipt) :
    Simulates host Completes (.call env (.batchClearInvalidPendingVerifyRbf ids)) c inflight log
      receipt := by
  simp only [Contract.batchClearInvalidPendingVerifyRbf, Option.bind_eq_bind,
    Option.bind_eq_some_iff, Option.some.injEq] at h
  obtain ⟨_, _, c₁, hclear, rfl⟩ := h
  exact (foldlM_clear_discards hclear).simulates hkeyed rfl

end SatoshiBridge
