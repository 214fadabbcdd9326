import SatoshiBridge.Invariants.Burns
import SatoshiBridge.Origins.Runs

/-!
# Where confirmations come from

A transaction is settled by the answer to its burn, the burn is asked for when the light client has
confirmed the transaction, and the light client is asked by a call of a relayer, for the number of
confirmations that the configuration gives for the amount. The same holds of a refund, which burns
nothing.
-/

set_option autoImplicit false
set_option relaxedAutoImplicit false

namespace SatoshiBridge

/-- The transaction whose inclusion a promise asks for, with the confirmations it wants. -/
def Promise.inclusion : Promise → Option (Txid × ℕ)
  | verifyWithdraw txId confirmations | verifyActiveUtxoManagement txId confirmations
  | verifyRefundFinalize txId confirmations => some (txId, confirmations)
  | _ => none

/-- The promises about a transaction that waits for the burn or for the end of a refund. -/
theorem Promise.inclusion_of_verifies {p : Promise} {txId : Txid} {withdraw : Bool}
    (h : p.verifies = some (txId, withdraw)) : ∃ n, p.inclusion = some (txId, n) := by
  cases p with
  | verifyWithdraw id n | verifyActiveUtxoManagement id n =>
    cases h
    exact ⟨n, rfl⟩
  | _ => cases h

/-! ### Marks -/

section Marks

variable {host : Host} {Completes : Ledger → OutPoint → Prop} {cause : Cause} {l l' : Ledger}

/-- A committed transaction was committed before, or its burn has just succeeded. -/
theorem Effect.commitsMark (h : Effect host Completes cause l l') {id root : Txid}
    (hm : Mark.committed id root ∈ l'.log) :
    Mark.committed id root ∈ l.log ∨ ∃ env p result info, cause = .answer env p result ∧
      p.burns = some id ∧ result.isSuccess = true ∧ l.pendings.lookup id = some info ∧
      info.root id = root := by
  cases h with
  | commitWithdraw env token account relayer amount relayerFee txId protocolFee result info o tx s
      fees hsuccess hcommits =>
    simp only [Ledger.settle, List.mem_append, List.mem_cons, List.not_mem_nil, reduceCtorEq,
      or_false, false_or, Mark.committed.injEq] at hm
    rcases hm with hold | ⟨rfl, rfl⟩
    · exact Or.inl hold
    · exact Or.inr ⟨env, _, result, info, rfl, rfl, hsuccess, hcommits.pending, rfl⟩
  | commitActive env token account relayer amount txId result info o tx s fees hsuccess hcommits =>
    simp only [Ledger.settle, List.mem_append, List.mem_cons, List.not_mem_nil, reduceCtorEq,
      or_false, false_or, Mark.committed.injEq] at hm
    rcases hm with hold | ⟨rfl, rfl⟩
    · exact Or.inl hold
    · exact Or.inr ⟨env, _, result, info, rfl, rfl, hsuccess, hcommits.pending, rfl⟩
  | lose p result =>
    rcases List.mem_append.mp hm with hold | hnew
    · exact Or.inl hold
    · obtain ⟨_, _, habsurd⟩ := Promise.mem_lostMarks.mp hnew
      cases habsurd
  | _ => exact Or.inl (by simpa using hm)

/-- A refund that has ended did so before, or the light client has just confirmed it. -/
theorem Effect.endsMark (h : Effect host Completes cause l l') {id : Txid} {key : OutPoint}
    (hm : Mark.refundFinalised id key ∈ l'.log) :
    Mark.refundFinalised id key ∈ l.log ∨ ∃ env confirmations result info,
      cause = .answer env (.verifyRefundFinalize id confirmations) result ∧
      l.pendings.lookup id = some info ∧ info.state.isRefund = true ∧ info.inputs = [key] := by
  cases h with
  | finalizeRefund env txId confirmations result info key' hpending hrefund hkey =>
    rw [List.mem_append, List.mem_singleton, Mark.refundFinalised.injEq] at hm
    rcases hm with hold | ⟨rfl, rfl⟩
    · exact Or.inl hold
    · exact Or.inr ⟨env, confirmations, result, info, rfl, hpending, hrefund, hkey⟩
  | lose p result =>
    rcases List.mem_append.mp hm with hold | hnew
    · exact Or.inl hold
    · obtain ⟨_, _, habsurd⟩ := Promise.mem_lostMarks.mp hnew
      cases habsurd
  | _ => exact Or.inl (by simpa [Ledger.settle] using hm)

end Marks

namespace Contract

variable {host : Host} {env : Env} {c : Contract}

/-- A relayer may have the inclusion of a signed transaction verified, with these confirmations. -/
structure AsksInclusion (env : Env) (c : Contract) (txId : Txid) (confirmations : ℕ) : Prop where
  relayer : env.trustedRelayer = true
  unpaused : env.paused = false
  signed : ∃ info, c.btcPendingInfos.lookup txId = some info ∧
    info.state.stage = .pendingVerify ∧ info.txBytesWithSign.isSome = true ∧
    (∀ root ∈ info.getOriginalTxId, c.checkBtcPendingInfoExists root = true) ∧
    ∃ tier, c.config.getConfirmations info.actualReceivedAmount = some tier ∧
      confirmations = tier + c.relayerDelta env.predecessor

theorem assertVerifiable_eq_some {info : BTCPendingInfo} {u : Unit} :
    c.assertVerifiable info = some u ↔
      (∀ root ∈ info.getOriginalTxId, c.checkBtcPendingInfoExists root = true) ∧
        info.txBytesWithSign.isSome = true := by
  simp only [assertVerifiable, Option.bind_eq_bind, Option.bind_eq_some_iff, require_eq_some,
    exists_const]

theorem verifyWithdrawEntry_asks {txId : Txid} {receipt : Receipt} {p : Promise} {id : Txid} {n : ℕ}
    (hrelayer : env.trustedRelayer = true) (hunpaused : env.paused = false)
    (h : c.internalVerifyWithdrawEntry env txId = some receipt) (hp : p ∈ receipt.promises)
    (hid : p.inclusion = some (id, n)) : txId = id ∧ c.AsksInclusion env id n := by
  simp only [internalVerifyWithdrawEntry, BTCPendingInfo.assertWithdrawRelatedPendingVerifyTx,
    BTCPendingInfo.assertPendingVerify, internalUnwrapBtcPendingInfo, Option.bind_eq_bind,
    Option.bind_eq_some_iff, require_eq_some, exists_const, assertVerifiable_eq_some,
    Option.some.injEq] at h
  obtain ⟨info, hinfo, ⟨_, hstage⟩, ⟨horiginal, hsigned⟩, tier, htier, rfl⟩ := h
  rw [List.mem_singleton.mp hp] at hid
  cases hid
  exact ⟨rfl, hrelayer, hunpaused, info, hinfo, hstage, hsigned, horiginal, tier, htier, rfl⟩

theorem verifyManagementEntry_asks {txId : Txid} {receipt : Receipt} {p : Promise} {id : Txid}
    {n : ℕ} (hrelayer : env.trustedRelayer = true) (hunpaused : env.paused = false)
    (h : c.internalVerifyActiveUtxoManagementEntry env txId = some receipt)
    (hp : p ∈ receipt.promises) (hid : p.inclusion = some (id, n)) :
    txId = id ∧ c.AsksInclusion env id n := by
  simp only [internalVerifyActiveUtxoManagementEntry,
    BTCPendingInfo.assertActiveUtxoManagementRelatedPendingVerifyTx,
    BTCPendingInfo.assertPendingVerify, internalUnwrapBtcPendingInfo, Option.bind_eq_bind,
    Option.bind_eq_some_iff, require_eq_some, exists_const, assertVerifiable_eq_some,
    Option.some.injEq] at h
  obtain ⟨info, hinfo, ⟨_, hstage⟩, ⟨horiginal, hsigned⟩, tier, htier, rfl⟩ := h
  rw [List.mem_singleton.mp hp] at hid
  cases hid
  exact ⟨rfl, hrelayer, hunpaused, info, hinfo, hstage, hsigned, horiginal, tier, htier, rfl⟩

theorem verifyRefundEntry_asks {txId : Txid} {receipt : Receipt} {p : Promise} {id : Txid} {n : ℕ}
    (hrelayer : env.trustedRelayer = true) (hunpaused : env.paused = false)
    (h : c.internalVerifyRefundFinalizeEntry env txId = some receipt) (hp : p ∈ receipt.promises)
    (hid : p.inclusion = some (id, n)) : txId = id ∧ c.AsksInclusion env id n := by
  simp only [internalVerifyRefundFinalizeEntry, BTCPendingInfo.assertRefundPendingVerifyTx,
    BTCPendingInfo.assertPendingVerify, internalUnwrapBtcPendingInfo, Option.bind_eq_bind,
    Option.bind_eq_some_iff, require_eq_some, exists_const, Option.some.injEq] at h
  obtain ⟨info, hinfo, ⟨hrefund, hstage⟩, hsigned, tier, htier, rfl⟩ := h
  have horiginal : ∀ root ∈ info.getOriginalTxId, c.checkBtcPendingInfoExists root = true := by
    intro root hroot
    -- A refund replaces nothing.
    unfold BTCPendingInfo.getOriginalTxId PendingInfoState.originalTxId at hroot
    unfold PendingInfoState.isRefund at hrefund
    split at hrefund
    · rename_i heq
      rw [heq] at hroot
      cases hroot
    · cases hrefund
  rw [List.mem_singleton.mp hp] at hid
  cases hid
  exact ⟨rfl, hrelayer, hunpaused, info, hinfo, hstage, hsigned, horiginal, tier, htier, rfl⟩

/-- What a call of a relayer has the light client asked for. -/
theorem verifyWithdrawV2_asks {txId : Txid} {receipt : Receipt} {p : Promise} {id : Txid} {n : ℕ}
    (h : c.verifyWithdrawV2 env txId = some receipt) (hp : p ∈ receipt.promises)
    (hid : p.inclusion = some (id, n)) : txId = id ∧ c.AsksInclusion env id n := by
  simp only [verifyWithdrawV2, Env.assertTrustedRelayer, Env.assertNotPaused, Option.bind_eq_bind,
    Option.bind_eq_some_iff, require_eq_some, exists_const] at h
  obtain ⟨hrelayer, hunpaused, info, _, h⟩ := h
  split at h
  · exact verifyWithdrawEntry_asks hrelayer hunpaused h hp hid
  · split at h
    · exact verifyManagementEntry_asks hrelayer hunpaused h hp hid
    · exact verifyRefundEntry_asks hrelayer hunpaused h hp hid

/-- The light client has to say yes before anything is burnt or a refund ends. -/
theorem callback_confirmed {result : PromiseResult} {p : Promise} {receipt : Receipt} {id : Txid}
    {n : ℕ} (hp : p.inclusion = some (id, n))
    (h : c.callback host env result p = some receipt) : result = .value (.bool true) := by
  have hbool (hresult : result.expectBool = some true) : result = .value (.bool true) := by
    unfold PromiseResult.expectBool at hresult
    split at hresult
    · rw [Option.some.inj hresult]
    · cases hresult
  cases p with
  | verifyWithdraw =>
    simp only [callback, internalVerifyWithdrawCallback, moveToBurnStage, Option.bind_eq_bind,
      Option.bind_eq_some_iff, require_eq_some, exists_and_left, exists_const, Prod.exists] at h
    obtain ⟨_, _, ⟨_, hresult, rfl, _⟩, _⟩ := h
    exact hbool hresult
  | verifyActiveUtxoManagement =>
    simp only [callback, verifyActiveUtxoManagementCallback, moveToBurnStage, Option.bind_eq_bind,
      Option.bind_eq_some_iff, require_eq_some, exists_and_left, exists_const, Prod.exists] at h
    obtain ⟨_, _, ⟨_, hresult, rfl, _⟩, _⟩ := h
    exact hbool hresult
  | verifyRefundFinalize =>
    simp only [callback, verifyRefundFinalizeCallback, Option.bind_eq_bind,
      Option.bind_eq_some_iff, require_eq_some, exists_and_left, exists_const] at h
    obtain ⟨_, hresult, rfl, _⟩ := h
    exact hbool hresult
  | _ => cases hp

end Contract

namespace Sys

open Transition (Once)

variable {host : Host} {guard : Guard} {s s' : Sys} {steps : Steps} {id root : Txid} {n : ℕ}

/-! ### Events -/

/-- A relayer asked for the inclusion of a transaction. -/
abbrev AsksFor (id : Txid) (n : ℕ) : Transition.Event Sys Action :=
  Accepts fun c env method ↦ method = .verifyWithdrawV2 id ∧ c.AsksInclusion env id n

/-- The light client confirmed a transaction. -/
def Includes (id : Txid) (n : ℕ) : Transition.Event Sys Action :=
  fun before a _ ↦ ∃ index env p, a = .callback index env (.value (.bool true)) ∧
    before.inflight[index]? = some p ∧ p.inclusion = some (id, n)

/-- The burn for a transaction succeeded. -/
def Settles (id : Txid) : Transition.Event Sys Action :=
  fun before a _ ↦ ∃ index env p result, a = .callback index env result ∧
    before.inflight[index]? = some p ∧ p.burns = some id ∧ result.isSuccess = true

/-! ### Steps -/

/-- The light client is asked by a call. -/
theorem exec_asksFor {a : Action} {p : Promise} (hid : p.inclusion = some (id, n))
    (he : s.exec host a = some s') (hp : p ∈ s'.inflight) :
    p ∈ s.inflight ∨ AsksFor id n s a s' := by
  have hasked : p.asked = true := by
    cases p with
    | verifyWithdraw | verifyActiveUtxoManagement | verifyRefundFinalize => rfl
    | _ => cases hid
  rcases exec_promises he hp hasked with hold | ⟨⟨env, method, rfl, hrequests⟩, _⟩
  · exact Or.inl hold
  · simp only [exec, Option.bind_eq_bind, Option.bind_eq_some_iff, Option.some.injEq] at he
    obtain ⟨receipt, hcall, rfl⟩ := he
    rcases List.mem_append.mp hp with hold | hnew
    · exact Or.inl hold
    · have hmethod : ∃ txId, method = .verifyWithdrawV2 txId := by
        cases p with
        | verifyWithdraw txId | verifyActiveUtxoManagement txId | verifyRefundFinalize txId =>
          exact ⟨txId, hrequests.1⟩
        | _ => cases hid
      obtain ⟨txId, rfl⟩ := hmethod
      obtain ⟨rfl, hasks⟩ := Contract.verifyWithdrawV2_asks hcall hnew hid
      exact Or.inr ⟨env, _, rfl, rfl, hasks⟩

/-- A burn is asked for when the light client has confirmed a pending transaction. -/
theorem exec_includes (laws : host.ReadsAddresses) (hs : s.WellShaped host) {a : Action}
    {p : Promise} (hid : p.burns = some id) (he : s.exec host a = some s') (hp : p ∈ s'.inflight) :
    p ∈ s.inflight ∨ ∃ n info withdraw, Includes id n s a s' ∧
      s.contract.btcPendingInfos.lookup id = some info ∧
      BurnOf s.contract.config.nbtcAccountId info id withdraw p := by
  obtain ⟨cause, mid, hmid, heffect, hcauses, _⟩ := exec_cause laws hs he
  rcases heffect.sent (Multiset.mem_coe.mpr hp) with hold | hsent
  · left
    have hbefore : p ∈ s.ledger.inflight := by
      rw [hmid]
      exact Multiset.mem_add.mpr (Or.inr hold)
    exact Multiset.mem_coe.mp hbefore
  · right
    have hpendings : mid.pendings = s.contract.btcPendingInfos :=
      (congrArg Ledger.pendings hmid).symm
    have htoken : mid.token = s.contract.config.nbtcAccountId :=
      (congrArg Ledger.token hmid).symm
    cases hsent with
    | issued env method hcause hissued =>
      cases p with
      | withdrawBurn | activeUtxoManagementBurn => exact hissued.elim
      | _ => cases hid
    | minted env q result info hcause hmints => cases hmints <;> cases hid
    | burning env q result txId withdraw info hcause hverifies hpending hrefund hburn =>
      subst hcause
      rw [hpendings] at hpending
      rw [htoken] at hburn
      have htxId : txId = id := by
        cases hburn <;> exact Option.some.inj hid
      rw [htxId] at hverifies hpending hburn
      obtain ⟨n, hinclusion⟩ := Promise.inclusion_of_verifies hverifies
      cases hcauses with
      | answer index env q result receipt hq hcallback _ =>
        have hresult := Contract.callback_confirmed hinclusion hcallback
        rw [hresult]
        exact ⟨n, info, withdraw, ⟨index, env, q, rfl, hq, hinclusion⟩, hpending, hburn⟩
    | detached _ _ _ _ _ heq | transferred _ _ _ heq | claimed _ _ _ heq =>
      rw [heq] at hid
      cases hid

/-- A transaction is settled when its burn has succeeded. -/
theorem exec_settles (laws : host.ReadsAddresses) (hs : s.WellShaped host) {a : Action}
    (he : s.exec host a = some s') (hm : Mark.committed id root ∈ s'.log) :
    Mark.committed id root ∈ s.log ∨ (Settles id s a s' ∧
      ∃ info, s.contract.btcPendingInfos.lookup id = some info ∧ info.root id = root) := by
  obtain ⟨cause, mid, hmid, heffect, hcauses, _⟩ := exec_cause laws hs he
  have hlog : mid.log = s.log := (congrArg Ledger.log hmid).symm
  have hpendings : mid.pendings = s.contract.btcPendingInfos :=
    (congrArg Ledger.pendings hmid).symm
  rcases heffect.commitsMark hm with hold | ⟨env, p, result, info, rfl, hburns, hsuccess,
    hpending, hroot⟩
  · rw [hlog] at hold
    exact Or.inl hold
  · right
    rw [hpendings] at hpending
    cases hcauses with
    | answer index env p result receipt hp hcallback _ =>
      exact ⟨⟨index, env, p, result, rfl, hp, hburns, hsuccess⟩, info, hpending, hroot⟩

/-- A refund ends when the light client has confirmed it. -/
theorem exec_ends (laws : host.ReadsAddresses) (hs : s.WellShaped host) {a : Action}
    {key : OutPoint} (he : s.exec host a = some s') (hm : Mark.refundFinalised id key ∈ s'.log) :
    Mark.refundFinalised id key ∈ s.log ∨ ∃ n info, Includes id n s a s' ∧
      s.contract.btcPendingInfos.lookup id = some info ∧ info.state.isRefund = true ∧
      info.inputs = [key] := by
  obtain ⟨cause, mid, hmid, heffect, hcauses, _⟩ := exec_cause laws hs he
  have hlog : mid.log = s.log := (congrArg Ledger.log hmid).symm
  have hpendings : mid.pendings = s.contract.btcPendingInfos :=
    (congrArg Ledger.pendings hmid).symm
  rcases heffect.endsMark hm with hold | ⟨env, n, result, info, rfl, hpending, hrefund, hkey⟩
  · rw [hlog] at hold
    exact Or.inl hold
  · right
    rw [hpendings] at hpending
    cases hcauses with
    | answer index env p result receipt hp hcallback _ =>
      have hresult := Contract.callback_confirmed rfl hcallback
      rw [hresult]
      exact ⟨n, info, ⟨index, _, _, rfl, hp, rfl⟩, hpending, hrefund, hkey⟩

end Sys

end SatoshiBridge
