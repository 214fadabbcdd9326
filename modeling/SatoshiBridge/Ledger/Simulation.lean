import SatoshiBridge.Ledger.Frame
import SatoshiBridge.Ledger.ManagementEffects

/-!
# Every run of the bridge is a run of its ledger

Each action of the system is one step of the ledger: a call takes nothing from the promises in
flight, a callback takes the promise it answers. An invariant of the ledger, proved over its few
kinds of step, then holds in every reachable state of the system.
-/

set_option autoImplicit false
set_option relaxedAutoImplicit false

namespace SatoshiBridge

variable {host : Host} {Completes : Ledger → OutPoint → Prop} {env : Env} {c : Contract}
  {inflight : Multiset Promise} {log : List Mark} {receipt : Receipt}

/-! ### Calls -/

/-- Every call is one step of the ledger. -/
theorem call_simulates {method : Method} (laws : host.ReadsAddresses) (hkeyed : c.Keyed host)
    (hguard : ∀ msg txBytes vout fee, method = .completeFailedDepositMint msg txBytes vout fee →
      ∀ summary, internalResolveDepositTx host txBytes = some summary →
        Completes (c.ledger inflight log) ⟨summary.txId, vout⟩)
    (h : c.call host env method = some receipt) :
    Simulates host Completes (.call env method) c inflight log receipt := by
  cases method with
  | verifyDepositV2 => exact verifyDepositV2_simulates hkeyed h
  | verifyWithdrawV2 => exact verifyWithdrawV2_simulates hkeyed h
  | withdrawRbf => exact withdrawRbf_simulates laws hkeyed h
  | cancelWithdraw => exact cancelWithdraw_simulates laws hkeyed h
  | activeUtxoManagement => exact activeUtxoManagement_simulates laws hkeyed h
  | activeUtxoManagementRbf => exact activeUtxoManagementRbf_simulates laws hkeyed h
  | cancelActiveUtxoManagement => exact cancelActiveUtxoManagement_simulates laws hkeyed h
  | clearInvalidPendingVerifyRbf => exact clearInvalidPendingVerifyRbf_simulates hkeyed h
  | batchClearInvalidPendingVerifyRbf =>
    exact batchClearInvalidPendingVerifyRbf_simulates hkeyed h
  | claimLostFound => exact claimLostFound_simulates hkeyed h
  | requestRefund => exact requestRefund_simulates hkeyed h
  | rejectRefund => exact rejectRefund_simulates hkeyed h
  | executeRefund => exact executeRefund_simulates hkeyed h
  | removeRefundPendingTxId => exact removeRefundPendingTxId_simulates hkeyed h
  | ftOnTransfer => exact ftOnTransfer_simulates laws hkeyed h
  | signBtcTransaction => exact signBtcTransaction_simulates hkeyed h
  | withdrawProtocolFee => exact withdrawProtocolFee_simulates hkeyed h
  | completeFailedDepositMint msg txBytes vout fee =>
    exact completeFailedDepositMint_simulates hkeyed (hguard msg txBytes vout fee rfl) h
  | syncChainSignaturesRootPublicKey =>
    exact syncChainSignaturesRootPublicKey_simulates hkeyed h
  | _ =>
    obtain ⟨c', rfl, hc'⟩ := call_manages rfl h
    exact hc'.simulates hkeyed rfl

/-! ### Callbacks -/

/-- What every promise in flight satisfies: the Zcash build alone asks for a block height first,
and only a replacement by the user carries chain specific data. -/
def Promise.Shaped (host : Host) : Promise → Prop
  | .activeUtxoManagement .. | .executeRefund .. | .ftOnTransfer .. => host.zcash = true
  | .rbf method _ _ _ data _ => host.zcash = true ∧ (method ≠ .withdrawRbf → data = none)
  | _ => True

/-- Every callback is one step of the ledger. -/
theorem callback_simulates {p : Promise} {result : PromiseResult} (laws : host.ReadsAddresses)
    (hkeyed : c.Keyed host) (hshaped : p.Shaped host) (hanswers : p.Answers host result)
    (h : c.callback host env result p = some receipt) :
    Simulates host Completes (.answer env p result) c inflight log receipt := by
  cases p with
  | verifyDeposit => exact verifyDepositCallback_simulates hkeyed h
  | verifySafeDeposit => exact verifySafeDepositCallback_simulates hkeyed h
  | mint => exact mintCallback_simulates hkeyed h
  | safeMint => exact safeMintCallback_simulates hkeyed h
  | burnDetached =>
    cases h
    exact simulates_ignore hkeyed trivial
  | verifyWithdraw => exact internalVerifyWithdrawCallback_simulates hkeyed h
  | verifyActiveUtxoManagement => exact verifyActiveUtxoManagementCallback_simulates hkeyed h
  | withdrawBurn => exact verifyWithdrawBurnCallback_simulates laws hkeyed h
  | activeUtxoManagementBurn => exact verifyActiveUtxoManagementBurnCallback_simulates laws hkeyed h
  | verifyRefundFinalize => exact verifyRefundFinalizeCallback_simulates hkeyed h
  | requestRefund => exact requestRefundCallback_simulates hkeyed h
  | transferNbtc => exact transferNbtcCallback_simulates hkeyed h
  | withdrawProtocolFee => exact withdrawProtocolFeeCallback_simulates hkeyed h
  | sign => exact signBtcTransactionCallback_simulates hkeyed h
  | syncRootPublicKey => exact syncRootPublicKeyCallback_simulates hkeyed hanswers h
  | ftOnTransfer => exact ftOnTransferCallback_simulates laws hshaped hkeyed h
  | rbf => exact rbfCallback_simulates laws hshaped.1 hkeyed hshaped.2 h
  | activeUtxoManagement => exact activeUtxoManagementCallback_simulates laws hshaped hkeyed h
  | executeRefund => exact executeRefundCallback_simulates hshaped hkeyed h

theorem Sent.shaped {cause : Cause} {l : Ledger} {p : Promise} (h : Sent host cause l p) :
    p.Shaped host := by
  cases h with
  | issued env method hcause hissued =>
    cases p with
    | activeUtxoManagement => exact hissued
    | rbf => exact ⟨hissued.1, hissued.2.1⟩
    | executeRefund | ftOnTransfer => exact hissued.1
    | _ => trivial
  | minted env q result info hcause hmints => cases hmints <;> trivial
  | burning env q result txId withdraw info hcause hverifies hpending hrefund hburn =>
    cases hburn <;> trivial
  | detached _ _ _ _ _ hp | transferred _ _ _ hp | claimed _ _ _ hp => subst hp; trivial

/-! ### Runs of the ledger -/

/-- The ledger of a bridge that has just been constructed. -/
structure Ledger.Initial (l : Ledger) : Prop where
  utxos : l.utxos = ∅
  inProgress : l.inProgress = ∅
  verified : l.verified = ∅
  pendings : l.pendings = ∅
  requests : l.requests = ∅
  lostFound : l.lostFound = ∅
  fees : l.fees = ⟨0, 0, 0, 0, 0⟩
  inflight : l.inflight = 0
  log : l.log = []

/-- Registrations by hand are not restricted. -/
def Ledger.Anytime (_ : Ledger) (_ : OutPoint) : Prop := True

/-- The ledgers reached from an initial one. -/
def Ledger.Reached (host : Host) (Completes : Ledger → OutPoint → Prop) (l : Ledger) : Prop :=
  ∃ l₀, l₀.Initial ∧ Relation.ReflTransGen (Ledger.Step host Completes) l₀ l

/-- The induction over runs of the ledger: what holds initially and survives every kind of step. -/
theorem Ledger.Reached.induct {Inv : Ledger → Prop} (hinit : ∀ l : Ledger, l.Initial → Inv l)
    (hstep : ∀ (cause : Cause) (l l' : Ledger), Ledger.Reached host Completes (cause.before l) →
      Inv (cause.before l) → Effect host Completes cause l l' → Inv l') :
    ∀ l, Ledger.Reached host Completes l → Inv l := by
  rintro l ⟨l₀, h₀, hrun⟩
  induction hrun with
  | refl => exact hinit l₀ h₀
  | tail hprev hlast ih =>
    obtain ⟨cause, mid, rfl, heffect⟩ := hlast
    exact hstep cause mid _ ⟨l₀, h₀, hprev⟩ ih heffect

theorem Ledger.Reached.step {cause : Cause} {l l' : Ledger}
    (h : Ledger.Reached host Completes (cause.before l))
    (heffect : Effect host Completes cause l l') :
    Ledger.Reached host Completes l' := by
  obtain ⟨l₀, h₀, hrun⟩ := h
  exact ⟨l₀, h₀, hrun.tail ⟨cause, l, rfl, heffect⟩⟩

namespace Sys

variable {guard : Guard} {s s' : Sys}

/-- What the simulation needs to know of a state: the bridge has its own keys, and the promises in
flight have their shape. -/
structure WellShaped (host : Host) (s : Sys) : Prop where
  keyed : s.contract.Keyed host
  shaped : ∀ p ∈ s.ledger.inflight, p.Shaped host

theorem Initial.ledger (h : s.Initial) : s.ledger.Initial ∧ s.WellShaped host := by
  obtain ⟨env, config, hnew, hinflight, hlog⟩ := h
  simp only [Contract.new, Option.bind_eq_bind, Option.bind_eq_some_iff, require_eq_some,
    Option.some.injEq, exists_and_left, exists_const] at hnew
  obtain ⟨_, _, hroot, haddress, ring, _, hcontract⟩ := hnew
  unfold Sys.ledger
  rw [hinflight, hlog, ← hcontract]
  refine ⟨⟨rfl, rfl, rfl, rfl, rfl, rfl, rfl, rfl, rfl⟩, ?_, ?_⟩
  · rw [← hcontract]
    exact Or.inl ⟨hroot, haddress⟩
  · intro p hp
    unfold Sys.ledger at hp
    rw [hinflight] at hp
    exact absurd hp (Multiset.notMem_zero p)

/-- What an action causes: a call causes its call, and only calls do. -/
def Caused : Action → Cause → Prop
  | .call env method, cause => cause = .call env method
  | .callback .., cause | .lose .., cause => ∀ env method, cause ≠ .call env method

/-- Every action is one step of the ledger. -/
theorem exec_effect (laws : host.ReadsAddresses) {action : Action}
    (hguard : ∀ s k, guard s k → Completes s.ledger k) (hs : s.WellShaped host)
    (hallowed : Allowed host guard s action) (h : s.exec host action = some s') :
    ∃ cause mid, s.ledger = Cause.before cause mid ∧ Effect host Completes cause mid s'.ledger ∧
      s'.contract.Keyed host ∧ Caused action cause := by
  have htake {index : ℕ} {p : Promise} (hp : s.inflight[index]? = some p) :
      (s.inflight : Multiset Promise) = {p} + (s.inflight.eraseIdx index : Multiset Promise) := by
    obtain ⟨hlt, rfl⟩ := List.getElem?_eq_some_iff.mp hp
    rw [Multiset.singleton_add, Multiset.cons_coe, Multiset.coe_eq_coe]
    exact (List.getElem_cons_eraseIdx_perm hlt).symm
  have hdrop {index : ℕ} {p : Promise} (result : PromiseResult)
      (hp : s.inflight[index]? = some p) :
      ∃ cause mid, s.ledger = Cause.before cause mid ∧
        Effect host Completes cause mid (s.drop index p result).ledger ∧
        (s.drop index p result).contract.Keyed host ∧
        ∀ env method, cause ≠ .call env method := by
    refine ⟨.lost p result, s.contract.ledger (s.inflight.eraseIdx index) s.log, ?_, .lose p result,
      hs.keyed, fun _ _ heq ↦ by cases heq⟩
    unfold Sys.ledger
    rw [htake hp]
    rfl
  have happly {inflight : List Promise} {cause : Cause} {receipt : Receipt}
      (hsim : Simulates host Completes cause s.contract inflight s.log receipt) :
      Effect host Completes cause (s.contract.ledger inflight s.log)
        (s.apply inflight receipt).ledger ∧ (s.apply inflight receipt).contract.Keyed host := by
    refine ⟨hsim.1.of_eq ?_, hsim.2⟩
    simp only [Sys.ledger, Sys.apply, ← Multiset.coe_add, add_comm]
  cases action with
  | call env method =>
    simp only [exec, Option.bind_eq_bind, Option.bind_eq_some_iff, Option.some.injEq] at h
    obtain ⟨receipt, hcall, rfl⟩ := h
    have hsim :
        Simulates host Completes (.call env method) s.contract s.inflight s.log receipt := by
      refine call_simulates laws hs.keyed ?_ hcall
      rintro msg txBytes vout fee rfl summary htx
      exact hguard s _ (hallowed summary htx)
    obtain ⟨heffect, hkeyed⟩ := happly hsim
    refine ⟨.call env method, s.ledger, ?_, heffect, hkeyed, rfl⟩
    simp only [Cause.before, Cause.taken, zero_add]
  | callback index env result =>
    simp only [exec, Option.bind_eq_bind, Option.bind_eq_some_iff, require_eq_some] at h
    obtain ⟨p, hp, _, hanswers, h⟩ := h
    split at h
    · rename_i receipt hcallback
      rw [Option.some.injEq] at h
      subst h
      have hshaped : p.Shaped host :=
        hs.shaped p (Multiset.mem_coe.mpr (List.mem_of_getElem? hp))
      obtain ⟨heffect, hkeyed⟩ :=
        happly (callback_simulates laws hs.keyed hshaped hanswers hcallback)
      refine ⟨.answer env p result, s.contract.ledger (s.inflight.eraseIdx index) s.log, ?_,
        heffect, hkeyed, fun _ _ heq ↦ by cases heq⟩
      unfold Sys.ledger
      rw [htake hp]
      rfl
    · rw [Option.some.injEq] at h
      subst h
      exact hdrop result hp
  | lose index result =>
    simp only [exec, Option.bind_eq_bind, Option.bind_eq_some_iff, Option.some.injEq] at h
    obtain ⟨p, hp, rfl⟩ := h
    exact hdrop result hp

theorem exec_wellShaped (laws : host.ReadsAddresses) {action : Action} (hs : s.WellShaped host)
    (h : s.exec host action = some s') : s'.WellShaped host := by
  have hallowed : Allowed host always s action := by
    cases action with
    | call env method => cases method <;> simp only [Allowed, always, implies_true]
    | callback | lose => trivial
  have hany : ∀ s k, always s k → Ledger.Anytime s.ledger k := fun _ _ _ ↦ trivial
  obtain ⟨cause, mid, hmid, heffect, hkeyed, _⟩ := exec_effect laws hany hs hallowed h
  refine ⟨hkeyed, fun p hp ↦ ?_⟩
  rcases heffect.sent hp with hp | hsent
  · refine hs.shaped p ?_
    rw [hmid]
    exact Multiset.mem_add.mpr (Or.inr hp)
  · exact hsent.shaped

theorem Reachable.wellShaped (laws : host.ReadsAddresses) (h : Reachable host guard s) :
    s.WellShaped host :=
  Transition.Reachable.induct (fun _ h₀ ↦ (Initial.ledger h₀).2)
    (fun _ _ _ _ hs _ he ↦ exec_wellShaped laws hs he) s h

/-- The ledger of a reachable state is reached by the ledger. -/
theorem Reachable.ledger (laws : host.ReadsAddresses)
    (hguard : ∀ s k, guard s k → Completes s.ledger k)
    (h : Reachable host guard s) : Ledger.Reached host Completes s.ledger := by
  have hinit : ∀ s : Sys, s.Initial → Ledger.Reached host Completes s.ledger := by
    intro s h₀
    have hledger : s.ledger.Initial ∧ s.WellShaped host := Initial.ledger h₀
    exact ⟨s.ledger, hledger.1, .refl⟩
  have hkeep : ∀ x y, Ledger.Step host Completes x y → Ledger.Reached host Completes x →
      Ledger.Reached host Completes y := by
    rintro x y hstep ⟨l₀, h₀, hrun⟩
    exact ⟨l₀, h₀, hrun.tail hstep⟩
  refine Transition.Reachable.abstract_invariant hinit hkeep ?_ s h
  intro s a s' hs ha he
  obtain ⟨cause, mid, hmid, heffect, _⟩ :=
    exec_effect laws hguard (Reachable.wellShaped laws hs) ha he
  exact .single ⟨cause, mid, hmid, heffect⟩

/-- Whatever the guard, the ledger is one with completions at any time. -/
theorem Reachable.anytime (laws : host.ReadsAddresses) (h : Reachable host guard s) :
    Ledger.Reached host Ledger.Anytime s.ledger :=
  h.ledger laws fun _ _ _ ↦ trivial

/-! ### The history along a run -/

/-- The history only grows. -/
theorem exec_log {action : Action} (h : s.exec host action = some s') :
    ∃ marks, s'.log = s.log ++ marks := by
  cases action with
  | call env method =>
    simp only [exec, Option.bind_eq_bind, Option.bind_eq_some_iff, Option.some.injEq] at h
    obtain ⟨receipt, _, rfl⟩ := h
    exact ⟨receipt.marks, rfl⟩
  | callback index env result =>
    simp only [exec, Option.bind_eq_bind, Option.bind_eq_some_iff] at h
    obtain ⟨p, _, _, _, h⟩ := h
    split at h
    · rename_i receipt _
      rw [Option.some.injEq] at h
      rw [← h]
      exact ⟨receipt.marks, rfl⟩
    · rw [Option.some.injEq] at h
      rw [← h]
      exact ⟨p.lostMarks result, rfl⟩
  | lose index result =>
    simp only [exec, Option.bind_eq_bind, Option.bind_eq_some_iff, Option.some.injEq] at h
    obtain ⟨p, _, rfl⟩ := h
    exact ⟨p.lostMarks result, rfl⟩

theorem Runs.mem_log {m : Mark} (h : Runs host guard s s') (hm : m ∈ s.log) : m ∈ s'.log := by
  induction h with
  | refl => exact hm
  | tail _ hlast ih =>
    obtain ⟨a, _, he⟩ := hlast
    obtain ⟨marks, hlog⟩ := exec_log he
    rw [hlog]
    exact List.mem_append_left marks ih

end Sys

end SatoshiBridge
