import SatoshiBridge.Library.History
import SatoshiBridge.Ledger.Frame
import SatoshiBridge.Ledger.Simulation
import SatoshiBridge.Origins.Receipts

/-!
# Where promises and transactions of a run come from

In every run of the bridge, however it is guarded: a promise in flight that is asked for was asked
for by a call of the run, and a transaction in the history was created by a step of the run that
went on with such a promise.
-/

set_option autoImplicit false
set_option relaxedAutoImplicit false

namespace SatoshiBridge.Sys

open Transition (Once)

/-- The steps of a run. -/
abbrev Steps := List (Transition.Record Sys Action)

/-- The runs that keep to the guard, with their steps. -/
abbrev History (host : Host) (guard : Guard) (steps : Steps) (s : Sys) : Prop :=
  Transition.History Initial (exec host) (Allowed host guard) steps s

variable {host : Host} {guard : Guard} {s s' : Sys} {steps : Steps}

/-! ### Events -/

/-- A call of the bridge was accepted. -/
def Accepts (call : Contract → Env → Method → Prop) : Transition.Event Sys Action :=
  fun before a _ ↦ ∃ env method, a = .call env method ∧ call before.contract env method

theorem accepts_imp {call call' : Contract → Env → Method → Prop}
    (h : Once (Accepts call) steps)
    (himp : ∀ c env method, call c env method → call' c env method) :
    Once (Accepts call') steps := by
  refine h.imp fun before a after hcall ↦ ?_
  obtain ⟨env, method, ha, hcall⟩ := hcall
  exact ⟨env, method, ha, himp before.contract env method hcall⟩

/-- A call asked for the promise. -/
abbrev Asks (host : Host) (p : Promise) : Transition.Event Sys Action :=
  Accepts fun c env method ↦ c.Requests host env method p

/-- The receipt in which an action goes on with a request, and the block height it knows. -/
inductive Resumes : Action → Env → Option ℕ → Prop
  | call (env : Env) (method : Method) : Resumes (.call env method) env none
  | callback (index : ℕ) (env : Env) (result : PromiseResult) (height : ℕ)
      (hheight : result.expectHeight = some height) :
      Resumes (.callback index env result) env (some height)

/-- The step entered the mark in the history. -/
def Enters (m : Mark) (before after : Sys) : Prop :=
  ∃ marks, after.log = before.log ++ marks ∧ m ∈ marks

/-- The step created the transaction: it went on with a promise in flight, or with what it asked
for. -/
structure Continues (host : Host) (p : Promise) (info : BTCPendingInfo) (payee : Option String)
    (before : Sys) (a : Action) (after : Sys) : Prop where
  source : p ∈ before.inflight ∨ Asks host p before a after
  entered : Enters (.created info payee) before after
  resumed : ∃ env height receipt, Resumes a env height ∧ height.isSome = host.zcash ∧
    before.contract.resume host env height p = some receipt ∧
    Mark.created info payee ∈ receipt.marks

/-! ### Promises -/

/-- A step brings in the promises its call asks for, and no others that were asked for. -/
theorem exec_promises {a : Action} {p : Promise} (he : s.exec host a = some s')
    (hp : p ∈ s'.inflight) (hasked : p.asked = true) :
    p ∈ s.inflight ∨ Asks host p s a s' ∧ (p.creates = true → host.zcash = true) := by
  cases a with
  | call env method =>
    simp only [exec, Option.bind_eq_bind, Option.bind_eq_some_iff, Option.some.injEq] at he
    obtain ⟨receipt, hcall, rfl⟩ := he
    obtain ⟨hfollows, _⟩ := call_receipt hcall
    rcases List.mem_append.mp hp with hold | hnew
    · exact Or.inl hold
    · exact Or.inr ⟨⟨env, method, rfl, hfollows.promises p hnew hasked⟩, hfollows.awaits p hnew⟩
  | callback index env result =>
    simp only [exec, Option.bind_eq_bind, Option.bind_eq_some_iff, require_eq_some,
      exists_and_left, exists_const] at he
    obtain ⟨q, hq, _, he⟩ := he
    left
    split at he
    · rename_i receipt hcallback
      rw [Option.some.injEq] at he
      rw [← he] at hp
      rcases List.mem_append.mp hp with hold | hnew
      · exact List.mem_of_mem_eraseIdx hold
      · rcases callback_receipt hcallback with ⟨hplain, _⟩ | ⟨height, _, hresume⟩
        · rw [hplain.promises p hnew] at hasked
          cases hasked
        · rw [(resume_creates hresume).promises] at hnew
          exact absurd hnew List.not_mem_nil
    · rw [Option.some.injEq] at he
      rw [← he] at hp
      exact List.mem_of_mem_eraseIdx hp
  | lose index result =>
    simp only [exec, Option.bind_eq_bind, Option.bind_eq_some_iff, Option.some.injEq] at he
    obtain ⟨q, _, rfl⟩ := he
    exact Or.inl (List.mem_of_mem_eraseIdx hp)

/-- A promise in flight that is asked for was asked for by a call. -/
theorem History.asked {p : Promise} (hasked : p.asked = true) :
    ∀ steps s, History host guard steps s → p ∈ s.inflight → Once (Asks host p) steps := by
  refine Transition.History.once ?_ ?_
  · rintro s ⟨_, _, _, hinflight, _⟩ hmem
    rw [hinflight] at hmem
    exact absurd hmem List.not_mem_nil
  · intro _ s a s' _ _ he hmem
    exact (exec_promises he hmem hasked).imp_right And.left

/-- Only the Zcash build waits before it creates a transaction. -/
theorem Reachable.awaits : ∀ s, Reachable host guard s → ∀ p ∈ s.inflight, p.creates = true →
    host.zcash = true := by
  refine Transition.Reachable.induct ?_ ?_
  · rintro s ⟨_, _, _, hinflight, _⟩ p hp
    rw [hinflight] at hp
    exact absurd hp List.not_mem_nil
  · intro s a s' _ ih _ he p hp hcreates
    rcases exec_promises he hp (Promise.asked_of_creates hcreates) with hold | ⟨_, hawaits⟩
    · exact ih p hold hcreates
    · exact hawaits hcreates

/-! ### Transactions -/

theorem created_notMem_lostMarks {p : Promise} {result : PromiseResult} {info : BTCPendingInfo}
    {payee : Option String} : Mark.created info payee ∉ p.lostMarks result := by
  intro hmem
  obtain ⟨_, _, habsurd⟩ := Promise.mem_lostMarks.mp hmem
  cases habsurd

theorem creates_of_resume {height : Option ℕ} {env : Env} {c : Contract} {p : Promise}
    {receipt : Receipt} (h : c.resume host env height p = some receipt) : p.creates = true := by
  cases p with
  | ftOnTransfer | activeUtxoManagement | rbf | executeRefund => rfl
  | _ => cases h

/-- A transaction that a step enters in the history was created by going on with a request. -/
theorem exec_continues {a : Action} {info : BTCPendingInfo} {payee : Option String}
    (hawaits : ∀ p ∈ s.inflight, p.creates = true → host.zcash = true)
    (he : s.exec host a = some s') (hcreated : Mark.created info payee ∈ s'.log) :
    Mark.created info payee ∈ s.log ∨ ∃ p, Continues host p info payee s a s' := by
  cases a with
  | call env method =>
    simp only [exec, Option.bind_eq_bind, Option.bind_eq_some_iff, Option.some.injEq] at he
    obtain ⟨receipt, hcall, rfl⟩ := he
    rcases List.mem_append.mp hcreated with hold | hnew
    · exact Or.inl hold
    · obtain ⟨p, hbuild, hrequests, hresume⟩ := (call_receipt hcall).1.marks info payee hnew
      refine Or.inr ⟨p, Or.inr ⟨env, method, rfl, hrequests⟩, ⟨receipt.marks, rfl, hnew⟩, env,
        none, receipt, .call env method, ?_, hresume, hnew⟩
      rw [hbuild]
      rfl
  | callback index env result =>
    simp only [exec, Option.bind_eq_bind, Option.bind_eq_some_iff, require_eq_some,
      exists_and_left, exists_const] at he
    obtain ⟨p, hp, _, he⟩ := he
    have hmem := List.mem_of_getElem? hp
    split at he
    · rename_i receipt hcallback
      rw [Option.some.injEq] at he
      subst he
      rcases List.mem_append.mp hcreated with hold | hnew
      · exact Or.inl hold
      · rcases callback_receipt hcallback with ⟨hplain, _⟩ | ⟨height, hheight, hresume⟩
        · exact absurd hnew (hplain.marks info payee)
        · refine Or.inr ⟨p, Or.inl hmem, ⟨receipt.marks, rfl, hnew⟩, env, some height, receipt,
            .callback index env result height hheight, ?_, hresume, hnew⟩
          exact (hawaits p hmem (creates_of_resume hresume)).symm
    · rw [Option.some.injEq] at he
      rw [← he] at hcreated
      rcases List.mem_append.mp hcreated with hold | hnew
      · exact Or.inl hold
      · exact absurd hnew created_notMem_lostMarks
  | lose index result =>
    simp only [exec, Option.bind_eq_bind, Option.bind_eq_some_iff, Option.some.injEq] at he
    obtain ⟨p, _, rfl⟩ := he
    rcases List.mem_append.mp hcreated with hold | hnew
    · exact Or.inl hold
    · exact absurd hnew created_notMem_lostMarks

theorem Continues.creates_promise {a : Action} {p : Promise} {info : BTCPendingInfo}
    {payee : Option String} (h : Continues host p info payee s a s') : p.creates = true := by
  obtain ⟨_, _, _, _, _, hresume, _⟩ := h.resumed
  exact creates_of_resume hresume

/-- The request that a step goes on with has been asked for. -/
theorem History.requested {a : Action} {p : Promise} {info : BTCPendingInfo}
    {payee : Option String} (h : History host guard steps s)
    (hcontinues : Continues host p info payee s a s') :
    Once (Asks host p) (⟨s, a, s'⟩ :: steps) := by
  have hasked := Promise.asked_of_creates hcontinues.creates_promise
  rcases hcontinues.source with hmem | hasks
  · exact (History.asked hasked steps s h hmem).later
  · exact .now hasks

/-- Every transaction of a run was created by a step that went on with a request of the run. -/
theorem History.created {info : BTCPendingInfo} {payee : Option String}
    (h : History host guard steps s) (hcreated : Mark.created info payee ∈ s.log) :
    ∃ p, Once (Continues host p info payee) steps ∧ Once (Asks host p) steps := by
  induction h with
  | start hs =>
    obtain ⟨_, _, _, _, hlog⟩ := hs
    rw [hlog] at hcreated
    exact absurd hcreated List.not_mem_nil
  | next h ha he ih =>
    rcases exec_continues (Reachable.awaits _ h.reachable) he hcreated with hold | ⟨p, hcontinues⟩
    · obtain ⟨p, hcontinues, hasked⟩ := ih hold
      exact ⟨p, hcontinues.later, hasked.later⟩
    · exact ⟨p, .now hcontinues, History.requested h hcontinues⟩

/-! ### Causes -/

/-- What an action causes: its call, the answer to its promise, or the loss of that answer. -/
inductive Causes (host : Host) (s s' : Sys) : Action → Cause → Prop
  | call (env : Env) (method : Method) : Causes host s s' (.call env method) (.call env method)
  | answer (index : ℕ) (env : Env) (p : Promise) (result : PromiseResult) (receipt : Receipt)
      (hp : s.inflight[index]? = some p)
      (hcallback : s.contract.callback host env result p = some receipt)
      (hafter : s' = s.apply (s.inflight.eraseIdx index) receipt) :
      Causes host s s' (.callback index env result) (.answer env p result)
  | lost (a : Action) (p : Promise) (result : PromiseResult) : Causes host s s' a (.lost p result)

/-- What an action leaves of the promises in flight. -/
def rest {α : Type} : Action → List α → List α
  | .call .., inflight => inflight
  | .callback index .., inflight | .lose index _, inflight => inflight.eraseIdx index

/-- Every action is a step of the ledger for what it causes. -/
theorem exec_cause (laws : host.ReadsAddresses) (hs : s.WellShaped host) {a : Action}
    (he : s.exec host a = some s') : ∃ cause mid, s.ledger = Cause.before cause mid ∧
      Effect host (fun _ _ ↦ True) cause mid s'.ledger ∧ Causes host s s' a cause ∧
      mid.inflight = rest a s.inflight := by
  have htake {index : ℕ} {p : Promise} {cause : Cause} (hp : s.inflight[index]? = some p)
      (hcause : cause.taken = {p}) :
      s.ledger = Cause.before cause (s.contract.ledger (s.inflight.eraseIdx index) s.log) := by
    have hinflight : (s.inflight : Multiset Promise) =
        {p} + (s.inflight.eraseIdx index : Multiset Promise) := by
      obtain ⟨hlt, rfl⟩ := List.getElem?_eq_some_iff.mp hp
      rw [Multiset.singleton_add, Multiset.cons_coe, Multiset.coe_eq_coe]
      exact (List.getElem_cons_eraseIdx_perm hlt).symm
    unfold Sys.ledger Cause.before
    rw [hinflight, hcause]
    rfl
  have happly {inflight : List Promise} {cause : Cause} {receipt : Receipt}
      (hsim : Simulates host (fun _ _ ↦ True) cause s.contract inflight s.log receipt) :
      Effect host (fun _ _ ↦ True) cause (s.contract.ledger inflight s.log)
        (s.apply inflight receipt).ledger := by
    refine hsim.1.of_eq ?_
    simp only [Sys.ledger, Sys.apply, ← Multiset.coe_add, add_comm]
  cases a with
  | call env method =>
    simp only [exec, Option.bind_eq_bind, Option.bind_eq_some_iff, Option.some.injEq] at he
    obtain ⟨receipt, hcall, rfl⟩ := he
    refine ⟨.call env method, s.ledger, ?_, happly ?_, .call env method, rfl⟩
    · simp only [Cause.before, Cause.taken, zero_add]
    · exact call_simulates laws hs.keyed (fun _ _ _ _ _ _ _ ↦ trivial) hcall
  | callback index env result =>
    simp only [exec, Option.bind_eq_bind, Option.bind_eq_some_iff, require_eq_some,
      exists_and_left, exists_const] at he
    obtain ⟨p, hp, hanswers, he⟩ := he
    split at he
    · rename_i receipt hcallback
      rw [Option.some.injEq] at he
      subst he
      have hshaped : p.Shaped host :=
        hs.shaped p (Multiset.mem_coe.mpr (List.mem_of_getElem? hp))
      refine ⟨.answer env p result, _, htake hp rfl, happly ?_, .answer index env p result receipt
        hp hcallback rfl, rfl⟩
      exact callback_simulates laws hs.keyed hshaped hanswers hcallback
    · rw [Option.some.injEq] at he
      subst he
      exact ⟨.lost p result, _, htake hp rfl, .lose p result, .lost _ p result, rfl⟩
  | lose index result =>
    simp only [exec, Option.bind_eq_bind, Option.bind_eq_some_iff, Option.some.injEq] at he
    obtain ⟨p, hp, rfl⟩ := he
    exact ⟨.lost p result, _, htake hp rfl, .lose p result, .lost _ p result, rfl⟩

end SatoshiBridge.Sys
