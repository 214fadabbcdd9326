import SatoshiBridge.Properties.BurnCallbacks
import SatoshiBridge.Treasury.Executions

/-!
# The accounts along runs

Every action of the two contracts keeps their links and their accounts: those of the bridge book
what the promise or the transfer they continue has left, those of the token move what is in flight.
A strict run loses no callback and computes no sum that does not fit its type, so that every
executed burn is confirmed.
-/

set_option autoImplicit false
set_option relaxedAutoImplicit false

namespace SatoshiBridge

theorem Cause.before_call (env : Env) (method : Method) (l : Ledger) :
    (Cause.call env method).before l = l := by
  unfold Cause.before
  rw [show (Cause.call env method).taken = 0 from rfl, zero_add]

namespace World

variable {σ : Setting} {w w' : World σ} {strict : Prop}

/-- What the states of a run keep. -/
structure Solvent (strict : Prop) (w : World σ) : Prop where
  linked : w.Linked
  accounts : ∃ paid, Accounts strict w paid none 0 0

/-! ### The first state -/

theorem Solvent.initial (standard : σ.ft.Standard) (h : w.Initial) : Solvent strict w := by
  obtain ⟨env, config, controller, hnew, htoken, hnbtc, hinflight, hflows, hlog⟩ := h
  have hsys : w.sys.Initial := by
    refine ⟨env, config, hnew, ?_, hlog⟩
    unfold sys
    rw [hinflight]
    rfl
  have hledger : w.sys.ledger.Initial ∧ w.sys.WellShaped σ.host := Sys.Initial.ledger hsys
  simp only [NbtcContract.new, Option.bind_eq_bind, Option.bind_eq_some_iff,
    Option.some.injEq] at hnbtc
  obtain ⟨token, hregister, hcontract⟩ := hnbtc
  have hregistered := standard.internalRegisterAccount hregister
  rw [standard.new_accounts] at hregistered
  obtain ⟨_, hsupply, hkept⟩ := Balances.register_spec hregistered
  refine ⟨?_, ∅, ?_⟩
  · exact {
      reachable := .start hsys
      token := by rw [(Contract.new_config hnew).1]; exact htoken
      promises := by
        intro p hp
        rw [hledger.1.inflight] at hp
        exact absurd hp (Multiset.notMem_zero p)
      bridgeId := by rw [← hcontract]
      registered := by
        rw [← hcontract]
        exact hkept _ (Or.inl rfl)
      stages := by
        intro x hx
        rw [hinflight] at hx
        cases hx }
  · have hsum (g : Promise → Stage → ℕ) : w.sum g = 0 := by
      unfold sum
      rw [hinflight]
      rfl
    have hdemands : w.demands = 0 := by
      unfold demands
      rw [hflows]
      rfl
    have howes : w.sys.ledger.owes = 0 := by
      unfold Ledger.owes
      rw [hledger.1.fees, hledger.1.pendings, hledger.1.lostFound]
      rfl
    have htotal : w.totalSupply = 0 := by
      unfold totalSupply
      rw [standard.ftTotalSupply, ← hcontract]
      exact hsupply
    refine {
      tokens := ?_
      supply := ?_
      unsettled := fun id hid ↦ absurd hid (Finset.notMem_empty id)
      executed := ?_
      confirmed := nofun
      awaited := fun _ id hid ↦ absurd hid (Finset.notMem_empty id) }
    · rw [hsum, hdemands, howes]
      exact Nat.zero_le _
    · rw [hsum, htotal]
      exact Nat.zero_le _
    · intro x hx
      rw [hinflight] at hx
      cases hx

/-! ### Steps of the bridge -/

theorem mem_apply {receipt : Receipt} {x : Promise × Stage} (hx : x ∈ (w.apply receipt).inflight) :
    x ∈ w.inflight ∨ x.2 = .waiting := by
  rcases List.mem_append.mp hx with hold | hnew
  · exact Or.inl hold
  · obtain ⟨p, _, rfl⟩ := List.mem_map.mp hnew
    exact Or.inr rfl

/-- A call books the tokens that come with it. -/
theorem Solvent.called {env : Env} (method : Method) {receipt : Receipt} (laws : σ.host.Lawful)
    {paid : Finset Txid} (hlinked : w.Linked)
    (hpaid : Accounts strict w paid none (Cause.call env method).owed 0)
    (honce : AttestsOnce (w.apply receipt).log)
    (hallowed : Sys.Allowed σ.host Sys.never w.sys (.call env method))
    (hkeep : ∀ update, method = .updateConfig update → ∀ id ∈ update.nbtcAccountId, id = σ.nbtcId)
    (hcall : w.contract.call σ.host env method = some receipt) :
    Solvent strict (w.apply receipt) := by
  have hexec : w.sys.exec σ.host (.call env method) = some (w.apply receipt).sys := by
    have hsame : w.sys.contract.call σ.host env method = some receipt := hcall
    rw [sys_apply, Sys.exec, hsame]
    rfl
  have htoken : receipt.contract.config.nbtcAccountId = w.contract.config.nbtcAccountId := by
    refine call_token (fun update hupdate id hid ↦ ?_) hcall
    rw [hlinked.token]
    exact hkeep update hupdate id hid
  have hlinked' : (w.apply receipt).Linked :=
    hlinked.step laws _ hallowed hexec rfl (fun _ _ _ ↦ htoken) fun _ hx ↦ mem_apply hx
  have hreached : Ledger.Reached σ.host Ledger.Unfinished
      ((Cause.call env method).before w.sys.ledger) := by
    rw [Cause.before_call]
    exact hlinked.reached laws
  exact ⟨hlinked', _, hpaid.apply (.call env method) laws hreached
    (hlinked'.reached laws) honce (hlinked.call_effect laws hallowed hcall)
    fun p hp ↦ absurd hp (Multiset.notMem_zero p)⟩

theorem Solvent.call (h : Solvent strict w) (laws : σ.host.Lawful) {env : Env} {method : Method}
    {receipt : Receipt} (hother : env.predecessor ≠ σ.nbtcId)
    (hallowed : w.Allowed Sys.never (.call env method))
    (hcall : w.contract.call σ.host env method = some receipt)
    (honce : AttestsOnce (w.apply receipt).log) : Solvent strict (w.apply receipt) := by
  have howed : (Cause.call env method).owed = 0 := by
    cases method with
    | ftOnTransfer senderId amount msg =>
      have hpredecessor := ftOnTransfer_predecessor hcall
      rw [h.linked.token] at hpredecessor
      exact absurd hpredecessor hother
    | _ => rfl
  obtain ⟨paid, hpaid⟩ := h.accounts
  have hbrought : Accounts strict w paid none (Cause.call env method).owed 0 := by
    rw [howed]
    exact hpaid
  obtain ⟨hmay, hkeep⟩ := hallowed.call
  exact called method laws h.linked hbrought honce hmay hkeep hcall

/-- The answer of a call books what its promise has left. -/
theorem Linked.answered (h : w.Linked) {index : ℕ} {p : Promise} {stage : Stage}
    {result : PromiseResult} (hp : w.inflight[index]? = some (p, stage))
    (hanswered : Answered σ p stage result) :
    p.owed stage = p.owed (.answered result) ∧ p.unminted stage = p.unminted (.answered result) ∧
      p.unburnt stage = 0 ∧
      (if stage.succeeded then p.burns else none) = if result.isSuccess then p.burns else none := by
  have hgoes := h.promises p (Multiset.mem_coe.mpr (List.mem_of_getElem? (sys_getElem? hp)))
  cases hcall : p.nbtcCall with
  | some call =>
    have hstage := hanswered.1 call hcall (hgoes.token call hcall)
    rw [hstage]
    refine ⟨rfl, rfl, ?_, rfl⟩
    cases p <;> rfl
  | none =>
    cases p with
    | mint | safeMint | burnDetached | withdrawBurn | activeUtxoManagementBurn | transferNbtc
    | withdrawProtocolFee => cases hcall
    | _ => exact ⟨rfl, rfl, rfl, by rw [show Promise.burns _ = none from rfl, ite_self, ite_self]⟩

/-- A transfer that the bridge keeps takes nothing back. -/
theorem demand_kept (bridge senderId receiverId : AccountId) (amount : ℕ) :
    (Flow.resolve senderId receiverId amount (.value (.u128 0))).demand bridge = 0 := by
  change (if bridge = receiverId then min amount 0 else 0) = 0
  rw [Nat.min_zero, ite_self]

theorem resolutions_demand {env : Env} {p : Promise} {result : PromiseResult} {receipt : Receipt}
    (h : w.contract.callback σ.host env result p = some receipt) :
    demandOf σ.host.currentAccountId
      (resolutions receipt.returns fun result ↦ resolution σ result p) = 0 := by
  cases p with
  | ftOnTransfer senderId amount target input output maxGasFee data =>
    have hreturns : receipt.returns = some (.u128 0) := ftOnTransferCallback_returns h
    rw [hreturns]
    exact (demandOf_singleton _ _).trans (demand_kept _ _ _ _)
  | _ =>
    unfold resolutions
    split
    · rfl
    · rfl

/-- The transfer whose call got no answer may be taken back in full. -/
theorem resolution_demand (p : Promise) (result : PromiseResult) (stage : Stage) :
    demandOf σ.host.currentAccountId (resolution σ result p) ≤ p.owed stage := by
  cases p with
  | ftOnTransfer senderId amount target input output maxGasFee data =>
    change demandOf _ [.resolve senderId σ.host.currentAccountId amount result] ≤ amount
    rw [demandOf_singleton]
    change (if _ then unusedAmount amount result else 0) ≤ amount
    rw [if_pos rfl]
    exact unusedAmount_le amount result
  | _ => exact Nat.zero_le _

section Callback

variable {index : ℕ} {p : Promise} {stage : Stage} {result : PromiseResult}

/-- A callback whose effect is lost leaves an executed burn behind. -/
theorem Solvent.dropped (h : Solvent strict w) (laws : σ.host.Lawful)
    (hp : w.inflight[index]? = some (p, stage)) (hanswered : Answered σ p stage result)
    (hstrict : strict → (if result.isSuccess then p.burns else none) = none) :
    Solvent strict ((w.drop index p result).send (resolution σ .failed p)) := by
  have hexec : w.sys.exec σ.host (.lose index result) = some (w.drop index p result).sys := by
    rw [sys_drop, Sys.exec, sys_getElem? hp]
    rfl
  have hlinked : ((w.drop index p result).send (resolution σ .failed p)).Linked :=
    h.linked.step laws (.lose index result) trivial hexec rfl (fun _ _ heq ↦ by cases heq)
      fun _ hx ↦ Or.inl (mem_take hx)
  obtain ⟨paid, hpaid⟩ := h.accounts
  obtain ⟨_, _, hunburnt, hconfirms⟩ := h.linked.answered hp hanswered
  have htaken := hpaid.take h.linked laws hp hunburnt
  rw [hconfirms] at htaken
  have hdropped := htaken.drop p result hstrict
  exact ⟨hlinked, paid, hdropped.send (resolution_demand p .failed stage)⟩

theorem Solvent.callback (h : Solvent strict w) (laws : σ.host.Lawful) {env : Env}
    (hp : w.inflight[index]? = some (p, stage)) (hanswered : Answered σ p stage result)
    (hfits : strict → result.isSuccess = true → w.contract.SumsFit p)
    (honce : AttestsOnce (w.callback index env p result).log) :
    Solvent strict (w.callback index env p result) := by
  unfold World.callback at honce ⊢
  split at honce
  · rename_i receipt hcallback
    have hexec : w.sys.exec σ.host (.callback index env result) =
        some ((w.take index).apply receipt).sys := by
      have hsame : w.sys.contract.callback σ.host env result p = some receipt := hcallback
      have hrequired : require (p.Answers σ.host result) = some () :=
        require_eq_some.mpr hanswered.2
      rw [sys_apply, sys_take, Sys.exec, sys_getElem? hp]
      simp only [Option.bind_eq_bind, Option.bind_some, hrequired, hsame]
      rfl
    have hlinked : (((w.take index).apply receipt).send
        (resolutions receipt.returns fun result ↦ resolution σ result p)).Linked :=
      h.linked.step laws (.callback index env result) trivial hexec rfl
        (fun _ _ heq ↦ by cases heq) fun _ hx ↦ (mem_apply hx).imp_left mem_take
    obtain ⟨paid, hpaid⟩ := h.accounts
    obtain ⟨howed, hunminted, hunburnt, hconfirms⟩ := h.linked.answered hp hanswered
    have htaken := hpaid.take h.linked laws hp hunburnt
    rw [hconfirms, howed, hunminted] at htaken
    have hreached : Ledger.Reached σ.host Ledger.Unfinished
        ((Cause.answer env p result).before (w.take index).sys.ledger) := by
      rw [← ledger_take hp (.answer env p result) rfl]
      exact h.linked.reached laws
    have hanswers : ∀ q ∈ (Cause.answer env p result).taken, ∀ id ∈ paid, q.burns = some id →
        (Cause.answer env p result).confirms = some id := by
      intro q hq id hid hburns
      rw [Multiset.mem_singleton.mp hq] at hburns
      have hsucceeded := (hpaid.executed _ (List.mem_of_getElem? hp) id hburns).1.mp hid
      rw [if_pos hsucceeded] at hconfirms
      exact hconfirms.symm.trans hburns
    have happlied := Accounts.apply (.answer env p result) htaken laws hreached
      (hlinked.reached laws) honce (h.linked.callback_effect laws hp hanswered.2 hcallback) hanswers
    exact ⟨hlinked, _, happlied.send (resolutions_demand (w := w) hcallback).le⟩
  · rename_i hcallback
    refine h.dropped laws hp hanswered fun hstrict ↦ ?_
    have honce₀ : AttestsOnce w.log := honce.of_append
    split
    · rename_i hsuccess
      cases hburns : p.burns with
      | none => rfl
      | some id =>
        -- The callback of a burn whose sums fit never panics.
        have hmem : p ∈ w.sys.ledger.inflight :=
          Multiset.mem_coe.mpr (List.mem_of_getElem? (sys_getElem? hp))
        have hkeyed := (h.linked.reachable.wellShaped laws.toReadsAddresses).keyed
        obtain ⟨_, _, _, _, _, hsettles⟩ := Contract.settlesBurn laws hkeyed
          (h.linked.reached laws) honce₀ hmem hburns (hfits hstrict hsuccess)
        obtain ⟨receipt, hreceipt, _⟩ := hsettles env result
        have hanswer : w.contract.callback σ.host env result p = some receipt := hreceipt
        rw [hcallback] at hanswer
        cases hanswer
    · rfl

end Callback

/-- Receipts of the token without a demand. -/
theorem Solvent.send (h : Solvent strict w) {flows : List Flow}
    (hflows : demandOf σ.host.currentAccountId flows = 0) : Solvent strict (w.send flows) where
  linked := h.linked.still (w.send flows) rfl (.refl w.nbtc) h.linked.stages
  accounts := by
    obtain ⟨paid, hpaid⟩ := h.accounts
    exact ⟨paid, hpaid.send hflows.le⟩

/-- The token calls the bridge, which keeps the transfer or gives it back. -/
theorem Solvent.onTransfer (h : Solvent strict w) (laws : σ.host.Lawful)
    (standard : σ.ft.Standard) {index : ℕ} {env : Env} {t : Transfer}
    (hflow : w.flows[index]? = some (.transfer t))
    (hreceiver : t.receiverId = σ.host.currentAccountId)
    (honce : AttestsOnce (w.onTransfer index env t).log) :
    Solvent strict (w.onTransfer index env t) := by
  obtain ⟨paid, hpaid⟩ := h.accounts
  unfold World.onTransfer at honce ⊢
  dsimp only at honce ⊢
  split at honce
  · rename_i receipt hreceipt
    simp only [Option.bind_eq_bind, Option.bind_eq_some_iff] at hreceipt
    obtain ⟨msg, _, hcall⟩ := hreceipt
    have hdemand : (Flow.transfer t).demand σ.host.currentAccountId = t.amount :=
      if_pos hreceiver.symm
    have hlinked : ({ w with flows := w.flows.eraseIdx index } : World σ).Linked :=
      h.linked.still _ rfl (.refl w.nbtc) h.linked.stages
    have hcalled : Solvent strict
        (({ w with flows := w.flows.eraseIdx index } : World σ).apply receipt) := by
      have hreceived := hpaid.receive hflow
      rw [hdemand] at hreceived
      exact Solvent.called (.ftOnTransfer t.senderId t.amount msg) laws hlinked
        hreceived honce trivial (fun _ heq ↦ by cases heq) hcall
    refine hcalled.send ?_
    unfold resolutions
    split
    · rename_i v hreturns
      rw [ftOnTransfer_returns hcall v hreturns]
      exact (demandOf_singleton _ _).trans (demand_kept _ _ _ _)
    · rfl
  · have hdemand := Transfer.demand_resolve σ.host.currentAccountId t .failed
    rw [← demandOf_singleton] at hdemand
    have hpassed := hpaid.pass h.linked standard [t.resolve .failed] hflow hdemand
    exact ⟨hpassed.1, paid, hpassed.2⟩

/-! ### Every step -/

/-- The history only grows. -/
theorem exec_log {w w' : World σ} {action : WorldAction} (h : w.exec action = some w') :
    ∃ marks, w'.log = w.log ++ marks := by
  have hsame (hlog : w'.log = w.log) : ∃ marks, w'.log = w.log ++ marks :=
    ⟨[], hlog.trans (List.append_nil _).symm⟩
  cases action with
  | call env method =>
    simp only [exec, Option.bind_eq_bind, Option.bind_eq_some_iff, Option.some.injEq] at h
    obtain ⟨_, _, receipt, _, rfl⟩ := h
    exact ⟨receipt.marks, rfl⟩
  | callback index env result =>
    simp only [exec, Option.bind_eq_bind, Option.bind_eq_some_iff, Option.some.injEq,
      Prod.exists] at h
    obtain ⟨p, _, _, _, _, rfl⟩ := h
    unfold World.callback
    split
    · exact ⟨_, rfl⟩
    · exact ⟨p.lostMarks result, rfl⟩
  | lose index result =>
    simp only [exec, Option.bind_eq_bind, Option.bind_eq_some_iff, Option.some.injEq,
      Prod.exists] at h
    obtain ⟨p, _, _, _, _, rfl⟩ := h
    exact ⟨p.lostMarks result, rfl⟩
  | execute index =>
    simp only [exec, Option.bind_eq_bind, Option.bind_eq_some_iff, Option.some.injEq,
      Prod.exists] at h
    obtain ⟨p, _, _, call, _, _, _, rfl⟩ := h
    refine hsame ?_
    unfold World.execute
    split
    · rfl
    · rfl
  | fail index =>
    simp only [exec, Option.bind_eq_bind, Option.bind_eq_some_iff, Option.some.injEq,
      Prod.exists] at h
    obtain ⟨p, _, _, call, _, _, _, rfl⟩ := h
    exact hsame rfl
  | receive index result =>
    simp only [exec, Option.bind_eq_bind, Option.bind_eq_some_iff] at h
    obtain ⟨x, _, h⟩ := h
    split at h
    · cases h
      exact hsame rfl
    · cases h
  | resolve index =>
    simp only [exec, Option.bind_eq_bind, Option.bind_eq_some_iff] at h
    obtain ⟨x, _, h⟩ := h
    split at h
    · cases h
      refine hsame ?_
      unfold World.resolve
      split
      · rfl
      · rfl
    · cases h
  | nbtc env method =>
    simp only [exec, Option.bind_eq_bind, Option.bind_eq_some_iff, Option.some.injEq] at h
    obtain ⟨_, _, receipt, _, rfl⟩ := h
    exact hsame rfl
  | onTransfer index env =>
    simp only [exec, Option.bind_eq_bind, Option.bind_eq_some_iff] at h
    obtain ⟨flow, _, h⟩ := h
    split at h
    · simp only [Option.bind_eq_some_iff, Option.some.injEq] at h
      obtain ⟨_, _, rfl⟩ := h
      unfold World.onTransfer
      dsimp only
      split
      · exact ⟨_, rfl⟩
      · exact ⟨[], (List.append_nil w.log).symm⟩
    · cases h
  | answer index result =>
    simp only [exec, Option.bind_eq_bind, Option.bind_eq_some_iff] at h
    obtain ⟨flow, _, h⟩ := h
    split at h
    · simp only [Option.bind_eq_some_iff, Option.some.injEq] at h
      obtain ⟨_, _, rfl⟩ := h
      exact hsame rfl
    · cases h
  | run index prepaidGas =>
    simp only [exec, Option.bind_eq_bind, Option.bind_eq_some_iff, Option.some.injEq,
      Prod.exists] at h
    obtain ⟨flow, _, nbtc, flows, _, rfl⟩ := h
    exact hsame rfl
  | expire index =>
    simp only [exec, Option.bind_eq_bind, Option.bind_eq_some_iff, Option.some.injEq] at h
    obtain ⟨flow, _, _, _, rfl⟩ := h
    exact hsame rfl

/-- A burn that succeeded is answered only while the sums of its callback fit their type. -/
def Fits (w : World σ) : WorldAction → Prop
  | .callback index _ result =>
    result.isSuccess = true → ∀ x ∈ w.inflight[index]?, w.contract.SumsFit x.1
  | _ => True

instance (w : World σ) (action : WorldAction) : Decidable (w.Fits action) :=
  match action with
  | .callback index _ result => inferInstanceAs
      (Decidable (result.isSuccess = true → ∀ x ∈ w.inflight[index]?, w.contract.SumsFit x.1))
  | .call .. | .lose .. | .execute _ | .fail _ | .receive .. | .resolve _ | .nbtc ..
  | .onTransfer .. | .answer .. | .run .. | .expire _ => inferInstanceAs (Decidable True)

/-- The states reached by runs in which no callback runs out of gas and these sums fit. -/
abbrev ReachableFitting (w : World σ) : Prop :=
  Transition.Reachable Initial exec (fun w action ↦ w.Answering action ∧ w.Fits action) w

theorem Answering.allowed {action : WorldAction} (h : w.Answering action) :
    w.Allowed Sys.never action := by
  cases action with
  | lose => trivial
  | _ => exact h

theorem Solvent.step (h : Solvent strict w) (laws : σ.host.Lawful) (standard : σ.ft.Standard)
    {action : WorldAction} (hallowed : w.Allowed Sys.never action)
    (hstrict : strict → w.Answering action ∧ w.Fits action)
    (hexec : w.exec action = some w') (honce : AttestsOnce w'.log) : Solvent strict w' := by
  obtain ⟨paid, hpaid⟩ := h.accounts
  have hkept {w' : World σ} (hstep : w'.Linked ∧ Accounts strict w' paid none 0 0) :
      Solvent strict w' := ⟨hstep.1, paid, hstep.2⟩
  have honce₀ : AttestsOnce w.log := by
    obtain ⟨marks, hlog⟩ := exec_log hexec
    rw [hlog] at honce
    exact honce.of_append
  cases action with
  | call env method =>
    simp only [exec, Option.bind_eq_bind, Option.bind_eq_some_iff, require_eq_some, exists_const,
      Option.some.injEq] at hexec
    obtain ⟨hother, receipt, hcall, rfl⟩ := hexec
    exact h.call laws hother hallowed hcall honce
  | callback index env result =>
    simp only [exec, Option.bind_eq_bind, Option.bind_eq_some_iff, require_eq_some, exists_const,
      Option.some.injEq, Prod.exists] at hexec
    obtain ⟨p, stage, hp, hanswered, rfl⟩ := hexec
    exact h.callback laws hp hanswered (fun hs hsuccess ↦ (hstrict hs).2 hsuccess _ hp) honce
  | lose index result =>
    simp only [exec, Option.bind_eq_bind, Option.bind_eq_some_iff, require_eq_some, exists_const,
      Option.some.injEq, Prod.exists] at hexec
    obtain ⟨p, stage, hp, hanswered, rfl⟩ := hexec
    exact h.dropped laws hp hanswered fun hs ↦ (hstrict hs).1.elim
  | execute index =>
    simp only [exec, Option.bind_eq_bind, Option.bind_eq_some_iff, require_eq_some, exists_const,
      Option.some.injEq, Prod.exists] at hexec
    obtain ⟨p, stage, hp, call, hcall, ⟨_, rfl⟩, rfl⟩ := hexec
    obtain ⟨hlinked, haccounts⟩ := hpaid.execute h.linked laws standard honce₀ hp hcall
    exact ⟨hlinked, haccounts⟩
  | fail index =>
    simp only [exec, Option.bind_eq_bind, Option.bind_eq_some_iff, require_eq_some, exists_const,
      Option.some.injEq, Prod.exists] at hexec
    obtain ⟨p, stage, hp, call, hcall, ⟨_, hstage, hfail⟩, rfl⟩ := hexec
    exact hkept ⟨h.linked.moved _ (.answered .failed) hp (sys_advance hp _) (.refl w.nbtc) rfl
      trivial, hpaid.fail h.linked laws standard hp hcall hstage hfail⟩
  | receive index result =>
    simp only [exec, Option.bind_eq_bind, Option.bind_eq_some_iff] at hexec
    obtain ⟨x, hp, hexec⟩ := hexec
    split at hexec
    · cases hexec
      exact hkept (hpaid.receiver_answers h.linked laws standard hp result)
    · cases hexec
  | resolve index =>
    simp only [exec, Option.bind_eq_bind, Option.bind_eq_some_iff] at hexec
    obtain ⟨x, hp, hexec⟩ := hexec
    split at hexec
    · cases hexec
      exact hkept (hpaid.resolve_mint h.linked laws standard hp)
    · cases hexec
  | nbtc env method =>
    simp only [exec, Option.bind_eq_bind, Option.bind_eq_some_iff, require_eq_some, exists_const,
      Option.some.injEq] at hexec
    obtain ⟨⟨_, hother⟩, receipt, hcall, hw'⟩ := hexec
    exact hkept (hpaid.call_nbtc h.linked standard hother hcall hw'.symm)
  | onTransfer index env =>
    simp only [exec, Option.bind_eq_bind, Option.bind_eq_some_iff] at hexec
    obtain ⟨flow, hflow, hexec⟩ := hexec
    split at hexec
    · simp only [Option.bind_eq_some_iff, require_eq_some, exists_const,
        Option.some.injEq] at hexec
      obtain ⟨⟨hreceiver, _⟩, rfl⟩ := hexec
      exact h.onTransfer laws standard hflow hreceiver honce
    · cases hexec
  | answer index result =>
    simp only [exec, Option.bind_eq_bind, Option.bind_eq_some_iff] at hexec
    obtain ⟨flow, hflow, hexec⟩ := hexec
    split at hexec
    · simp only [Option.bind_eq_some_iff, require_eq_some, exists_const,
        Option.some.injEq] at hexec
      obtain ⟨_, rfl⟩ := hexec
      refine hkept (hpaid.pass h.linked standard _ hflow ?_)
      rw [demandOf_singleton]
      exact Transfer.demand_resolve _ _ result
    · cases hexec
  | run index prepaidGas =>
    simp only [exec, Option.bind_eq_bind, Option.bind_eq_some_iff, Option.some.injEq,
      Prod.exists] at hexec
    obtain ⟨flow, hflow, nbtc, flows, hrun, hw'⟩ := hexec
    exact hkept (hpaid.run h.linked standard hflow hrun hw'.symm)
  | expire index =>
    simp only [exec, Option.bind_eq_bind, Option.bind_eq_some_iff, require_eq_some, exists_const,
      Option.some.injEq] at hexec
    obtain ⟨flow, hflow, _, rfl⟩ := hexec
    exact hkept (hpaid.pass h.linked standard _ hflow (Nat.zero_le _))

/-- Every run keeps the accounts, while the light client attests one transaction of a family. -/
theorem Solvent.of_runs (laws : σ.host.Lawful) (standard : σ.ft.Standard)
    {allowed : World σ → WorldAction → Prop}
    (hallowed : ∀ w action, allowed w action → Allowed Sys.never w action ∧
      (strict → Answering w action ∧ Fits w action))
    (h : Transition.Reachable Initial exec allowed w) (honce : AttestsOnce w.log) :
    Solvent strict w := by
  have hinit : ∀ w : World σ, w.Initial → AttestsOnce w.log → Solvent strict w :=
    fun _ h₀ _ ↦ .initial standard h₀
  refine Transition.Reachable.induct hinit ?_ w h honce
  intro w action w' _ hw ha hexec honce
  have honce₀ : AttestsOnce w.log := by
    obtain ⟨marks, hlog⟩ := exec_log hexec
    rw [hlog] at honce
    exact honce.of_append
  obtain ⟨hmay, hstrict⟩ := hallowed w action ha
  exact (hw honce₀).step laws standard hmay hstrict hexec honce

end World

end SatoshiBridge
