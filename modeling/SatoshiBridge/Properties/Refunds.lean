import SatoshiBridge.Properties.DepositUses

/-!
# Refunds follow their requests

A refund spends the outpoint of its deposit and pays the address of the request it executes, not
before the timelock that was configured when `execute_refund` was called. On the Zcash build the
request may be rejected and made again before the block height arrives; the outpoint still names one
deposit message, and with it one timelock.
-/

set_option autoImplicit false
set_option relaxedAutoImplicit false

namespace SatoshiBridge

variable {host : Host} {Completes : Ledger → OutPoint → Prop} {cause : Cause} {l l' : Ledger}

/-! ### Created refunds -/

theorem Effect.createdRefund (h : Effect host Completes cause l l') {info : BTCPendingInfo}
    {payee : Option String} (hm : Mark.created info payee ∈ l'.log)
    (hrefund : info.state.isRefund = true) :
    Mark.created info payee ∈ l.log ∨
      ∃ call request nowSec, Mark.refundCreated call request info nowSec ∈ l'.log := by
  cases h with
  | create cause new payee' rest fees accounts hcreates =>
    simp only [List.mem_append, List.mem_cons, List.not_mem_nil, reduceCtorEq, or_false, false_or,
      Mark.created.injEq] at hm
    rcases hm with hm | ⟨rfl, rfl⟩
    · exact Or.inl hm
    · rw [hcreates.isRefund] at hrefund
      cases hrefund
  | replace cause root o o' new payee' extra fees hreplaces =>
    simp only [List.mem_append, List.mem_cons, List.not_mem_nil, or_false,
      Mark.created.injEq] at hm
    rcases hm with hm | ⟨rfl, rfl⟩
    · exact Or.inl hm
    · rw [hreplaces.isRefund] at hrefund
      cases hrefund
  | refund cause call request new nowSec accounts hcall hcreates =>
    simp only [List.mem_append, List.mem_cons, List.not_mem_nil, reduceCtorEq, or_false,
      Mark.created.injEq] at hm
    rcases hm with hm | ⟨rfl, rfl⟩
    · exact Or.inl hm
    · exact Or.inr ⟨call, request, nowSec, by simp⟩
  | lose p result =>
    rcases List.mem_append.mp hm with hm | hm
    · exact Or.inl hm
    · obtain ⟨_, _, heq⟩ := Promise.mem_lostMarks.mp hm
      cases heq
  | _ => exact Or.inl (by simpa [Ledger.settle] using hm)

/-- Every refund ever created has a request it executes. -/
theorem Ledger.Reached.createdRefund {l : Ledger} (h : Ledger.Reached host Completes l)
    {info : BTCPendingInfo} {payee : Option String} (hm : Mark.created info payee ∈ l.log)
    (hrefund : info.state.isRefund = true) :
    ∃ call request nowSec, Mark.refundCreated call request info nowSec ∈ l.log := by
  have hinit : ∀ l : Ledger, l.Initial → ∀ info payee, Mark.created info payee ∈ l.log →
      info.state.isRefund = true →
        ∃ call request nowSec, Mark.refundCreated call request info nowSec ∈ l.log := by
    intro l hl info payee hm _
    rw [hl.log] at hm
    exact absurd hm List.not_mem_nil
  refine Ledger.Reached.induct hinit ?_ l h info payee hm hrefund
  intro cause l l' _ ih heffect info payee hm hrefund
  rcases heffect.createdRefund hm hrefund with hm | hcreated
  · obtain ⟨call, request, nowSec, hrefunded⟩ := ih info payee hm hrefund
    exact ⟨call, request, nowSec, heffect.mem_log hrefunded⟩
  · exact hcreated

/-- What was resolved does not depend on the promises in flight. -/
theorem Resolved.before {env : Env} {call : ExecuteRefundCall} (cause : Cause)
    (h : Resolved host env l call) : Resolved host env (cause.before l) call := by
  obtain ⟨request, msg, hrequest, hmsg, hresolves⟩ := h
  exact ⟨request, msg, hrequest, hmsg, hresolves.caller, hresolves.isPrivileged,
    hresolves.refundTimelockSec, hresolves.unsafeRefundTimelockSec, hresolves.timelockSec⟩

/-- The timelock a call of `execute_refund` has to respect for a deposit message. -/
def Sys.timelockFor (s : Sys) (env : Env) (msg : DepositMsg) : ℕ :=
  if msg.refundAddress = none then s.contract.config.unsafeRefundTimelockSec
  else if s.contract.aclHasRole .dao env.predecessor = true ∨
      s.contract.aclHasRole .refundOperator env.predecessor = true then 0
  else s.contract.config.refundTimelockSec

theorem Resolves.timelockFor {s : Sys} {env : Env} {msg : DepositMsg} {call : ExecuteRefundCall}
    (h : Resolves env s.ledger msg call) : call.timelockSec = s.timelockFor env msg := by
  have hprivileged : call.isPrivileged = true ↔
      s.contract.aclHasRole .dao env.predecessor = true ∨
        s.contract.aclHasRole .refundOperator env.predecessor = true := by
    rw [h.isPrivileged, Bool.or_eq_true]
    rfl
  rw [h.timelockSec, h.refundTimelockSec, h.unsafeRefundTimelockSec]
  unfold Sys.timelockFor
  cases msg.refundAddress with
  | none => rfl
  | some address =>
    simp only [Option.isSome_some, if_true, reduceCtorEq, if_false, hprivileged]
    rfl

/-- One outpoint, one deposit message. -/
theorem RequestFor.message {chain : Chain} {key : OutPoint} {request request' : RefundRequest}
    (laws : host.Lawful) (h : RequestFor host chain key request)
    (h' : RequestFor host chain key request') :
    request.depositMsg host = request'.depositMsg host := by
  obtain ⟨msg, hmsg, hpays, _⟩ := h.pays
  obtain ⟨msg', hmsg', hpays', _⟩ := h'.pays
  have hsame := hpays.unique laws hpays'
  rw [TxOut.mk.injEq] at hsame
  rw [hmsg, hmsg', laws.depositScript_injective chain hsame.2]

namespace Sys

variable {guard : Guard} {s s' : Sys}

/-! ### The call behind a refund -/

/-- `execute_refund` was called in `s₀`, on the way to `s`, and resolved to `call`. -/
def Called (host : Host) (guard : Guard) (s₀ s : Sys) (call : ExecuteRefundCall) : Prop :=
  ∃ env data s₁, Reachable host guard s₀ ∧
    s₀.exec host (.call env (.executeRefund call.utxoStorageKey data)) = some s₁ ∧
    Runs host guard s₁ s ∧ Resolved host env s₀.ledger call

theorem Called.next {s₀ : Sys} {call : ExecuteRefundCall} {action : Action}
    (h : Called host guard s₀ s call) (hallowed : Allowed host guard s action)
    (hexec : s.exec host action = some s') : Called host guard s₀ s' call := by
  obtain ⟨env, data, s₁, hreach, hcall, hruns, hresolved⟩ := h
  exact ⟨env, data, s₁, hreach, hcall, hruns.tail ⟨action, hallowed, hexec⟩, hresolved⟩

/-- What had happened when the method was called has happened. -/
theorem Called.mem_log {s₀ : Sys} {call : ExecuteRefundCall} {m : Mark}
    (h : Called host guard s₀ s call) (hm : m ∈ s₀.log) : m ∈ s.log := by
  obtain ⟨env, data, s₁, _, hcall, hruns, _⟩ := h
  have hallowed : Allowed host guard s₀ (.call env (.executeRefund call.utxoStorageKey data)) :=
    trivial
  exact Runs.mem_log (.head ⟨_, hallowed, hcall⟩ hruns) hm

/-- The calls behind the refunds that wait for a block height and behind those created, each of
them from before its refund. -/
structure CallsRefunds (host : Host) (guard : Guard) (s : Sys) : Prop where
  waiting : ∀ call data, Promise.executeRefund call data ∈ s.ledger.inflight →
    ∃ s₀, Called host guard s₀ s call
  created : ∀ call request info nowSec, Mark.refundCreated call request info nowSec ∈ s.log →
    ∃ s₀, Called host guard s₀ s call ∧ Mark.refundCreated call request info nowSec ∉ s₀.log

theorem CallsRefunds.initial (h : s.Initial) : s.CallsRefunds host guard := by
  obtain ⟨_, _, _, hinflight, hlog⟩ := h
  refine ⟨fun call data hp ↦ ?_, fun call request info nowSec hm ↦ ?_⟩
  · unfold Sys.ledger at hp
    rw [hinflight] at hp
    exact absurd hp (Multiset.notMem_zero _)
  · rw [hlog] at hm
    exact absurd hm List.not_mem_nil

theorem CallsRefunds.step {action : Action} (laws : host.ReadsAddresses)
    (hreach : Reachable host guard s) (hs : s.CallsRefunds host guard)
    (hallowed : Allowed host guard s action) (hexec : s.exec host action = some s') :
    s'.CallsRefunds host guard := by
  have hany : ∀ s k, guard s k → Ledger.Anytime s.ledger k := fun _ _ _ ↦ trivial
  obtain ⟨cause, mid, hmid, heffect, _, hcaused⟩ :=
    exec_effect laws hany (hreach.wellShaped laws) hallowed hexec
  -- Only a call of the method resolves a timelock, and that call is the action itself.
  have hnew {env : Env} {call : ExecuteRefundCall} {data : Option ChainSpecificData}
      (hcause : cause = .call env (.executeRefund call.utxoStorageKey data))
      (hresolved : Resolved host env mid call) : Called host guard s s' call := by
    cases action with
    | call env' method =>
      change cause = .call env' method at hcaused
      rw [hcaused, Cause.call.injEq] at hcause
      obtain ⟨rfl, rfl⟩ := hcause
      refine ⟨env', data, s', hreach, hexec, .refl, ?_⟩
      rw [hmid]
      exact hresolved.before cause
    | callback | lose => exact absurd hcause (hcaused _ _)
  have hwaiting {call : ExecuteRefundCall} {data : Option ChainSpecificData}
      (hp : Promise.executeRefund call data ∈ cause.taken + mid.inflight) :
      ∃ s₀, Called host guard s₀ s call := by
    refine hs.waiting call data ?_
    rw [hmid]
    exact hp
  have hlog : s.log = mid.log := congrArg Ledger.log hmid
  constructor
  · intro call data hp
    rcases heffect.sent hp with hp | hsent
    · obtain ⟨s₀, hcalled⟩ := hwaiting (Multiset.mem_add.mpr (Or.inr hp))
      exact ⟨s₀, hcalled.next hallowed hexec⟩
    · cases hsent with
      | issued env method hcause hissued =>
        obtain ⟨_, hmethod, hresolved⟩ := hissued
        rw [hmethod] at hcause
        exact ⟨s, hnew hcause hresolved⟩
      | minted env q result info hcause hmints => cases hmints
      | burning env q result txId withdraw info hcause hverifies hpending hrefund hburn =>
        cases hburn
      | detached _ _ _ _ _ hp | transferred _ _ _ hp | claimed _ _ _ hp => cases hp
  · intro call request info nowSec hm
    by_cases hold : Mark.refundCreated call request info nowSec ∈ s.log
    · obtain ⟨s₀, hcalled, hafter⟩ := hs.created call request info nowSec hold
      exact ⟨s₀, hcalled.next hallowed hexec, hafter⟩
    · rw [hlog] at hold
      rcases heffect.refundCreated hm with hm | ⟨_, _, hcause | ⟨env, data, hcause, hresolved⟩⟩
      · exact absurd hm hold
      · obtain ⟨env, data, result, hcause⟩ := hcause
        have htaken : Promise.executeRefund call data ∈ cause.taken := by
          rw [hcause]
          exact Multiset.mem_singleton_self _
        obtain ⟨s₀, hcalled⟩ := hwaiting (Multiset.mem_add.mpr (Or.inl htaken))
        refine ⟨s₀, hcalled.next hallowed hexec, fun hearly ↦ hold ?_⟩
        rw [← hlog]
        exact hcalled.mem_log hearly
      · rw [← hlog] at hold
        exact ⟨s, hnew hcause hresolved, hold⟩

theorem Reachable.callsRefunds (laws : host.ReadsAddresses) (h : Reachable host guard s) :
    s.CallsRefunds host guard :=
  Transition.Reachable.induct (fun _ h₀ ↦ .initial h₀)
    (fun _ _ _ hreach hs hallowed hexec ↦ hs.step laws hreach hallowed hexec) s h

/-- A bridge stays on its chain. -/
theorem exec_chain (laws : host.ReadsAddresses) {action : Action}
    (hreach : Reachable host guard s) (hallowed : Allowed host guard s action)
    (hexec : s.exec host action = some s') : s'.ledger.chain = s.ledger.chain := by
  have hany : ∀ s k, guard s k → Ledger.Anytime s.ledger k := fun _ _ _ ↦ trivial
  obtain ⟨cause, mid, hmid, heffect, _⟩ :=
    exec_effect laws hany (hreach.wellShaped laws) hallowed hexec
  rw [heffect.chain, hmid]
  rfl

theorem Runs.chain (laws : host.ReadsAddresses) (hs : Reachable host guard s)
    (h : Runs host guard s s') : s'.ledger.chain = s.ledger.chain :=
  Transition.Runs.stable (P := fun mid ↦ mid.ledger.chain = s.ledger.chain)
    (fun _ _ _ hreach hchain hallowed hexec ↦
      (exec_chain laws hreach hallowed hexec).trans hchain) hs rfl h

/-! ### Refunds -/

/-- Every refund ever created for a deposit spends the outpoint of the deposit, pays the amount less
the gas to the address of the request it executes, and respects the timelock that was configured
when its own account called `execute_refund` for it: the call came before the refund and resolved to
what the refund was built with. -/
theorem Reachable.refund_follows_request (laws : host.Lawful) (h : Reachable host guard s)
    {info : BTCPendingInfo} {payee : Option String} (hcreated : Mark.created info payee ∈ s.log)
    (hrefund : info.state.isRefund = true) :
    ∃ key request msg call,
      Mark.refundCreated call request info info.createTimeSec ∈ s.log ∧
      (info.inputs = [key] ∧ request.depositMsg host = some msg ∧
        PaysAt host key ⟨request.amount, host.depositScript s.contract.config.chain msg⟩) ∧
      (∃ address, host.parseAddress s.contract.config.chain request.refundAddress = some address ∧
        Pays (fun _ ↦ False) address (request.amount - request.gasFee) info.psbt ∧
        request.gasFee ≤ request.amount ∧
        ∀ refundAddress ∈ msg.refundAddress, request.refundAddress = refundAddress) ∧
      call.utxoStorageKey = key ∧ call.caller = info.accountId ∧
      ∃ s₀ env data s₁, Reachable host guard s₀ ∧
        Mark.refundCreated call request info info.createTimeSec ∉ s₀.log ∧
        s₀.exec host (.call env (.executeRefund key data)) = some s₁ ∧ Runs host guard s₁ s ∧
        env.predecessor = call.caller ∧ Resolved host env s₀.ledger call ∧
        call.timelockSec = s₀.timelockFor env msg ∧
        request.createdAtSec + s₀.timelockFor env msg ≤ info.createTimeSec := by
  have hanytime := h.anytime laws.toReadsAddresses
  obtain ⟨call, request, nowSec, hm⟩ := hanytime.createdRefund hcreated hrefund
  have hrefunds := (hanytime.grounded laws).refunds call request info nowSec hm
  obtain ⟨msg, hmsg, hpays, haddress⟩ := hrefunds.describes.pays
  obtain ⟨msg', _, hvutxos⟩ := hrefunds.vutxos
  obtain ⟨s₀, ⟨env, data, s₁, hreach, hcall, hruns, hresolved⟩, hafter⟩ :=
    (h.callsRefunds laws.toReadsAddresses).created call request info nowSec hm
  obtain ⟨request₀, msg₀, hrequest₀, hmsg₀, hresolves⟩ := hresolved
  -- The request may have been replaced since the call, but not the message of its outpoint.
  have hsame : msg₀ = msg := by
    have hallowed : Allowed host guard s₀ (.call env (.executeRefund call.utxoStorageKey data)) :=
      trivial
    have hnext : Runs host guard s₀ s := .head ⟨_, hallowed, hcall⟩ hruns
    have hchain := hnext.chain laws.toReadsAddresses hreach
    have hrequestFor := ((hreach.anytime laws.toReadsAddresses).grounded laws).requests
      call.utxoStorageKey request₀ hrequest₀
    rw [← hchain] at hrequestFor
    have hmessage := hrequestFor.message laws hrefunds.describes
    rw [hmsg₀, hmsg] at hmessage
    exact Option.some.inj hmessage
  obtain ⟨_, hkind⟩ := hrefunds.payment
  rw [hrefunds.kind] at hkind
  obtain ⟨_, hamount, target, htarget, address, hparse, hpaysTo⟩ := hkind
  have hinput : inputAmount info.vutxos = request.amount := by
    rw [hvutxos]
    exact Nat.add_zero _
  have hgas := hrefunds.gasFee
  have hvalue : info.actualReceivedAmount = request.amount - request.gasFee := by omega
  have htimelock : call.timelockSec = s₀.timelockFor env msg := by
    rw [← hsame]
    exact hresolves.timelockFor
  rw [← hrefunds.createTime] at hm hafter
  refine ⟨call.utxoStorageKey, request, msg, call, hm, ⟨hrefunds.inputs, hmsg, hpays⟩,
    ⟨address, ?_, ?_, ?_, haddress⟩, rfl, hrefunds.account.symm, s₀, env, data, s₁, hreach, hafter,
    hcall, hruns, hresolves.caller.symm, ⟨request₀, msg₀, hrequest₀, hmsg₀, hresolves⟩, htimelock,
    ?_⟩
  · rw [Option.some.inj htarget]
    exact hparse
  · rw [← hvalue]
    exact hpaysTo
  · omega
  · rw [← htimelock, hrefunds.createTime]
    exact hrefunds.time

end Sys

/-- The refund that a mark creates. -/
def Mark.newRefund : Mark → Option (BTCPendingInfo × Option String)
  | created info payee => if info.state.isRefund then some (info, payee) else none
  | _ => none

/-- The refund of the coin of Bob, which a relayer asked for after the timelock. -/
theorem refund_follows_request_bob :
    ∃ (s : Sys) (info : BTCPendingInfo) (key : OutPoint) (request : RefundRequest)
      (msg : DepositMsg) (call : ExecuteRefundCall),
      Sample.after (Sample.sync ++ Sample.requestRefund Sample.bobMsg 2 50 ++
        Sample.executeRefund ⟨0, 2⟩) = some s ∧
      Mark.refundCreated call request info info.createTimeSec ∈ s.log ∧
      (info.inputs = [key] ∧ request.depositMsg (Sample.host false) = some msg ∧
        PaysAt (Sample.host false) key ⟨request.amount,
          (Sample.host false).depositScript s.contract.config.chain msg⟩) ∧
      (∃ address, (Sample.host false).parseAddress s.contract.config.chain request.refundAddress
          = some address ∧
        Pays (fun _ ↦ False) address (request.amount - request.gasFee) info.psbt ∧
        request.gasFee ≤ request.amount ∧
        ∀ refundAddress ∈ msg.refundAddress, request.refundAddress = refundAddress) ∧
      call.utxoStorageKey = key ∧ call.caller = info.accountId ∧
      ∃ s₀ env data s₁, Sys.Reachable (Sample.host false) Sys.always s₀ ∧
        Mark.refundCreated call request info info.createTimeSec ∉ s₀.log ∧
        s₀.exec (Sample.host false) (.call env (.executeRefund key data)) = some s₁ ∧
        Sys.Runs (Sample.host false) Sys.always s₁ s ∧
        env.predecessor = call.caller ∧ Resolved (Sample.host false) env s₀.ledger call ∧
        call.timelockSec = s₀.timelockFor env msg ∧
        request.createdAtSec + s₀.timelockFor env msg ≤ info.createTimeSec := by
  have hrun : ((Sample.after (Sample.sync ++ Sample.requestRefund Sample.bobMsg 2 50 ++
      Sample.executeRefund ⟨0, 2⟩)).bind fun s ↦ s.log.findSome? Mark.newRefund).isSome := by
    decide +kernel
  obtain ⟨⟨info, payee⟩, hsome⟩ := Option.isSome_iff_exists.mp hrun
  obtain ⟨s, hs, hfound⟩ := Option.bind_eq_some_iff.mp hsome
  obtain ⟨m, hm, hnew⟩ := List.exists_of_findSome?_eq_some hfound
  have hreach : Sys.Reachable (Sample.host false) Sys.always s := Sample.reaches (by decide) hs
  cases m with
  | created info' payee' =>
    simp only [Mark.newRefund, Option.ite_none_right_eq_some, Option.some.injEq,
      Prod.mk.injEq] at hnew
    obtain ⟨hrefund, rfl, rfl⟩ := hnew
    obtain ⟨key, request, msg, call, hfacts⟩ :=
      hreach.refund_follows_request (Sample.host_lawful false) hm hrefund
    exact ⟨s, info', key, request, msg, call, hs, hfacts⟩
  | _ => cases hnew

end SatoshiBridge
