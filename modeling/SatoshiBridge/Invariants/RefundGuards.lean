import SatoshiBridge.Invariants.Deposits

/-!
# What guards a refund

A pending refund of an outpoint has its request beside it, executed, until one of the candidates for
the outpoint is finalised. An outpoint that was verified is in progress, registered or refunded, and
a request that is not executed belongs to an outpoint that was never refunded; so a request that is
rejected because its deposit is there has lost nothing.
-/

set_option autoImplicit false
set_option relaxedAutoImplicit false

namespace SatoshiBridge

variable {host : Host} {Completes : Ledger → OutPoint → Prop} {cause : Cause} {l l' : Ledger}

/-! ### Pending and finalised refunds -/

/-- A refund in the history is finalised once, by the only input it had. -/
theorem Effect.refundFinalised (h : Effect host Completes cause l l') {txId : Txid}
    {key : OutPoint} (hm : Mark.refundFinalised txId key ∈ l'.log) :
    Mark.refundFinalised txId key ∈ l.log ∨ ∃ info, l.pendings.lookup txId = some info ∧
      info.state.isRefund = true ∧ info.inputs = [key] := by
  cases h with
  | finalizeRefund env txId' confirmations result info key' hpending hrefund hkey =>
    rcases List.mem_append.mp hm with hold | hnew
    · exact Or.inl hold
    · rw [List.mem_singleton, Mark.refundFinalised.injEq] at hnew
      rw [hnew.1, hnew.2]
      exact Or.inr ⟨info, hpending, hrefund, hkey⟩
  | lose p result =>
    rcases List.mem_append.mp hm with hold | hnew
    · exact Or.inl hold
    · obtain ⟨_, _, heq⟩ := Promise.mem_lostMarks.mp hnew
      cases heq
  | _ => exact Or.inl (by simpa [Ledger.settle] using hm)

/-- Every refund, pending or finalised, was created for the outpoint it spends. -/
structure Ledger.Traced (l : Ledger) : Prop where
  pending : ∀ id info, l.pendings.lookup id = some info → info.state.isRefund = true →
    ∃ key, info.inputs = [key] ∧ l.Refunded key
  finalised : ∀ txId key, Mark.refundFinalised txId key ∈ l.log → l.Refunded key

theorem Effect.refunded (h : Effect host Completes cause l l') {key : OutPoint}
    (hkey : l.Refunded key) : l'.Refunded key := by
  obtain ⟨call, request, info, nowSec, hm, hcall⟩ := hkey
  exact ⟨call, request, info, nowSec, h.mem_log hm, hcall⟩

/-- Only a refund is a refund. -/
theorem CreatesOriginal.isRefund {info : BTCPendingInfo} {payee : Option String}
    {rest : FiniteMap OutPoint UTXO} (h : CreatesOriginal host l info payee rest) :
    info.state.isRefund = false := by
  rcases h.kind with hstate | hstate
  · rw [hstate]
    rfl
  · rw [hstate]
    rfl

theorem CreatesOriginal.originalTxId {info : BTCPendingInfo} {payee : Option String}
    {rest : FiniteMap OutPoint UTXO} (h : CreatesOriginal host l info payee rest) :
    info.state.originalTxId = none := by
  rcases h.kind with hstate | hstate
  · rw [hstate]
    rfl
  · rw [hstate]
    rfl

theorem Replaces.isRefund {id : Txid} {o o' info : BTCPendingInfo} {payee : Option String}
    {extra : ℕ} (h : Replaces host l id o o' info payee extra) : info.state.isRefund = false := by
  have hkind := h.kind
  generalize o.state = ostate at hkind
  generalize info.state = state at hkind ⊢
  cases hkind with
  | user | cancel | activeRbf | activeCancel => rfl

theorem Ledger.Traced.step (hl : (cause.before l).Traced) (hg : (cause.before l).Grounded host)
    (h : Effect host Completes cause l l') : l'.Traced where
  pending := by
    intro id info hinfo hrefund
    cases h.enters hinfo with
    | carried old hold hcarries =>
      rw [hcarries.isRefund] at hrefund
      obtain ⟨key, hinputs, hkey⟩ := hl.pending id old hold hrefund
      exact ⟨key, hcarries.inputs.trans hinputs, h.refunded hkey⟩
    | created payee rest hid hcreates =>
      rw [hcreates.isRefund] at hrefund
      cases hrefund
    | replaced root o o' payee extra hid hreplaces =>
      rw [hreplaces.isRefund] at hrefund
      cases hrefund
    | refunded call request nowSec hid hcreates hlog =>
      have hrequest : RequestFor host l.chain call.utxoStorageKey request :=
        hg.requests _ _ hcreates.stored
      refine ⟨call.utxoStorageKey, (hcreates.refunds hrequest).inputs, ?_⟩
      exact ⟨call, request, info, nowSec, by rw [hlog]; simp, rfl⟩
  finalised := by
    intro txId key hm
    rcases h.refundFinalised hm with hold | ⟨info, hpending, hrefund, hinputs⟩
    · exact h.refunded (hl.finalised txId key hold)
    · obtain ⟨key', hinputs', hkey⟩ := hl.pending txId info hpending hrefund
      rw [hinputs', List.cons.injEq] at hinputs
      rw [← hinputs.1]
      exact h.refunded hkey

theorem Ledger.Reached.traced (laws : host.Lawful) (h : Ledger.Reached host Completes l) :
    l.Traced := by
  refine Ledger.Reached.induct (fun l h₀ ↦ ⟨?_, ?_⟩)
    (fun cause l l' hreached hl heffect ↦ hl.step (hreached.grounded laws) heffect) l h
  · intro id info hinfo
    rw [h₀.pendings] at hinfo
    cases hinfo
  · intro txId key hm
    rw [h₀.log] at hm
    exact absurd hm List.not_mem_nil

/-! ### Requests of pending refunds -/

/-- A request at an outpoint that was executed. -/
def Ledger.Executed (l : Ledger) (key : OutPoint) : Prop :=
  ∃ request, l.requests.lookup key = some request ∧ request.executed = true

/-- An executed request is only removed by finalising a refund of its outpoint. -/
theorem Effect.executed_kept (h : Effect host Completes cause l l') {key : OutPoint}
    (hkey : l.Executed key) :
    l'.Executed key ∨ ∃ txId, l'.log = l.log ++ [.refundFinalised txId key] ∧
      l'.pendings.lookup txId = none ∧
      ∃ env confirmations result, cause = .answer env (.verifyRefundFinalize txId confirmations)
        result := by
  obtain ⟨request, hrequest, hexecuted⟩ := hkey
  cases h with
  | request env msg refundAddress txId output vout gasFee result new hscript hnew hnone =>
    have hne : key ≠ ⟨txId, vout⟩ := by
      intro heq
      rw [heq, hnone] at hrequest
      cases hrequest
    exact Or.inl ⟨request, (AList.lookup_insert_ne hne).trans hrequest, hexecuted⟩
  | reject env method key' old hbrings hentry hold =>
    have hne : key ≠ key' := by
      intro heq
      rw [heq, hentry, Option.some.injEq] at hrequest
      rw [hrequest, hexecuted] at hold
      cases hold
    exact Or.inl ⟨request, (AList.lookup_erase_ne hne).trans hrequest, hexecuted⟩
  | refund cause call old info nowSec accounts =>
    left
    by_cases heq : key = call.utxoStorageKey
    · rw [heq]
      exact ⟨_, AList.lookup_insert _, rfl⟩
    · exact ⟨request, (AList.lookup_insert_ne heq).trans hrequest, hexecuted⟩
  | finalizeRefund env txId confirmations result info key' =>
    by_cases heq : key = key'
    · right
      rw [heq]
      exact ⟨txId, rfl, AList.lookup_erase _ _, env, confirmations, result, rfl⟩
    · exact Or.inl ⟨request, (AList.lookup_erase_ne heq).trans hrequest, hexecuted⟩
  | configure | ignore | lose | setKey | issue | begin | finish | revert | complete | collectFee
  | create | replace | sign | attest | burnFailed | commitWithdraw | commitActive | discard | claim
  | transferFailed | withdrawFee | feeFailed => exact Or.inl ⟨request, hrequest, hexecuted⟩

/-- Every pending refund has its executed request, or another refund of its outpoint was
finalised. -/
def Ledger.Guarded (l : Ledger) : Prop :=
  ∀ id info, l.pendings.lookup id = some info → info.state.isRefund = true → ∀ key ∈ info.inputs,
    l.Executed key ∨ ∃ id', id' ≠ id ∧ Mark.refundFinalised id' key ∈ l.log

theorem Ledger.Guarded.step (hl : (cause.before l).Guarded) (hg : (cause.before l).Grounded host)
    (h : Effect host Completes cause l l') : l'.Guarded := by
  intro id info hinfo hrefund key hkey
  cases h.enters hinfo with
  | carried old hold hcarries =>
    rw [hcarries.isRefund] at hrefund
    rw [hcarries.inputs] at hkey
    rcases hl id old hold hrefund key hkey with hexecuted | ⟨id', hne, hm⟩
    · rcases h.executed_kept hexecuted with hkept | ⟨txId, hlog, hgone, _⟩
      · exact Or.inl hkept
      · -- The refund that was finalised is pending no more, so it is another one.
        refine Or.inr ⟨txId, fun heq ↦ ?_, by rw [hlog]; simp⟩
        rw [heq, hinfo] at hgone
        cases hgone
    · exact Or.inr ⟨id', hne, h.mem_log hm⟩
  | created payee rest hid hcreates =>
    rw [hcreates.isRefund] at hrefund
    cases hrefund
  | replaced root o o' payee extra hid hreplaces =>
    rw [hreplaces.isRefund] at hrefund
    cases hrefund
  | refunded call request nowSec hid hcreates hlog howner hstored =>
    have hrequest : RequestFor host l.chain call.utxoStorageKey request :=
      hg.requests _ _ hcreates.stored
    rw [(hcreates.refunds hrequest).inputs, List.mem_singleton] at hkey
    rw [hkey]
    exact Or.inl ⟨_, hstored, rfl⟩

theorem Ledger.Reached.guarded (laws : host.Lawful) (h : Ledger.Reached host Completes l) :
    l.Guarded := by
  refine Ledger.Reached.induct (fun l h₀ id info hinfo ↦ ?_)
    (fun cause l l' hreached hl heffect ↦ hl.step (hreached.grounded laws) heffect) l h
  rw [h₀.pendings] at hinfo
  cases hinfo

/-! ### Outpoints that are claimed -/

/-- Why an outpoint is verified, and what a request that is not executed says about it. -/
structure Ledger.Claims (l : Ledger) (key : OutPoint) : Prop where
  verified : key ∈ l.verified → key ∈ l.inProgress ∨ l.Deposited key ∨ l.Refunded key
  requested : ∀ request, l.requests.lookup key = some request → l.Refunded key →
    request.executed = true

/-- An outpoint becomes verified when its deposit begins or a refund of it is created. -/
theorem Effect.verified (h : Effect host Completes cause l l') {key : OutPoint}
    (hkey : key ∈ l'.verified) : key ∈ l.verified ∨ key ∈ l'.inProgress ∨ l'.Refunded key := by
  cases h with
  | begin env p m result info =>
    rcases Finset.mem_insert.mp hkey with heq | hold
    · exact Or.inr (Or.inl ((AList.mem_insert _).mpr (Or.inl heq)))
    · exact Or.inl hold
  | revert => exact Or.inl (Finset.mem_of_mem_erase hkey)
  | refund cause call request info nowSec accounts =>
    rcases Finset.mem_insert.mp hkey with heq | hold
    · exact Or.inr (Or.inr ⟨call, request, info, nowSec, by simp, heq.symm⟩)
    · exact Or.inl hold
  | _ => exact Or.inl hkey

/-- A deposit in progress stays so until it is registered or reverted. -/
theorem Effect.progressed (h : Effect host Completes cause l l') {key : OutPoint}
    (hkey : key ∈ l.inProgress) : key ∈ l'.inProgress ∨ l'.Deposited key ∨ key ∉ l'.verified := by
  cases h with
  | begin env p m result info => exact Or.inl ((AList.mem_insert _).mpr (Or.inr hkey))
  | finish env m result info =>
    by_cases heq : key = info.utxoStorageKey
    · refine Or.inr (Or.inl (Or.inl ?_))
      rw [heq]
      simp
    · exact Or.inl (AList.mem_erase.mpr ⟨heq, hkey⟩)
  | complete env method key' =>
    by_cases heq : key = key'
    · refine Or.inr (Or.inl (Or.inr ?_))
      rw [heq]
      simp
    · exact Or.inl (AList.mem_erase.mpr ⟨heq, hkey⟩)
  | revert env m result info =>
    by_cases heq : key = info.utxoStorageKey
    · refine Or.inr (Or.inr ?_)
      rw [heq]
      exact Finset.notMem_erase _ _
    · exact Or.inl (AList.mem_erase.mpr ⟨heq, hkey⟩)
  | _ => exact Or.inl hkey

theorem Ledger.Claims.step {key : OutPoint} (hl : (cause.before l).Claims key)
    (hlife : (cause.before l).Life key) (h : Effect host Completes cause l l') :
    l'.Claims key where
  verified := by
    intro hkey
    rcases h.verified hkey with hold | hnew
    · rcases hl.verified hold with hprogress | hdeposited | hrefunded
      · rcases h.progressed hprogress with hkept | hdone | hgone
        · exact Or.inl hkept
        · exact Or.inr (Or.inl hdone)
        · exact absurd hkey hgone
      · exact Or.inr (Or.inl (h.deposited hdeposited))
      · exact Or.inr (Or.inr (h.refunded hrefunded))
    · exact hnew.imp_right Or.inr
  requested := by
    intro request hrequest hrefunded
    obtain ⟨call, old, info, nowSec, hm, rfl⟩ := hrefunded
    rcases h.refundCreated hm with hbefore | ⟨_, hstored, _⟩
    · have href : l.Refunded call.utxoStorageKey := ⟨call, old, info, nowSec, hbefore, rfl⟩
      cases h.requested hrequest with
      | kept hkept => exact hl.requested request hkept href
      | executed old' call' info' nowSec' hkey hcreates heq => rw [heq]
      | new env msg refundAddress txId output vout gasFee result hcause hkey hnew =>
        exact absurd (hlife.refunded href).1 hnew
    · rw [hstored, Option.some.injEq] at hrequest
      rw [← hrequest]

theorem Ledger.Reached.claims (laws : host.Lawful) (h : Ledger.Reached host Ledger.Unfinished l)
    (key : OutPoint) : l.Claims key := by
  have hinit : ∀ l : Ledger, l.Initial → l.Claims key := by
    intro l h₀
    refine ⟨fun hkey ↦ ?_, fun request hrequest ↦ ?_⟩
    · rw [h₀.verified] at hkey
      exact absurd hkey (Finset.notMem_empty key)
    · rw [h₀.requests] at hrequest
      cases hrequest
  exact Ledger.Reached.induct hinit
    (fun cause l l' hreached hl heffect ↦
      Ledger.Claims.step hl ((hreached.lives laws).life key) heffect) l h

/-! ### Runs without completions by hand -/

/-- Nothing is completed by hand. -/
def Ledger.Nowhere (_ : Ledger) (_ : OutPoint) : Prop := False

/-- Then a deposit is registered by its mint callback only. -/
theorem Ledger.Reached.not_completed (h : Ledger.Reached host Ledger.Nowhere l) (key : OutPoint) :
    Mark.depositCompleted key ∉ l.log := by
  have hinit : ∀ l : Ledger, l.Initial → Mark.depositCompleted key ∉ l.log := by
    intro l h₀
    rw [h₀.log]
    exact List.not_mem_nil
  refine Ledger.Reached.induct hinit (fun cause l l' _ hl heffect ↦ ?_) l h
  intro hm
  refine hl (show Mark.depositCompleted key ∈ l.log from ?_)
  cases heffect with
  | complete env method key' utxo fee accounts hbrings hguard => exact hguard.elim
  | lose p result =>
    rcases List.mem_append.mp hm with hold | hnew
    · exact hold
    · obtain ⟨_, _, heq⟩ := Promise.mem_lostMarks.mp hnew
      cases heq
  | _ => simpa [Ledger.settle] using hm

end SatoshiBridge
