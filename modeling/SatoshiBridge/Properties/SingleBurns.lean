import SatoshiBridge.Properties.Redemptions
import SatoshiBridge.Treasury.Accounts

/-!
# No transaction is burnt for twice

A transaction that waits for its burn is not asked about again. When its burn has been executed, the
callback settles it; if that callback runs out of gas, the transaction waits for ever. So whatever
fails, the tokens of a transaction are burnt once at most.
-/

set_option autoImplicit false
set_option relaxedAutoImplicit false

namespace SatoshiBridge

/-- The transaction waits for its burn or is settled, or its family is. -/
def Ledger.Closed (l : Ledger) (id : Txid) : Prop :=
  l.Burning id ∨ ∃ root, Mark.committed id root ∈ l.log

section Step

variable {host : Host} {Completes : Ledger → OutPoint → Prop} {cause : Cause} {l l' : Ledger}
  {id : Txid}

/-- Nothing is created when a burn is answered. -/
theorem Cause.not_builds {p : Promise} (hp : p ∈ cause.taken) (hid : p.burns = some id)
    (incoming : Option (AccountId × ℕ)) : ¬cause.Builds incoming := by
  cases cause with
  | call => exact absurd hp (Multiset.notMem_zero p)
  | lost => exact fun hbuilds ↦ hbuilds
  | answer env q result =>
    rw [Multiset.mem_singleton.mp hp] at hid
    cases q with
    | withdrawBurn | activeUtxoManagementBurn => exact fun hbuilds ↦ hbuilds
    | _ => cases hid

/-- The answer to a burn that has succeeded settles the transaction, or is lost. -/
theorem Effect.burn_answered (h : Effect host Completes cause l l') {p : Promise}
    (hp : p ∈ cause.taken) (hid : p.burns = some id)
    (hsuccess : ∀ env result, cause = .answer env p result → result.isSuccess = true) :
    l'.pendings = l.pendings ∨ ∃ root, Mark.committed id root ∈ l'.log := by
  cases h with
  | create _ _ _ _ _ _ _ _ hbuilds | replace _ _ _ _ _ _ _ _ _ _ hbuilds =>
    exact absurd hbuilds (Cause.not_builds hp hid _)
  | sign | finalizeRefund =>
    rw [Multiset.mem_singleton.mp hp] at hid
    cases hid
  | attest env q burn result txId withdraw info hverifies =>
    rw [Multiset.mem_singleton.mp hp] at hid
    cases q with
    | verifyWithdraw | verifyActiveUtxoManagement => cases hid
    | _ => cases hverifies
  | burnFailed env q result txId info hburns hfailed =>
    have hsucceeded := hsuccess env result (by rw [Multiset.mem_singleton.mp hp])
    rw [hfailed] at hsucceeded
    cases hsucceeded
  | commitWithdraw | commitActive =>
    rw [Multiset.mem_singleton.mp hp] at hid
    cases hid
    exact Or.inr ⟨_, List.mem_append_right _ (List.mem_cons_of_mem _ List.mem_cons_self)⟩
  | discard => exact absurd hp (Multiset.notMem_zero p)
  | refund _ call request info nowSec accounts hcall =>
    rcases hcall with ⟨env, data, result, rfl⟩ | ⟨env, data, rfl, _⟩
    · rw [Multiset.mem_singleton.mp hp] at hid
      cases hid
    · exact absurd hp (Multiset.notMem_zero p)
  | _ => exact Or.inl rfl

/-- What is closed stays closed while no burn of it fails. -/
theorem Ledger.Closed.step (hl : (cause.before l).Staged) (h : Effect host Completes cause l l')
    (hclosed : l.Closed id) (hsuccess : ∀ env p result, cause = .answer env p result →
      p.burns = some id → result.isSuccess = true) : l'.Closed id := by
  rcases hclosed with hburning | ⟨root, hcommitted⟩
  · by_cases htaken : ∃ q ∈ cause.taken, q.burns = some id
    · obtain ⟨q, hq, hid⟩ := htaken
      rcases h.burn_answered hq hid fun env result hcause ↦ hsuccess env q result hcause hid with
        hsame | hcommitted
      · left
        obtain ⟨⟨root, hattested⟩, hwaits⟩ := hburning
        refine ⟨⟨root, h.mem_log hattested⟩, ?_⟩
        rw [hsame]
        refine hwaits.imp_right fun hfamily ↦ ?_
        obtain ⟨txId, hcommitted⟩ := hfamily
        exact ⟨txId, h.mem_log hcommitted⟩
      · exact Or.inr hcommitted
    · exact Or.inl (hl.keeps_burning h hburning htaken)
  · exact Or.inr ⟨root, h.mem_log hcommitted⟩

/-- No burn is asked for a transaction that is closed. -/
theorem Ledger.Closed.unasked (hclosed : l.Closed id) (hspending : l.Spending host)
    (h : Effect host Completes cause l l') {sent : Multiset Promise}
    (hsent : l'.inflight = l.inflight + sent) : ∀ p ∈ sent, p.burns ≠ some id := by
  rw [add_comm] at hsent
  intro p hp hid
  rcases h.burnsSent with ⟨sent', hsent', hnone⟩ | ⟨txId, info, hattests⟩
  · have hsame : sent = sent' := add_right_cancel (hsent.symm.trans hsent')
    rw [hsame] at hp
    rw [hnone p hp] at hid
    cases hid
  · obtain ⟨burn, hburn, hinflight⟩ := hattests.burn
    rw [← Multiset.singleton_add] at hinflight
    have hsame : sent = {burn} := add_right_cancel (hsent.symm.trans hinflight)
    rw [hsame] at hp
    rw [Multiset.mem_singleton.mp hp, hburn, Option.some.injEq] at hid
    have hpending := hattests.pending
    rw [hid] at hpending
    rcases hclosed with hburning | ⟨root, hcommitted⟩
    · have hstage := (hburning.stage hspending hpending).1
      rw [hattests.stage] at hstage
      cases hstage
    · have hgone := (hspending.committed id root hcommitted).2.2.1
      rw [hpending] at hgone
      cases hgone

end Step

namespace World

open Transition (Once InOrder)

variable {σ : Setting} {w w' : World σ} {steps : Steps σ} {id : Txid}

/-- The burn of a transaction has been executed. -/
structure Spent (id : Txid) (w : World σ) : Prop where
  closed : w.sys.ledger.Closed id
  answered : ∀ p stage, (p, stage) ∈ w.inflight → p.burns = some id →
    ∃ result, stage = .answered result ∧ result.isSuccess = true

theorem map_rest {α β : Type} (f : α → β) (a : Action) (inflight : List α) :
    (Sys.rest a inflight).map f = Sys.rest a (inflight.map f) := by
  cases a with
  | call => rfl
  | callback index | lose index => exact (List.eraseIdx_map f inflight index).symm

/-- At most one burn is in flight for a transaction. -/
theorem burns_single (laws : σ.host.Lawful) (hw : w.Reachable Sys.unfinished) {index : ℕ}
    {p q : Promise}
    {stage stage' : Stage} (hp : w.inflight[index]? = some (p, stage)) (hid : p.burns = some id)
    (hq : (q, stage') ∈ (w.take index).inflight) : q.burns ≠ some id := by
  intro hid'
  have hreached := (reachable_sys w hw).ofUnfinished laws.toReadsAddresses
  have hone := (hreached.staged laws).single id
  have hledger := ledger_take hp (.lost p .failed) rfl
  have hmem : q ∈ (w.take index).sys.ledger.inflight :=
    Multiset.mem_coe.mpr (List.mem_map.mpr ⟨(q, stage'), hq, rfl⟩)
  have htaken : p ∈ (Cause.lost p .failed).taken := Multiset.mem_singleton_self p
  have htwo := Ledger.burns_taken htaken hmem hid hid'
  rw [hledger] at hone
  omega

/-- The step that burns. -/
theorem Spent.begin (laws : σ.host.Lawful) (standard : σ.ft.Standard)
    (hw : w.Reachable Sys.unfinished)
    {action : WorldAction} (he : w.exec action = some w') {amount : ℕ}
    (hburns : Burns id amount w action w') : Spent id w' := by
  obtain ⟨index, p, call, rfl, hp, hcall, hsome, hid, _⟩ := hburns
  obtain ⟨receipt, hreceipt⟩ := Option.isSome_iff_exists.mp hsome
  obtain ⟨_, v, hv⟩ := burn_executes standard hid hcall hreceipt
  have hreached := (reachable_sys w hw).ofUnfinished laws.toReadsAddresses
  simp only [exec, hp, hcall, Option.bind_eq_bind, Option.bind_some, Option.bind_eq_some_iff,
    Option.some.injEq] at he
  obtain ⟨_, _, rfl⟩ := he
  constructor
  · rw [sys_execute w hp]
    have hmem := List.mem_of_getElem? (sys_getElem? hp)
    exact Or.inl ((hreached.staged laws).burning p (Multiset.mem_coe.mpr hmem) id hid)
  · intro q stage hmem hid'
    have hmem : (q, stage) ∈ (w.advance index p (.answered (.value v))).inflight := by
      unfold World.execute at hmem
      rw [hreceipt] at hmem
      dsimp only at hmem
      rw [hv] at hmem
      exact hmem
    rcases mem_advance hp hmem with heq | hold
    · cases heq
      exact ⟨_, rfl, rfl⟩
    · exact absurd hid' (burns_single laws hw hp hid hold)

theorem Spent.step (laws : σ.host.Lawful) (hw : w.Reachable Sys.unfinished) (hspent : Spent id w)
    {action : WorldAction} (he : w.exec action = some w') : Spent id w' := by
  cases exec_advances he with
  | rests hinflight hsys =>
    constructor
    · rw [hsys]
      exact hspent.closed
    · rw [hinflight]
      exact hspent.answered
  | reaches index p old stage hp hreaches hinflight hsys =>
    constructor
    · rw [hsys]
      exact hspent.closed
    · intro q stage' hmem hid
      rw [hinflight] at hmem
      rcases List.mem_or_eq_of_mem_set hmem with hold | heq
      · exact hspent.answered q stage' hold hid
      · cases heq
        -- A burn that is answered does not come further.
        obtain ⟨result, hanswered, _⟩ := hspent.answered p old (List.mem_of_getElem? hp) hid
        rw [hanswered] at hreaches
        cases hreaches with
        | failed _ _ hold => cases hold
  | acts a sent hacts hstep hinflight =>
    have hreached := (reachable_sys w hw).ofUnfinished laws.toReadsAddresses
    obtain ⟨cause, mid, hmid, heffect, hcauses, hrest⟩ :=
      Sys.exec_cause laws.toReadsAddresses
        ((reachable_sys w hw).wellShaped laws.toReadsAddresses) hstep
    have hclosed : (cause.before mid).Closed id := by
      rw [← hmid]
      exact hspent.closed
    rw [hmid] at hreached
    constructor
    · refine hclosed.step (hreached.staged laws) heffect ?_
      intro env p result hcause hid
      subst hcause
      cases hcauses with
      | answer index env p result receipt hp =>
        have haction := hacts.callback_eq
        subst haction
        have hcalls : p.nbtcCall.isSome = true := by
          cases p with
          | withdrawBurn | activeUtxoManagementBurn => rfl
          | _ => cases hid
        have hmem := answered_of_callback laws.toReadsAddresses hw he hp hcalls
        obtain ⟨_, hanswered, hsuccess⟩ := hspent.answered p _ hmem hid
        cases hanswered
        exact hsuccess
    · intro p stage hmem hid
      rw [hinflight] at hmem
      rcases List.mem_append.mp hmem with hold | hnew
      · exact hspent.answered p stage (mem_rest hold) hid
      · have hsent : w'.sys.ledger.inflight = mid.inflight + (sent : Multiset Promise) := by
          have hlist : w'.sys.inflight = Sys.rest a w.sys.inflight ++ sent := by
            change w'.inflight.map Prod.fst = _
            rw [hinflight, List.map_append, map_rest, List.map_map]
            exact congrArg _ (List.map_id sent)
          change (w'.sys.inflight : Multiset Promise) = _
          rw [hlist, hrest, Multiset.coe_add]
        obtain ⟨q, hq, heq⟩ := List.mem_map.mp hnew
        cases heq
        have hclosed : mid.Closed id := hclosed
        exact absurd hid (hclosed.unasked (hreached.spending laws).of_before heffect hsent p
          (Multiset.mem_coe.mpr hq))

/-- While only deposits in progress are completed by hand, the burn of a transaction is executed
once at most. -/
theorem History.burns_once (laws : σ.host.Lawful) (standard : σ.ft.Standard)
    (h : History Sys.unfinished steps w) (id : Txid) (first second : ℕ) :
    ¬InOrder [Burns id second, Burns id first] steps := by
  rintro ⟨step, earlier, hsuffix, ⟨index, p, call, _, hp, _, _, hid, _⟩, step', earlier', hsuffix',
    hburns, _⟩
  obtain ⟨hearlier, _⟩ := h.of_suffix hsuffix
  obtain ⟨hearlier', hallowed, he, hruns⟩ := hearlier.of_suffix hsuffix'
  have hspent : Spent id step.before :=
    Transition.Runs.stable (fun _ _ _ hw hspent _ he ↦ hspent.step laws hw he)
      (hearlier'.reachable.next hallowed he)
      (Spent.begin laws standard hearlier'.reachable he hburns) hruns
  obtain ⟨_, habsurd, _⟩ := hspent.answered p _ (List.mem_of_getElem? hp) hid
  cases habsurd

/-- The withdrawal of Alice is burnt for once. -/
theorem burns_once_withdrawal :
    ∃ w steps, Sample.worldAfter Sample.burnt = some w ∧ History Sys.unfinished steps w ∧
      w.totalSupply = 500 ∧ ∀ first second, ¬InOrder [Burns 2 second, Burns 2 first] steps := by
  have hrun : (Sample.worldAfter Sample.burnt).map (fun w ↦ w.totalSupply) = some 500 := by
    decide +kernel
  obtain ⟨w, hw, hsupply⟩ := Option.map_eq_some_iff.mp hrun
  have hreach : w.Reachable Sys.unfinished := Sample.reachesWorld (by decide) hw
  obtain ⟨steps, hsteps⟩ := Transition.Reachable.history w hreach
  exact ⟨w, steps, hw, hsteps, hsupply, fun first second ↦
    History.burns_once (Sample.host_lawful false) Sample.standardToken_standard hsteps 2 first
      second⟩

end World

end SatoshiBridge
