import SatoshiBridge.Treasury.Links

/-!
# The accounts of a run

The tokens and the coins of both contracts with everything in flight: what the bridge owes, what its
promises and the receipts of the token will still book or take, and the burns that are executed and
not confirmed. A step of the bridge and a promise that goes on keep the accounts.
-/

set_option autoImplicit false
set_option relaxedAutoImplicit false

namespace SatoshiBridge

/-! ### Receipts of the token -/

/-- The tokens of the bridge that a receipt of the token takes, or that are not booked before it. -/
def Flow.demand (bridge : AccountId) : Flow → ℕ
  | transfer t => t.demand bridge
  | resolve _ receiverId amount result =>
    if bridge = receiverId then unusedAmount amount result else 0
  | postActions senderId actions =>
    if bridge = senderId then (actions.map PostAction.amount).sum else 0
  | postAction senderId action => if bridge = senderId then action.amount else 0

/-- The demand of receipts. -/
def demandOf (bridge : AccountId) (flows : List Flow) : ℕ := (flows.map (Flow.demand bridge)).sum

theorem demandOf_append (bridge : AccountId) (flows flows' : List Flow) :
    demandOf bridge (flows ++ flows') = demandOf bridge flows + demandOf bridge flows' := by
  unfold demandOf
  rw [List.map_append, List.sum_append]

theorem demandOf_singleton (bridge : AccountId) (flow : Flow) :
    demandOf bridge [flow] = flow.demand bridge := List.sum_singleton

theorem demandOf_eraseIdx (bridge : AccountId) {flows : List Flow} {index : ℕ} {flow : Flow}
    (h : flows[index]? = some flow) :
    demandOf bridge flows = flow.demand bridge + demandOf bridge (flows.eraseIdx index) := by
  obtain ⟨hlt, hget⟩ := List.getElem?_eq_some_iff.mp h
  have hperm := (List.getElem_cons_eraseIdx_perm hlt).map (Flow.demand bridge)
  rw [hget] at hperm
  exact hperm.sum_eq.symm

theorem unusedAmount_le (amount : ℕ) (result : PromiseResult) :
    unusedAmount amount result ≤ amount := by
  unfold unusedAmount
  split
  · exact Nat.min_le_left _ _
  · exact le_refl amount

/-- An answered transfer demands no more than before. -/
theorem Transfer.demand_resolve (bridge : AccountId) (t : Transfer) (result : PromiseResult) :
    (t.resolve result).demand bridge ≤ t.demand bridge := by
  change (if bridge = t.receiverId then unusedAmount t.amount result else 0) ≤
    if bridge = t.receiverId then t.amount else 0
  split
  · exact unusedAmount_le t.amount result
  · exact le_refl 0

/-- What a method leaves in flight demands what it answers. -/
theorem NbtcAnswer.demandOf_flows (bridge : AccountId) (answer : NbtcAnswer) :
    demandOf bridge answer.flows = answer.demand bridge := by
  cases answer with
  | value => rfl
  | transfer t => exact demandOf_singleton bridge (.transfer t)

/-- A burn is sent for a transaction that has waited for its confirmations. -/
theorem Effect.burn_sent {host : Host} {Completes : Ledger → OutPoint → Prop} {cause : Cause}
    {l l' : Ledger} (h : Effect host Completes cause l l') {sent : Multiset Promise}
    (hinflight : l'.inflight = sent + l.inflight) {p : Promise} (hp : p ∈ sent) {id : Txid}
    (hid : p.burns = some id) :
    ∃ info, l.pendings.lookup id = some info ∧ info.state.stage = .pendingVerify := by
  rcases h.burnsSent with ⟨sent', hinflight', hnone⟩ | ⟨txId, info, hattests⟩
  · have hsame : sent = sent' := add_right_cancel (hinflight.symm.trans hinflight')
    rw [hsame] at hp
    rw [hnone p hp] at hid
    cases hid
  · obtain ⟨burn, hburn, hinflight'⟩ := hattests.burn
    have hsame : sent = {burn} := by
      rw [← Multiset.singleton_add] at hinflight'
      exact add_right_cancel (hinflight.symm.trans hinflight')
    rw [hsame, Multiset.mem_singleton] at hp
    rw [hp, hburn, Option.some.injEq] at hid
    rw [← hid]
    exact ⟨info, hattests.pending, hattests.stage⟩

theorem Carries.debit {host : Host} {old info : BTCPendingInfo} (h : Carries host old info) :
    info.debit = old.debit := by
  unfold BTCPendingInfo.debit
  rw [h.burnAmount, h.withdrawFee, ← PendingInfoState.isWithdrawRelated_kind, h.kind,
    PendingInfoState.isWithdrawRelated_kind]

/-- A lost callback confirms nothing. -/
theorem Ledger.Unsettled.lost {l : Ledger} {id : Txid} (h : l.Unsettled id) (p : Promise)
    (result : PromiseResult) : { l with log := l.log ++ p.lostMarks result }.Unsettled id := by
  obtain ⟨⟨⟨root, hattested⟩, hwaits⟩, huncommitted⟩ := h
  refine ⟨⟨⟨root, List.mem_append_left _ hattested⟩, ?_⟩, fun root' hm ↦ ?_⟩
  · rcases hwaits with hpending | ⟨txId, hcommitted⟩
    · exact Or.inl hpending
    · exact Or.inr ⟨txId, List.mem_append_left _ hcommitted⟩
  · rcases List.mem_append.mp hm with hold | hnew
    · exact huncommitted root' hold
    · unfold Promise.lostMarks at hnew
      split at hnew
      · cases List.mem_singleton.mp hnew
      · cases hnew

namespace World

variable {σ : Setting} {w w' : World σ}

/-! ### Balances -/

section Balances

variable {lost gained burnt minted : ℕ} (hmoves : w.nbtc.Moves w'.nbtc lost gained burnt minted)

include hmoves

theorem Linked.balance_le (h : w.Linked) : w.balance + gained ≤ w'.balance + lost := by
  have hbalance := hmoves.balance
  rw [h.bridgeId] at hbalance
  exact hbalance

theorem totalSupply_le (standard : σ.ft.Standard) :
    w'.totalSupply + burnt ≤ w.totalSupply + minted := by
  unfold totalSupply
  rw [standard.ftTotalSupply, standard.ftTotalSupply]
  exact hmoves.supply

end Balances

/-! ### Sums -/

/-- The sum of a reading over the promises in flight. -/
def sum (g : Promise → Stage → ℕ) (w : World σ) : ℕ := (w.inflight.map fun x ↦ g x.1 x.2).sum

/-- The demand of the receipts of the token. -/
def demands (w : World σ) : ℕ := demandOf σ.host.currentAccountId w.flows

section Sums

variable {index : ℕ} {p : Promise} {stage : Stage} (g : Promise → Stage → ℕ)

theorem sum_take (hp : w.inflight[index]? = some (p, stage)) :
    w.sum g = g p stage + (w.take index).sum g := by
  obtain ⟨hlt, hget⟩ := List.getElem?_eq_some_iff.mp hp
  have hperm := (List.getElem_cons_eraseIdx_perm hlt).map fun x : Promise × Stage ↦ g x.1 x.2
  rw [hget] at hperm
  exact hperm.sum_eq.symm

theorem sum_advance (hp : w.inflight[index]? = some (p, stage)) (stage' : Stage) :
    (w.advance index p stage').sum g = g p stage' + (w.take index).sum g := by
  obtain ⟨hlt, _⟩ := List.getElem?_eq_some_iff.mp hp
  have hperm := (List.set_perm_cons_eraseIdx hlt (p, stage')).map
    fun x : Promise × Stage ↦ g x.1 x.2
  exact hperm.sum_eq

/-- New promises wait. -/
theorem sum_apply (receipt : Receipt) :
    (w.apply receipt).sum g + w.sys.ledger.waiting g =
      w.sum g + (w.apply receipt).sys.ledger.waiting g := by
  have hnew : ((receipt.promises.map fun p ↦ (p, Stage.waiting)).map
      fun x : Promise × Stage ↦ g x.1 x.2) = receipt.promises.map fun p ↦ g p .waiting :=
    List.map_map
  have hwaiting : (w.apply receipt).sys.ledger.waiting g =
      w.sys.ledger.waiting g + (receipt.promises.map fun p ↦ g p .waiting).sum := by
    rw [sys_apply]
    unfold Ledger.waiting Sys.ledger Sys.apply
    dsimp only [Contract.ledger]
    rw [Multiset.map_coe, Multiset.map_coe, Multiset.sum_coe, Multiset.sum_coe, List.map_append,
      List.sum_append]
  rw [hwaiting]
  unfold sum apply
  rw [List.map_append, List.sum_append, hnew]
  omega

omit g in
theorem inflight_apply (w : World σ) (receipt : Receipt) :
    (w.apply receipt).sys.ledger.inflight = receipt.promises + w.sys.ledger.inflight := by
  rw [sys_apply]
  unfold Sys.ledger Sys.apply
  dsimp only [Contract.ledger]
  rw [← Multiset.coe_add, add_comm]

theorem mem_advance (hp : w.inflight[index]? = some (p, stage)) {stage' : Stage}
    {x : Promise × Stage} (hx : x ∈ (w.advance index p stage').inflight) :
    x = (p, stage') ∨ x ∈ (w.take index).inflight := by
  obtain ⟨hlt, _⟩ := List.getElem?_eq_some_iff.mp hp
  have hperm := List.set_perm_cons_eraseIdx hlt (p, stage')
  exact List.mem_cons.mp (hperm.mem_iff.mp hx)

theorem mem_take {x : Promise × Stage} (hx : x ∈ (w.take index).inflight) : x ∈ w.inflight :=
  List.mem_of_mem_eraseIdx hx

end Sums

/-- A burn in flight is the only one of its transaction. -/
theorem Linked.burn_once (h : w.Linked) (laws : σ.host.Lawful) {index : ℕ} {p : Promise}
    {stage : Stage} (hp : w.inflight[index]? = some (p, stage)) {id : Txid}
    (hid : p.burns = some id) : ∀ x ∈ (w.take index).inflight, x.1.burns ≠ some id := by
  intro x hx hburns
  have hledger := ledger_take hp (.lost p .failed) rfl
  have hmem : x.1 ∈ (w.take index).sys.ledger.inflight :=
    Multiset.mem_coe.mpr (List.mem_map.mpr ⟨x, hx, rfl⟩)
  have htaken : p ∈ (Cause.lost p .failed).taken := Multiset.mem_singleton_self p
  have htwo := Ledger.burns_taken htaken hmem hid hburns
  have hone := ((h.reached laws).staged laws).single id
  rw [hledger] at hone
  omega

/-! ### The accounts -/

/-- The accounts of a state. The burns of `paid` are executed, and `confirms` is the one of them
that is being confirmed; `owed` tokens and the `unminted` coins of deposits are with no promise and
not booked yet. In a strict run somebody awaits every executed burn. -/
structure Accounts (strict : Prop) (w : World σ) (paid : Finset Txid) (confirms : Option Txid)
    (owed unminted : ℕ) : Prop where
  tokens : w.sys.ledger.owes + w.sum Promise.owed + w.demands + owed ≤
    w.balance + w.sys.ledger.amount BTCPendingInfo.debit paid
  supply : w.totalSupply + w.sum Promise.unminted + unminted +
      w.sys.ledger.amount BTCPendingInfo.burnAmount paid ≤
    w.sys.ledger.coins + w.sum Promise.unburnt
  unsettled : ∀ id ∈ paid, w.sys.ledger.Unsettled id
  executed : ∀ x ∈ w.inflight, ∀ id, x.1.burns = some id →
    (id ∈ paid ↔ x.2.succeeded = true) ∧ confirms ≠ some id
  confirmed : ∀ id ∈ confirms, id ∈ paid
  awaited : strict → ∀ id ∈ paid, confirms = some id ∨ ∃ x ∈ w.inflight, x.1.burns = some id

namespace Accounts

variable {strict : Prop} {paid : Finset Txid}

/-- A promise takes what it owes along. -/
theorem take (h : Accounts strict w paid none 0 0) (hlinked : w.Linked) (laws : σ.host.Lawful)
    {index : ℕ} {p : Promise} {stage : Stage} (hp : w.inflight[index]? = some (p, stage))
    (hunburnt : p.unburnt stage = 0) :
    Accounts strict (w.take index) paid (if stage.succeeded then p.burns else none) (p.owed stage)
      (p.unminted stage) where
  tokens := by
    have htokens := h.tokens
    rw [sum_take _ hp] at htokens
    change w.sys.ledger.owes + (w.take index).sum Promise.owed + w.demands + p.owed stage ≤
      w.balance + w.sys.ledger.amount BTCPendingInfo.debit paid
    omega
  supply := by
    have hsupply := h.supply
    rw [sum_take _ hp, sum_take Promise.unburnt hp, hunburnt] at hsupply
    change w.totalSupply + (w.take index).sum Promise.unminted + p.unminted stage +
      w.sys.ledger.amount BTCPendingInfo.burnAmount paid ≤
        w.sys.ledger.coins + (w.take index).sum Promise.unburnt
    omega
  unsettled := fun id hid ↦ ⟨(h.unsettled id hid).burning, (h.unsettled id hid).uncommitted⟩
  executed := by
    intro x hx id hid
    refine ⟨(h.executed x (mem_take hx) id hid).1, fun hconfirms ↦ ?_⟩
    split at hconfirms
    · exact hlinked.burn_once laws hp hconfirms x hx hid
    · cases hconfirms
  confirmed := by
    intro id hid
    split at hid
    · rename_i hsucceeded
      exact (h.executed _ (List.mem_of_getElem? hp) id hid).1.mpr hsucceeded
    · cases hid
  awaited := by
    intro hstrict id hid
    rcases h.awaited hstrict id hid with hnone | ⟨x, hx, hburns⟩
    · cases hnone
    · obtain ⟨hlt, hget⟩ := List.getElem?_eq_some_iff.mp hp
      have hperm := List.getElem_cons_eraseIdx_perm hlt
      rw [hget] at hperm
      rcases List.mem_cons.mp (hperm.symm.mem_iff.mp hx) with heq | hrest
      · rw [heq] at hburns
        have hsucceeded := (h.executed _ (List.mem_of_getElem? hp) id hburns).1.mp hid
        rw [if_pos hsucceeded]
        exact Or.inl hburns
      · exact Or.inr ⟨x, hrest, hburns⟩

/-- A step of the bridge books what it takes along. -/
theorem apply {receipt : Receipt} (cause : Cause)
    (h : Accounts strict w paid cause.confirms cause.owed cause.unminted) (laws : σ.host.Lawful)
    (hreached : Ledger.Reached σ.host Ledger.Unfinished (cause.before w.sys.ledger))
    (hreached' : Ledger.Reached σ.host Ledger.Unfinished (w.apply receipt).sys.ledger)
    (honce : AttestsOnce (w.apply receipt).log)
    (heffect : Effect σ.host Ledger.Nowhere cause w.sys.ledger (w.apply receipt).sys.ledger)
    (hanswers : ∀ p ∈ cause.taken, ∀ id ∈ paid, p.burns = some id → cause.confirms = some id) :
    Accounts strict (w.apply receipt) (cause.leaves paid) none 0 0 := by
  have hstaged := hreached.staged laws
  have hamount {g : BTCPendingInfo → ℕ}
      (hg : ∀ {old info}, Carries σ.host old info → g info = g old) :
      (w.apply receipt).sys.ledger.amount g (cause.leaves paid) + cause.confirmed g w.sys.ledger =
        w.sys.ledger.amount g paid :=
    heffect.amount_leaves hstaged h.unsettled hanswers laws hreached hreached' honce h.confirmed hg
  have hsum (g : Promise → Stage → ℕ) := sum_apply (w := w) g receipt
  refine {
    tokens := ?_
    supply := ?_
    unsettled := fun id hid ↦ heffect.unsettled hstaged h.unsettled hanswers hid
    executed := fun x hx id hid ↦ ⟨?_, nofun⟩
    confirmed := nofun
    awaited := fun hstrict id hid ↦ Or.inr ?_ }
  · have howes := heffect.owes_le laws hreached
    have hdebit := hamount Carries.debit
    have hbooked := hsum Promise.owed
    have htokens := h.tokens
    change (w.apply receipt).sys.ledger.owes + (w.apply receipt).sum Promise.owed + w.demands + 0 ≤
      w.balance + (w.apply receipt).sys.ledger.amount BTCPendingInfo.debit (cause.leaves paid)
    omega
  · have hcoins := heffect.coins_le laws hreached
    have hburnt := hamount Carries.burnAmount
    have hminted := hsum Promise.unminted
    have hdetached := hsum Promise.unburnt
    have hsupply := h.supply
    change w.totalSupply + (w.apply receipt).sum Promise.unminted + 0 +
      (w.apply receipt).sys.ledger.amount BTCPendingInfo.burnAmount (cause.leaves paid) ≤
        (w.apply receipt).sys.ledger.coins + (w.apply receipt).sum Promise.unburnt
    omega
  · rw [Cause.mem_leaves]
    rcases List.mem_append.mp hx with hold | hnew
    · obtain ⟨hpaid, hother⟩ := h.executed x hold id hid
      rw [← hpaid]
      exact and_iff_right hother
    · obtain ⟨q, hq, rfl⟩ := List.mem_map.mp hnew
      obtain ⟨info, hinfo, hstage⟩ := heffect.burn_sent (inflight_apply w receipt)
        (Multiset.mem_coe.mpr hq) hid
      refine iff_of_false (fun hmem ↦ ?_) Bool.false_ne_true
      -- A transaction whose burn is sent has waited for its confirmations until now.
      have hwaits := h.unsettled id hmem.2
      have honce₀ : AttestsOnce w.log := honce.of_append
      have hbefore : (cause.before w.sys.ledger).Unsettled id :=
        ⟨hwaits.burning, hwaits.uncommitted⟩
      obtain ⟨old, _, hold, hburning, _⟩ := hbefore.pending laws hreached honce₀
      have hsame : info = old := Option.some.inj (hinfo.symm.trans hold)
      rw [← hsame, hstage] at hburning
      cases hburning
  · obtain ⟨hother, hmem⟩ := Cause.mem_leaves.mp hid
    rcases h.awaited hstrict id hmem with hconfirms | ⟨x, hx, hburns⟩
    · exact absurd hconfirms hother
    · exact ⟨x, List.mem_append_left _ hx, hburns⟩

/-- Receipts of the token demand what was not booked. -/
theorem send {confirms : Option Txid} {owed unminted : ℕ} {flows : List Flow}
    (h : Accounts strict w paid confirms owed unminted)
    (hflows : demandOf σ.host.currentAccountId flows ≤ owed) :
    Accounts strict (w.send flows) paid confirms 0 unminted where
  tokens := by
    have htokens := h.tokens
    have hdemands : (w.send flows).demands = w.demands + demandOf _ flows := demandOf_append _ _ _
    change w.sys.ledger.owes + w.sum Promise.owed + (w.send flows).demands + 0 ≤
      w.balance + w.sys.ledger.amount BTCPendingInfo.debit paid
    omega
  supply := h.supply
  unsettled := h.unsettled
  executed := h.executed
  confirmed := h.confirmed
  awaited := h.awaited

/-- A receipt of the token that runs takes its demand along. -/
theorem receive (h : Accounts strict w paid none 0 0) {index : ℕ} {flow : Flow}
    (hflow : w.flows[index]? = some flow) :
    Accounts strict { w with flows := w.flows.eraseIdx index } paid none
      (flow.demand σ.host.currentAccountId) 0 where
  tokens := by
    have htokens := h.tokens
    have hdemands : w.demands = _ := demandOf_eraseIdx σ.host.currentAccountId hflow
    change w.sys.ledger.owes + w.sum Promise.owed + demandOf _ (w.flows.eraseIdx index) +
      flow.demand _ ≤ w.balance + w.sys.ledger.amount BTCPendingInfo.debit paid
    omega
  supply := h.supply
  unsettled := h.unsettled
  executed := h.executed
  confirmed := h.confirmed
  awaited := h.awaited

/-- A callback without effect leaves a burn executed. -/
theorem drop {index : ℕ} {confirms : Option Txid} {owed unminted : ℕ}
    (h : Accounts strict (w.take index) paid confirms owed unminted) (p : Promise)
    (result : PromiseResult) (hstrict : strict → confirms = none) :
    Accounts strict (w.drop index p result) paid none owed 0 where
  tokens := h.tokens
  supply := by
    have hsupply := h.supply
    change (w.take index).totalSupply + (w.take index).sum Promise.unminted + 0 +
      (w.take index).sys.ledger.amount BTCPendingInfo.burnAmount paid ≤
        (w.take index).sys.ledger.coins + (w.take index).sum Promise.unburnt
    omega
  unsettled := fun id hid ↦ (h.unsettled id hid).lost p result
  executed := fun x hx id hid ↦ ⟨(h.executed x hx id hid).1, nofun⟩
  confirmed := nofun
  awaited := by
    intro hs id hid
    rw [← hstrict hs]
    exact h.awaited hs id hid

section Token

variable {lost gained burnt minted : ℕ}
  (h : Accounts strict w paid none 0 0) (hlinked : w.Linked) (laws : σ.host.Lawful)
  (standard : σ.ft.Standard) (w' : World σ) (hsys : w'.sys = w.sys)
  (hmoves : w.nbtc.Moves w'.nbtc lost gained burnt minted)

include h hlinked laws standard hsys hmoves

/-- A promise goes on, and its burn may be executed. -/
theorem move {paid' : Finset Txid} {index : ℕ} {p : Promise} {stage : Stage} (stage' : Stage)
    (hp : w.inflight[index]? = some (p, stage))
    (hinflight : w'.inflight = (w.advance index p stage').inflight)
    (htokens : p.owed stage' + w'.demands + lost + w.sys.ledger.amount BTCPendingInfo.debit paid ≤
      p.owed stage + w.demands + gained + w.sys.ledger.amount BTCPendingInfo.debit paid')
    (hsupply : p.unminted stage' + minted + p.unburnt stage +
        w.sys.ledger.amount BTCPendingInfo.burnAmount paid' ≤
      p.unminted stage + burnt + p.unburnt stage' +
        w.sys.ledger.amount BTCPendingInfo.burnAmount paid)
    (hunsettled : ∀ id ∈ paid', w.sys.ledger.Unsettled id)
    (hburns : ∀ id, p.burns = some id → (id ∈ paid' ↔ stage'.succeeded = true))
    (hothers : ∀ id, p.burns ≠ some id → (id ∈ paid' ↔ id ∈ paid)) :
    Accounts strict w' paid' none 0 0 := by
  have hsum (g : Promise → Stage → ℕ) : w'.sum g + g p stage = w.sum g + g p stage' := by
    have hadvance := sum_advance g hp stage'
    have htake := sum_take g hp
    unfold sum at hadvance htake ⊢
    rw [hinflight]
    omega
  refine {
    tokens := ?_
    supply := ?_
    unsettled := ?_
    executed := fun x hx id hid ↦ ⟨?_, nofun⟩
    confirmed := nofun
    awaited := fun hstrict id hid ↦ Or.inr ?_ }
  · have hbefore := h.tokens
    have howed := hsum Promise.owed
    have hbalance := hlinked.balance_le hmoves
    rw [hsys]
    omega
  · have hbefore := h.supply
    have hunminted := hsum Promise.unminted
    have hunburnt := hsum Promise.unburnt
    have htotal := totalSupply_le hmoves standard
    rw [hsys]
    omega
  · rw [hsys]
    exact hunsettled
  · rw [hinflight] at hx
    rcases mem_advance hp hx with heq | hrest
    · rw [heq] at hid ⊢
      exact hburns id hid
    · have hother : p.burns ≠ some id := fun hown ↦ hlinked.burn_once laws hp hown x hrest hid
      exact (hothers id hother).trans (h.executed x (mem_take hrest) id hid).1
  · have hmem : ∃ q ∈ w.sys.inflight, q.burns = some id := by
      by_cases hown : p.burns = some id
      · exact ⟨p, List.mem_of_getElem? (sys_getElem? hp), hown⟩
      · rcases h.awaited hstrict id ((hothers id hown).mp hid) with hnone | ⟨x, hx, hx'⟩
        · cases hnone
        · exact ⟨x.1, List.mem_map_of_mem hx, hx'⟩
    rw [← hsys] at hmem
    obtain ⟨q, hq, hq'⟩ := hmem
    obtain ⟨x, hx, rfl⟩ := List.mem_map.mp hq
    exact ⟨x, hx, hq'⟩

/-- A promise goes on, and no burn is executed. -/
theorem advance {index : ℕ} {p : Promise} {stage : Stage} (stage' : Stage)
    (hp : w.inflight[index]? = some (p, stage))
    (hinflight : w'.inflight = (w.advance index p stage').inflight)
    (htokens : p.owed stage' + w'.demands + lost ≤ p.owed stage + w.demands + gained)
    (hsupply : p.unminted stage' + minted + p.unburnt stage ≤
      p.unminted stage + burnt + p.unburnt stage')
    (hburns : ∀ id, p.burns = some id → stage'.succeeded = stage.succeeded) :
    Accounts strict w' paid none 0 0 := by
  refine h.move hlinked laws standard w' hsys hmoves stage' hp hinflight (by omega) (by omega)
    h.unsettled (fun id hid ↦ ?_) fun _ _ ↦ Iff.rfl
  rw [hburns id hid]
  exact (h.executed _ (List.mem_of_getElem? hp) id hid).1

/-- A burn is executed, and its confirmation is what was burnt. -/
theorem pay {index : ℕ} {p : Promise} {stage : Stage} (stage' : Stage)
    (hp : w.inflight[index]? = some (p, stage))
    (hinflight : w'.inflight = (w.advance index p stage').inflight) {id : Txid}
    (hid : p.burns = some id) (hwaiting : stage.succeeded = false)
    (hsucceeded : stage'.succeeded = true)
    (htokens : p.owed stage' + w'.demands + lost ≤
      p.owed stage + w.demands + gained + w.sys.ledger.read BTCPendingInfo.debit id)
    (hsupply : p.unminted stage' + minted + p.unburnt stage +
        w.sys.ledger.read BTCPendingInfo.burnAmount id ≤
      p.unminted stage + burnt + p.unburnt stage') :
    Accounts strict w' (insert id paid) none 0 0 := by
  have hnew : id ∉ paid := by
    rw [(h.executed _ (List.mem_of_getElem? hp) id hid).1, hwaiting]
    exact Bool.false_ne_true
  have hamount (g : BTCPendingInfo → ℕ) :
      w.sys.ledger.amount g (insert id paid) =
        w.sys.ledger.read g id + w.sys.ledger.amount g paid :=
    Finset.sum_insert hnew
  have hdebit := hamount BTCPendingInfo.debit
  have hburnAmount := hamount BTCPendingInfo.burnAmount
  refine h.move hlinked laws standard w' hsys hmoves stage' hp hinflight (by omega) (by omega) ?_
    (fun id' hid' ↦ ?_) fun id' hid' ↦ ?_
  · intro id' hid'
    rcases Finset.mem_insert.mp hid' with rfl | hold
    · exact (hlinked.reached laws).unsettled laws
        (Multiset.mem_coe.mpr (List.mem_of_getElem? (sys_getElem? hp))) hid
    · exact h.unsettled id' hold
  · have hsame : id' = id := Option.some.inj (hid'.symm.trans hid)
    rw [hsame, hsucceeded]
    exact iff_of_true (Finset.mem_insert_self id paid) rfl
  · have hne : id' ≠ id := by
      rintro rfl
      exact hid' hid
    rw [Finset.mem_insert]
    exact or_iff_right hne

omit laws in
/-- A receipt of the token that no promise awaits. -/
theorem flow (hinflight : w'.inflight = w.inflight)
    (htokens : w'.demands + lost ≤ w.demands + gained) (hsupply : minted ≤ burnt) :
    Accounts strict w' paid none 0 0 := by
  have hsum (g : Promise → Stage → ℕ) : w'.sum g = w.sum g := by
    unfold sum
    rw [hinflight]
  have hbalance := hlinked.balance_le hmoves
  have htotal := totalSupply_le hmoves standard
  refine {
    tokens := ?_
    supply := ?_
    unsettled := ?_
    executed := ?_
    confirmed := nofun
    awaited := ?_ }
  · have hbefore := h.tokens
    rw [hsys, hsum]
    omega
  · have hbefore := h.supply
    rw [hsys, hsum, hsum]
    omega
  · rw [hsys]
    exact h.unsettled
  · rw [hinflight]
    exact h.executed
  · rw [hinflight]
    exact h.awaited

end Token

end Accounts

end World

end SatoshiBridge
