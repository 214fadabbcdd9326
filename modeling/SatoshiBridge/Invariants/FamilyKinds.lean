import SatoshiBridge.Invariants.Stages

/-!
# What a family has in common

The members of a family are all withdrawals or all active management, and what a replacement uses of
a reservation is reserved by its original. A promise that will confirm a transaction was sent for
one of its kind, whatever becomes of the transaction meanwhile.
-/

set_option autoImplicit false
set_option relaxedAutoImplicit false

namespace SatoshiBridge

variable {host : Host} {Completes : Ledger → OutPoint → Prop} {cause : Cause} {l l' : Ledger}

/-! ### Reservations -/

theorem BTCPendingInfo.reservation_setStage (info : BTCPendingInfo) (stage : PendingInfoStage) :
    ({ info with state := info.state.setStage stage } : BTCPendingInfo).reservation =
      info.reservation := by
  unfold reservation
  cases info.state <;> rfl

theorem Signs.reservation {old info : BTCPendingInfo} (h : Signs host old info) :
    info.reservation = old.reservation := by
  obtain ⟨psbt, signatures, nowSec, ⟨_, rfl⟩ | ⟨_, signed, _, rfl⟩⟩ := h.same
  · rfl
  · exact BTCPendingInfo.reservation_setStage old .pendingVerify

/-- What stays pending keeps its reservation, or a replacement raises it. -/
theorem Effect.reservation_le (h : Effect host Completes cause l l') {id : Txid}
    {old info : BTCPendingInfo} (hold : l.pendings.lookup id = some old)
    (hinfo : l'.pendings.lookup id = some info) : old.reservation ≤ info.reservation := by
  have hsame {old' : BTCPendingInfo} (hold' : l.pendings.lookup id = some old') : old' = old :=
    Option.some.inj (hold'.symm.trans hold)
  have hnew (hid : id = info.btcPendingId) (hfresh : l.pendings.lookup info.btcPendingId = none) :
      False := by
    rw [← hid, hold] at hfresh
    cases hfresh
  cases h.arises hinfo with
  | kept hold' => rw [hsame hold']
  | created payee rest hid hcreates => exact (hnew hid hcreates.fresh).elim
  | replaced root o o' payee extra hid hreplaces => exact (hnew hid hreplaces.fresh).elim
  | refunded call request nowSec hid hcreates => exact (hnew hid hcreates.fresh).elim
  | original o child payee extra hreplaces =>
    rw [← hsame hreplaces.original, hreplaces.reservation]
    exact Nat.le_add_right _ _
  | signed old' hold' hsigns => rw [← hsame hold', hsigns.reservation]
  | attested old' hold' hstage hrefund heq =>
    rw [← hsame hold', heq, BTCPendingInfo.reservation_setStage]
  | unburnt old' hold' heq =>
    rw [← hsame hold', heq]
    exact (BTCPendingInfo.reservation_setStage old' .pendingVerify).ge

/-- What a transaction uses of a reservation depends on its kind. -/
theorem BTCPendingInfo.usage_eq (info : BTCPendingInfo) : info.usage =
    match info.state.kind with
    | .withdrawCancelRbf _ => info.burnAmount - (info.transferAmount - info.withdrawFee)
    | .activeUtxoManagementOriginal | .activeUtxoManagementRbf _
    | .activeUtxoManagementCancelRbf _ => info.burnAmount
    | .withdrawOriginal | .withdrawUserRbf _ | .refund => 0 := by
  unfold usage
  cases info.state <;> rfl

theorem Carries.usage {old info : BTCPendingInfo} (h : Carries host old info) :
    info.usage = old.usage := by
  rw [BTCPendingInfo.usage_eq, BTCPendingInfo.usage_eq, h.kind, h.burnAmount, h.transferAmount,
    h.withdrawFee]

/-! ### Replacements and their originals -/

/-- What a pending replacement has of its pending original. -/
structure Covers (o info : BTCPendingInfo) : Prop where
  related : info.state.isWithdrawRelated = o.state.isWithdrawRelated
  usage : info.usage ≤ o.reservation
  transferAmount : info.transferAmount = o.transferAmount
  withdrawFee : info.withdrawFee = o.withdrawFee

theorem Covers.carries {o₀ o old info : BTCPendingInfo} (h : Covers o₀ old)
    (hinfo : Carries host old info) (ho : Carries host o₀ o)
    (hreservation : o₀.reservation ≤ o.reservation) : Covers o info where
  related := by
    rw [hinfo.isWithdrawRelated, ho.isWithdrawRelated]
    exact h.related
  usage := by
    rw [hinfo.usage]
    exact h.usage.trans hreservation
  transferAmount := by
    rw [hinfo.transferAmount, ho.transferAmount]
    exact h.transferAmount
  withdrawFee := by
    rw [hinfo.withdrawFee, ho.withdrawFee]
    exact h.withdrawFee

theorem Replaces.covers {id : Txid} {o o' info : BTCPendingInfo} {payee : Option String}
    {extra : ℕ} (h : Replaces host l id o o' info payee extra) : Covers o' info where
  related := by
    rw [h.carries.isWithdrawRelated]
    exact h.states.2.2.2.2
  usage := h.usage
  transferAmount := h.transferAmount.trans h.carries.transferAmount.symm
  withdrawFee := h.withdrawFee.trans h.carries.withdrawFee.symm

/-- Every pending replacement has this of its original, while that is pending. -/
def Ledger.Covered (l : Ledger) : Prop :=
  ∀ id info root o, l.pendings.lookup id = some info → info.state.originalTxId = some root →
    l.pendings.lookup root = some o → Covers o info

/-- A replacement is no refund. -/
theorem PendingInfoState.isRefund_of_child {state : PendingInfoState} {root : Txid}
    (h : state.originalTxId = some root) : state.isRefund = false := by
  cases state with
  | refund => cases h
  | _ => rfl

section Step

variable (laws : host.Lawful) (hreached : Ledger.Reached host Ledger.Unfinished (cause.before l))
  (h : Effect host Ledger.Unfinished cause l l')

include laws hreached h

/-- An original whose coins were taken out for it is carried on. -/
theorem Ledger.Spending.original_carried (hspending : l.Spending host) {root : Txid}
    {o : BTCPendingInfo} (htaken : l.TakenFor host root root)
    (ho : l'.pendings.lookup root = some o) :
    ∃ o₀, l.pendings.lookup root = some o₀ ∧ Carries host o₀ o := by
  rcases hspending.arrival laws hreached h htaken ho with hcarried | ⟨_, _, _, _, hreplaces, hid, _⟩
  · exact hcarried
  · exact absurd hid hreplaces.id_ne

theorem Ledger.Covered.step (hl : l.Covered) : l'.Covered := by
  have hspending : l.Spending host := (hreached.spending laws).of_before
  intro id info root o hinfo hchild ho
  cases h.enters hinfo with
  | carried old hold hcarries =>
    have hchild' : old.state.originalTxId = some root := hcarries.originalTxId ▸ hchild
    have htaken := (hspending.pending id old hold (PendingInfoState.isRefund_of_child hchild')).2.2
    rw [BTCPendingInfo.root_of_child hchild'] at htaken
    obtain ⟨o₀, ho₀, hcarried⟩ := hspending.original_carried laws hreached h htaken ho
    have hcovers := hl id old root o₀ hold hchild' ho₀
    exact hcovers.carries hcarries hcarried (h.reservation_le ho₀ ho)
  | created payee rest hid hcreates =>
    rw [hcreates.originalTxId] at hchild
    cases hchild
  | refunded call request nowSec hid hcreates =>
    rw [hcreates.kind] at hchild
    cases hchild
  | replaced root' o₀ o' payee extra hid hreplaces hlog horiginal =>
    rw [hreplaces.states.2.2.1, Option.some.injEq] at hchild
    subst hchild
    rw [horiginal, Option.some.injEq] at ho
    rw [← ho]
    exact hreplaces.covers

end Step

theorem Ledger.Reached.covered (laws : host.Lawful)
    (h : Ledger.Reached host Ledger.Unfinished l) : l.Covered := by
  have hinit : ∀ l : Ledger, l.Initial → l.Covered := by
    intro l h₀ id info root o hinfo
    rw [h₀.pendings] at hinfo
    cases hinfo
  refine Ledger.Reached.induct hinit (fun cause l l' hreached hl heffect ↦ ?_) l h
  exact Ledger.Covered.step (l := l) laws hreached heffect hl

/-! ### Promises and kinds -/

/-- The transaction a promise will confirm, and whether as a withdrawal. -/
def Promise.settles : Promise → Option (Txid × Bool)
  | verifyWithdraw txId _ | withdrawBurn _ _ _ _ _ txId _ => some (txId, true)
  | verifyActiveUtxoManagement txId _ | activeUtxoManagementBurn _ _ _ _ txId => some (txId, false)
  | _ => none

theorem Promise.settles_of_verifies {p : Promise} {txId : Txid} {withdraw : Bool}
    (h : p.verifies = some (txId, withdraw)) : p.settles = some (txId, withdraw) := by
  cases p with
  | verifyWithdraw | verifyActiveUtxoManagement => exact h
  | _ => cases h

theorem BurnOf.settles {token : AccountId} {info : BTCPendingInfo} {txId : Txid} {withdraw : Bool}
    {burn : Promise} (h : BurnOf token info txId withdraw burn) :
    burn.settles = some (txId, withdraw) := by
  cases h <;> rfl

/-- The transaction belongs to a family of withdrawals, or not, pending or not. -/
def Ledger.SettlesAs (host : Host) (l : Ledger) (txId : Txid) (withdraw : Bool) : Prop :=
  ∃ root, l.TakenFor host txId root ∧ l.TakenFor host root root ∧
    (∀ info, l.pendings.lookup txId = some info → info.state.isWithdrawRelated = withdraw) ∧
    ∀ o, l.pendings.lookup root = some o → o.state.isWithdrawRelated = withdraw

/-- What is pending belongs to a family of its kind. -/
theorem Ledger.Covered.settlesAs (hl : l.Covered) (hspending : l.Spending host) {txId : Txid}
    {info : BTCPendingInfo} (hinfo : l.pendings.lookup txId = some info)
    (hrefund : info.state.isRefund = false) :
    l.SettlesAs host txId info.state.isWithdrawRelated := by
  obtain ⟨_, hown, hroot⟩ := hspending.pending txId info hinfo hrefund
  refine ⟨info.root txId, hown, hroot, fun info' hinfo' ↦ ?_, fun o ho ↦ ?_⟩
  · rw [hinfo, Option.some.injEq] at hinfo'
    rw [hinfo']
  · cases hchild : info.state.originalTxId with
    | none =>
      rw [BTCPendingInfo.root_of_original hchild, hinfo, Option.some.injEq] at ho
      rw [ho]
    | some root =>
      rw [BTCPendingInfo.root_of_child hchild] at ho
      exact (hl txId info root o hinfo hchild ho).related.symm

/-- A pending transaction belongs to one family only. -/
theorem Ledger.Spending.root_eq (hspending : l.Spending host) (hidentified : l.Identified host)
    {txId root : Txid} {info : BTCPendingInfo} (hinfo : l.pendings.lookup txId = some info)
    (hrefund : info.state.isRefund = false) (hown : l.TakenFor host txId root) :
    info.root txId = root := by
  obtain ⟨hnonempty, hown', _⟩ := hspending.pending txId info hinfo hrefund
  obtain ⟨key, hkey⟩ := List.exists_mem_of_ne_nil _ hnonempty
  have hidentifies := hidentified txId info hinfo
  exact hspending.once key _ _ (hidentifies.spent hown' key hkey) (hidentifies.spent hown key hkey)

/-- The original of a transaction that is pending is of its kind. -/
theorem Ledger.SettlesAs.original {txId : Txid} {withdraw : Bool} {info o : BTCPendingInfo}
    (h : l.SettlesAs host txId withdraw) (hspending : l.Spending host)
    (hidentified : l.Identified host) (hinfo : l.pendings.lookup txId = some info)
    (hrefund : info.state.isRefund = false) (ho : l.pendings.lookup (info.root txId) = some o) :
    o.state.isWithdrawRelated = withdraw := by
  obtain ⟨root, hown, _, _, hkind⟩ := h
  rw [hspending.root_eq hidentified hinfo hrefund hown] at ho
  exact hkind o ho

/-- Every promise that will confirm a transaction was sent for one of its kind. -/
def Ledger.Sorted (host : Host) (l : Ledger) : Prop :=
  ∀ p ∈ l.inflight, ∀ txId withdraw, p.settles = some (txId, withdraw) →
    l.SettlesAs host txId withdraw

section Step

variable (laws : host.Lawful) (hreached : Ledger.Reached host Ledger.Unfinished (cause.before l))
  (h : Effect host Ledger.Unfinished cause l l')

include laws hreached h

theorem Ledger.SettlesAs.step {txId : Txid} {withdraw : Bool}
    (hl : l.SettlesAs host txId withdraw) : l'.SettlesAs host txId withdraw := by
  have hspending : l.Spending host := (hreached.spending laws).of_before
  obtain ⟨root, hown, hroot, hinfos, horiginals⟩ := hl
  refine ⟨root, h.takenFor hown, h.takenFor hroot, fun info hinfo ↦ ?_, fun o ho ↦ ?_⟩
  · rcases hspending.arrival laws hreached h hown hinfo with
      ⟨old, hold, hcarries⟩ | ⟨o, o', payee, extra, hreplaces, _⟩
    · rw [hcarries.isWithdrawRelated]
      exact hinfos old hold
    · rw [hreplaces.states.2.2.2.2]
      exact horiginals o hreplaces.original
  · obtain ⟨o₀, ho₀, hcarries⟩ := hspending.original_carried laws hreached h hroot ho
    rw [hcarries.isWithdrawRelated]
    exact horiginals o₀ ho₀

theorem Ledger.Sorted.step (hl : (cause.before l).Sorted host) : l'.Sorted host := by
  have hspending : l.Spending host := (hreached.spending laws).of_before
  have hcovered : l.Covered := Ledger.Reached.covered (l := cause.before l) laws hreached
  intro p hp txId withdraw hsettles
  refine Ledger.SettlesAs.step laws hreached h ?_
  rcases h.sent hp with hold | hsent
  · exact hl p (Multiset.mem_add.mpr (Or.inr hold)) txId withdraw hsettles
  · cases hsent with
    | issued env method hcause hissued =>
      cases p with
      | verifyWithdraw id confirmations =>
        cases hsettles
        obtain ⟨info, hinfo, hrelated⟩ := hissued
        have hrefund : info.state.isRefund = false := by
          cases hstate : info.state <;> rw [hstate] at hrelated <;> first | rfl | cases hrelated
        rw [← hrelated]
        exact hcovered.settlesAs hspending hinfo hrefund
      | verifyActiveUtxoManagement id confirmations =>
        cases hsettles
        obtain ⟨info, hinfo, hrelated⟩ := hissued
        have hkind : info.state.isWithdrawRelated = false ∧ info.state.isRefund = false := by
          cases hstate : info.state <;> rw [hstate] at hrelated <;>
            first | exact ⟨rfl, rfl⟩ | cases hrelated
        rw [← hkind.1]
        exact hcovered.settlesAs hspending hinfo hkind.2
      | withdrawBurn | activeUtxoManagementBurn => exact hissued.elim
      | _ => cases hsettles
    | minted env q result info hcause hmints => cases hmints <;> cases hsettles
    | burning env q result id withdraw' info hcause hverifies hpending hrefund hburn =>
      rw [hburn.settles] at hsettles
      refine hl q (Multiset.mem_add.mpr (Or.inl ?_)) txId withdraw ?_
      · rw [hcause]
        exact Multiset.mem_singleton_self q
      · rw [← hsettles]
        exact Promise.settles_of_verifies hverifies
    | detached _ _ _ _ _ heq | transferred _ _ _ heq | claimed _ _ _ heq =>
      subst heq
      cases hsettles

end Step

theorem Ledger.Reached.sorted (laws : host.Lawful)
    (h : Ledger.Reached host Ledger.Unfinished l) : l.Sorted host := by
  have hinit : ∀ l : Ledger, l.Initial → l.Sorted host := by
    intro l h₀ p hp
    rw [h₀.inflight] at hp
    exact absurd hp (Multiset.notMem_zero p)
  refine Ledger.Reached.induct hinit (fun cause l l' hreached hl heffect ↦ ?_) l h
  exact Ledger.Sorted.step (l := l) laws hreached heffect hl

end SatoshiBridge
