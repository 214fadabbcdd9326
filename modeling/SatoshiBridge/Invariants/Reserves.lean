import SatoshiBridge.Invariants.FamilyKinds

/-!
# Protocol fees and reservations

Every protocol fee that was collected is available, reserved, claimed or paid for gas, and the
reserved fees are those the pending originals hold. The second equation needs that a family is
settled by the callback for its kind.
-/

set_option autoImplicit false
set_option relaxedAutoImplicit false

namespace SatoshiBridge

variable {host : Host} {Completes : Ledger → OutPoint → Prop} {cause : Cause} {l l' : Ledger}

/-! ### The counters -/

/-- Every collected fee is somewhere. -/
def Fees.Balanced (fees : Fees) : Prop :=
  fees.collected = fees.available + fees.reserved + fees.claimed + fees.forGas

namespace Fees

variable {fees fees' : Fees} {amount used : ℕ}

theorem Balanced.collect (h : fees.Balanced) (amount : ℕ) : (fees.collect amount).Balanced := by
  unfold Balanced Fees.collect at *
  dsimp only
  omega

theorem Reserves.balanced (h : Reserves amount fees fees') (hfees : fees.Balanced) :
    fees'.Balanced := by
  have havailable := h.available
  unfold Balanced at *
  rw [h.collected, h.claimed, h.reserved, h.forGas]
  omega

theorem Releases.balanced (h : Releases amount used fees fees') (hfees : fees.Balanced) :
    fees'.Balanced := by
  have havailable := h.available
  have hreserved := h.reserved
  have hused := h.used_le
  unfold Balanced at *
  rw [h.collected, h.claimed, h.forGas]
  omega

end Fees

theorem Effect.fees_balanced (h : Effect host Completes cause l l') (hl : l.fees.Balanced) :
    l'.fees.Balanced := by
  cases h with
  | finish | complete | collectFee => exact hl.collect _
  | create cause info payee rest fees accounts hcreates hfees => exact hfees.balanced hl
  | replace cause id o o' info payee extra fees hreplaces hfees => exact hfees.balanced hl
  | commitWithdraw env token account relayer amount relayerFee txId protocolFee result info o tx s
      fees hsuccess hcommits hstate hfees => exact (hfees.balanced hl).collect protocolFee
  | commitActive env token account relayer amount txId result info o tx s fees hsuccess hcommits
      hstate hfees => exact hfees.balanced hl
  | withdrawFee env method amount hbrings hamount =>
    unfold Fees.Balanced at *
    dsimp only
    omega
  | feeFailed env token receiver amount claimed result hfailed hclaimed =>
    unfold Fees.Balanced at *
    dsimp only
    omega
  | _ => exact hl

theorem Ledger.Reached.fees_balanced (h : Ledger.Reached host Completes l) : l.fees.Balanced := by
  have hinit : ∀ l : Ledger, l.Initial → l.fees.Balanced := by
    intro l h₀
    rw [h₀.fees]
    rfl
  have hstep : ∀ (cause : Cause) (l l' : Ledger), Ledger.Reached host Completes (cause.before l) →
      l.fees.Balanced → Effect host Completes cause l l' → l'.fees.Balanced :=
    fun _ _ _ _ hl heffect ↦ heffect.fees_balanced hl
  exact Ledger.Reached.induct hinit hstep l h

/-- A fee is added where it has room, or there is none. -/
theorem Fees.collect_fits {fees : Fees} {amount : ℕ} (hfees : fees.collected < 2 ^ 128)
    (hroom : 0 < amount → fees.HasRoom amount) : (fees.collect amount).collected < 2 ^ 128 := by
  rcases Nat.eq_zero_or_pos amount with hzero | hpositive
  · rw [hzero]
    exact hfees
  · exact (hroom hpositive).collected

/-- What was collected stays within a `u128`. -/
theorem Effect.fees_fit (h : Effect host Completes cause l l') (hl : l.fees.collected < 2 ^ 128) :
    l'.fees.collected < 2 ^ 128 := by
  cases h with
  | finish env m result info accounts hinfo hminted haccounts hroom =>
    exact Fees.collect_fits hl hroom
  | complete env method key utxo fee accounts hbrings hguard hdeposit hverified hutxo hrequest
      haccounts hroom => exact Fees.collect_fits hl hroom
  | collectFee env method senderId amount hbrings hroom => exact hroom.collected
  | create cause info payee rest fees accounts hcreates hfees =>
    exact hfees.collected.trans_lt hl
  | replace cause id o o' info payee extra fees hreplaces hfees =>
    exact hfees.collected.trans_lt hl
  | commitWithdraw env token account relayer amount relayerFee txId protocolFee result info o tx s
      fees hsuccess hcommits hstate hfees hroom =>
    exact Fees.collect_fits (hfees.collected.trans_lt hl) hroom
  | commitActive env token account relayer amount txId result info o tx s fees hsuccess hcommits
      hstate hfees => exact hfees.collected.trans_lt hl
  | _ => exact hl

theorem Ledger.Reached.fees_fit (h : Ledger.Reached host Completes l) :
    l.fees.collected < 2 ^ 128 := by
  have hinit : ∀ l : Ledger, l.Initial → l.fees.collected < 2 ^ 128 := by
    intro l h₀
    rw [h₀.fees]
    exact Nat.two_pow_pos 128
  exact Ledger.Reached.induct hinit (fun _ _ _ _ hl heffect ↦ heffect.fees_fit hl) l h

/-! ### Reservations -/

/-- What the pending transactions hold of the reserved fees. -/
def reservations (pendings : FiniteMap Txid BTCPendingInfo) : ℕ :=
  FiniteMap.total (fun _ info ↦ info.reservation) pendings

namespace BTCPendingInfo

/-- Only an original holds a reservation. -/
theorem reservation_of_child {info : BTCPendingInfo} {root : Txid}
    (h : info.state.originalTxId = some root) : info.reservation = 0 := by
  unfold reservation
  cases hstate : info.state with
  | withdrawOriginal | activeUtxoManagementOriginal =>
    rw [hstate] at h
    cases h
  | _ => rfl

theorem reservation_of_refund {info : BTCPendingInfo} (h : info.state.isRefund = true) :
    info.reservation = 0 := by
  unfold reservation
  cases hstate : info.state with
  | withdrawOriginal | activeUtxoManagementOriginal =>
    rw [hstate] at h
    cases h
  | _ => rfl

theorem reservation_of_droppable {info : BTCPendingInfo} (h : Droppable info) :
    info.reservation = 0 := by
  rcases h with ⟨hchild, _⟩ | hrefund
  · obtain ⟨root, hroot⟩ := Option.ne_none_iff_exists'.mp hchild
    exact reservation_of_child hroot
  · exact reservation_of_refund hrefund

/-- The reservation of an original of a withdrawal. -/
theorem reservation_of_withdraw {o : BTCPendingInfo} {s : OriginalState}
    (hstate : o.state.originalState = some s) (hrelated : o.state.isWithdrawRelated = true) :
    o.reservation = s.cancelRbfReserved.getD 0 := by
  unfold reservation
  cases ho : o.state with
  | withdrawOriginal s' =>
    rw [ho] at hstate
    rw [← Option.some.inj hstate]
  | activeUtxoManagementOriginal =>
    rw [ho] at hrelated
    cases hrelated
  | _ =>
    rw [ho] at hstate
    cases hstate

/-- The reservation of an original of active management. -/
theorem reservation_of_active {o : BTCPendingInfo} {s : OriginalState}
    (hstate : o.state.originalState = some s) (hrelated : o.state.isWithdrawRelated = false) :
    o.reservation = s.maxGasFee := by
  unfold reservation
  cases ho : o.state with
  | withdrawOriginal =>
    rw [ho] at hrelated
    cases hrelated
  | activeUtxoManagementOriginal s' =>
    rw [ho] at hstate
    rw [← Option.some.inj hstate]
  | _ =>
    rw [ho] at hstate
    cases hstate

end BTCPendingInfo

/-- A pending transaction that keeps its reservation does not change the sum. -/
theorem reservations_insert {pendings : FiniteMap Txid BTCPendingInfo} {id : Txid}
    {old info : BTCPendingInfo} (hold : pendings.lookup id = some old)
    (h : info.reservation = old.reservation) :
    reservations (pendings.insert id info) = reservations pendings := by
  have hreplace :=
    FiniteMap.total_replace (f := fun _ info ↦ BTCPendingInfo.reservation info) info hold
  unfold reservations
  omega

/-- Settling a family takes out the reservation of its original. -/
theorem Commits.reservations {txId : Txid} {info o : BTCPendingInfo} {tx : Transaction}
    (h : Commits l txId info o tx) :
    reservations ((l.pendings.erase (info.root txId)).erase txId) + o.reservation =
      reservations l.pendings := by
  have hroot := FiniteMap.total_erase (f := fun _ info ↦ BTCPendingInfo.reservation info) h.original
  unfold SatoshiBridge.reservations
  cases hchild : info.state.originalTxId with
  | none =>
    rw [BTCPendingInfo.root_of_original hchild] at hroot ⊢
    rw [FiniteMap.erase_erase_self]
    omega
  | some root =>
    rw [BTCPendingInfo.root_of_child hchild] at hroot ⊢
    by_cases hid : txId = root
    · rw [hid, FiniteMap.erase_erase_self]
      omega
    · have hpending : (l.pendings.erase root).lookup txId = some info := by
        rw [AList.lookup_erase_ne hid]
        exact h.pending
      have htxId :=
        FiniteMap.total_erase (f := fun _ info ↦ BTCPendingInfo.reservation info) hpending
      have hnone := BTCPendingInfo.reservation_of_child hchild
      omega

theorem Replaces.reservations {id : Txid} {o o' info : BTCPendingInfo} {payee : Option String}
    {extra : ℕ} (h : Replaces host l id o o' info payee extra) :
    reservations ((l.pendings.insert id o').insert info.btcPendingId info) =
      reservations l.pendings + extra := by
  have hfresh : (l.pendings.insert id o').lookup info.btcPendingId = none := by
    rw [AList.lookup_insert_ne h.id_ne.symm]
    exact h.fresh
  have hchild := BTCPendingInfo.reservation_of_child h.states.2.2.1
  have hraised := h.reservation
  have hinsert := FiniteMap.total_insert_new (f := fun _ info ↦ BTCPendingInfo.reservation info)
    info hfresh
  have hreplace := FiniteMap.total_replace (f := fun _ info ↦ BTCPendingInfo.reservation info) o'
    h.original
  unfold SatoshiBridge.reservations
  omega

/-- The reserved fees are what the pending transactions hold. -/
def Ledger.Reserving (l : Ledger) : Prop := l.fees.reserved = reservations l.pendings

/-- A step keeps this when the family that it settles is of the kind of its callback. -/
theorem Ledger.Reserving.step (hl : l.Reserving) (h : Effect host Completes cause l l')
    (hkinds : ∀ p ∈ cause.taken, ∀ txId withdraw info o tx s,
      p.settles = some (txId, withdraw) → Commits l txId info o tx →
        o.state.originalState = some s → o.state.isWithdrawRelated = withdraw) : l'.Reserving := by
  unfold Ledger.Reserving at *
  cases h with
  | create cause info payee rest fees accounts hcreates hfees =>
    have hinsert := FiniteMap.total_insert_new (f := fun _ info ↦ BTCPendingInfo.reservation info)
      info hcreates.fresh
    have hreserved := hfees.reserved
    unfold reservations at *
    dsimp only
    omega
  | replace cause id o o' info payee extra fees hreplaces hfees =>
    have hreserved := hfees.reserved
    dsimp only
    rw [hreplaces.reservations]
    omega
  | sign env accountId id signIndex payload path keyVersion result info info' hpending hsigns =>
    exact hl.trans (reservations_insert hpending hsigns.reservation).symm
  | attest env p burn result txId withdraw info hverifies hpending =>
    exact hl.trans (reservations_insert hpending (info.reservation_setStage .pendingBurn)).symm
  | burnFailed env p result txId info hburns hfailed hpending =>
    exact hl.trans (reservations_insert hpending (info.reservation_setStage .pendingVerify)).symm
  | commitWithdraw env token account relayer amount relayerFee txId protocolFee result info o tx s
      fees hsuccess hcommits hstate hfees =>
    have hrelated := hkinds _ (Multiset.mem_singleton_self _) txId true info o tx s rfl hcommits
      hstate
    have hreservation := BTCPendingInfo.reservation_of_withdraw hstate hrelated
    have hsettled := hcommits.reservations
    have hreserved := hfees.reserved
    change fees.reserved = reservations ((l.pendings.erase (info.root txId)).erase txId)
    omega
  | commitActive env token account relayer amount txId result info o tx s fees hsuccess hcommits
      hstate hfees =>
    have hrelated := hkinds _ (Multiset.mem_singleton_self _) txId false info o tx s rfl hcommits
      hstate
    have hreservation := BTCPendingInfo.reservation_of_active hstate hrelated
    have hsettled := hcommits.reservations
    have hreserved := hfees.reserved
    change fees.reserved = reservations ((l.pendings.erase (info.root txId)).erase txId)
    omega
  | discard env method ids rest infos hbrings htakes hdroppable =>
    have htotal : reservations l.pendings =
        (infos.map BTCPendingInfo.reservation).sum + reservations rest :=
      FiniteMap.total_takeAll htakes
    have hnone : (infos.map BTCPendingInfo.reservation).sum = 0 := by
      refine List.sum_eq_zero fun n hn ↦ ?_
      obtain ⟨info, hinfo, rfl⟩ := List.mem_map.mp hn
      exact BTCPendingInfo.reservation_of_droppable (hdroppable info hinfo)
    dsimp only
    omega
  | refund cause call request info nowSec accounts hcall hcreates =>
    have hinsert := FiniteMap.total_insert_new (f := fun _ info ↦ BTCPendingInfo.reservation info)
      info hcreates.fresh
    have hnone : info.reservation = 0 := by
      refine BTCPendingInfo.reservation_of_refund ?_
      rw [hcreates.kind]
      rfl
    unfold reservations at *
    dsimp only
    omega
  | finalizeRefund env txId confirmations result info key hpending hrefund =>
    have herase :=
      FiniteMap.total_erase (f := fun _ info ↦ BTCPendingInfo.reservation info) hpending
    have hnone := BTCPendingInfo.reservation_of_refund hrefund
    unfold reservations at *
    dsimp only
    omega
  | _ => exact hl

theorem Ledger.Reached.reserving (laws : host.Lawful)
    (h : Ledger.Reached host Ledger.Unfinished l) : l.Reserving := by
  have hinit : ∀ l : Ledger, l.Initial → l.Reserving := by
    intro l h₀
    unfold Ledger.Reserving
    rw [h₀.fees, h₀.pendings]
    rfl
  refine Ledger.Reached.induct hinit (fun cause l l' hreached hl heffect ↦ ?_) l h
  refine Ledger.Reserving.step (l := l) hl heffect fun p hp txId withdraw info o tx s hsettles
    hcommits hstate ↦ ?_
  have hsorted := hreached.sorted laws p (Multiset.mem_add.mpr (Or.inl hp)) txId withdraw hsettles
  exact hsorted.original (hreached.spending laws) hreached.identified hcommits.pending
    (hcommits.isRefund hstate) hcommits.original

end SatoshiBridge
