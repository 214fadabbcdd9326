import SatoshiBridge.Desk.Simulation

/-!
# The desk along a run

While only deposits in progress are completed by hand, the stages of the ledger are in order, and so
are the lists and families of the desk in every reachable state.
-/

set_option autoImplicit false
set_option relaxedAutoImplicit false

namespace SatoshiBridge

variable {host : Host} {s s' : Sys} {action : Action}

namespace Sys

/-- The transactions with a burn in flight. -/
def Burning (s : Sys) (id : Txid) : Prop := ∃ p ∈ s.inflight, p.burns = some id

/-- An action is one step of the desk, or leaves it as it is. -/
theorem exec_desk (laws : host.ReadsAddresses) (hs : s.WellShaped host)
    (howned : s.ledger.Owned host) (h : s.exec host action = some s') :
    Desk.Effect s.Burning s.contract.desk s'.contract.desk := by
  cases action with
  | call env method =>
    simp only [exec, Option.bind_eq_bind, Option.bind_eq_some_iff, Option.some.injEq] at h
    obtain ⟨receipt, hcall, rfl⟩ := h
    exact call_desk laws hs.keyed hcall
  | callback index env result =>
    simp only [exec, Option.bind_eq_bind, Option.bind_eq_some_iff, require_eq_some] at h
    obtain ⟨p, hp, _, _, h⟩ := h
    have hmem : p ∈ s.inflight := List.mem_of_getElem? hp
    split at h
    · rename_i receipt hcallback
      rw [Option.some.injEq] at h
      subst h
      refine callback_desk laws hs.keyed (hs.shaped p (Multiset.mem_coe.mpr hmem))
        (fun id hid ↦ ⟨p, hmem, hid⟩) (fun accountId id hid o ho horiginal hrefund ↦ ?_) hcallback
      exact (howned p (Multiset.mem_coe.mpr hmem) accountId id hid).2 o ho horiginal hrefund
    · rw [Option.some.injEq] at h
      rw [← h]
      exact (Quiet.of_eq rfl).desk
  | lose index result =>
    simp only [exec, Option.bind_eq_bind, Option.bind_eq_some_iff, Option.some.injEq] at h
    obtain ⟨p, _, rfl⟩ := h
    exact (Quiet.of_eq rfl).desk

/-- The desk of a new contract is empty. -/
theorem Initial.sound (h : s.Initial) : s.contract.desk.Sound := by
  obtain ⟨env, config, hnew, _, _⟩ := h
  simp only [Contract.new, Option.bind_eq_bind, Option.bind_eq_some_iff, Option.some.injEq] at hnew
  obtain ⟨_, _, _, _, _, _, ring, _, hcontract⟩ := hnew
  have hempty (a : AccountId) : s.contract.account a = Account.new a := by
    rw [Contract.account, ← hcontract]
    dsimp only
    rw [← AList.insert_empty]
    by_cases ha : a = env.predecessor
    · rw [ha, AList.lookup_insert, Option.getD_some]
    · rw [AList.lookup_insert_ne ha, AList.lookup_empty, Option.getD_none]
  have hpendings : s.contract.desk.pendings = ∅ := by
    change s.contract.btcPendingInfos = ∅
    rw [← hcontract]
  have hfamilies : s.contract.desk.families = ∅ := by
    change s.contract.rbfTxs = ∅
    rw [← hcontract]
  refine ⟨?_, ?_, ?_, ?_⟩
  · have hsigns : s.contract.desk.signs = fun _ ↦ ∅ := by
      funext a
      change (s.contract.account a).btcPendingSignIds = ∅
      rw [hempty a]
      rfl
    rw [hsigns, hpendings]
    exact FiniteMap.Indexes.empty _
  · have hverifies : s.contract.desk.verifies = fun _ ↦ ∅ := by
      funext a
      change (s.contract.account a).btcPendingVerifyList = ∅
      rw [hempty a]
      rfl
    rw [hverifies, hpendings]
    exact FiniteMap.Indexes.empty _
  · intro root members hmembers
    rw [hfamilies] at hmembers
    cases hmembers
  · rintro root id ⟨info, hinfo, _⟩
    rw [hpendings] at hinfo
    cases hinfo

theorem Reachable.orderly (laws : host.Lawful) (h : Reachable host unfinished s) :
    s.contract.desk.Orderly :=
  ((h.ofUnfinished laws.toReadsAddresses).staged laws).family

/-- A transaction with a burn in flight is in the burn stage. -/
theorem Reachable.burning (laws : host.Lawful) (h : Reachable host unfinished s) {id : Txid}
    {info : BTCPendingInfo} (hburning : s.Burning id)
    (hinfo : s.contract.desk.pendings.lookup id = some info) :
    info.state.stage = .pendingBurn := by
  have hreached := h.ofUnfinished laws.toReadsAddresses
  obtain ⟨p, hp, hid⟩ := hburning
  have hburn := (hreached.staged laws).burning p (Multiset.mem_coe.mpr hp) id hid
  exact (hburn.stage (hreached.spending laws) hinfo).1

theorem Reachable.sound (laws : host.Lawful) (h : Reachable host unfinished s) :
    s.contract.desk.Sound := by
  refine Transition.Reachable.induct (fun _ h₀ ↦ h₀.sound) (fun s a s' hs hsound ha he ↦ ?_) s h
  have heffect := exec_desk laws.toReadsAddresses (Reachable.wellShaped laws.toReadsAddresses hs)
    ((Reachable.ofUnfinished laws.toReadsAddresses hs).owned laws) he
  have hs' : Reachable host unfinished s' := Transition.Reachable.next hs ha he
  exact Desk.Sound.step hsound (Reachable.orderly laws hs) (hs'.orderly laws)
    (fun id info hburns hinfo ↦ Reachable.burning laws hs hburns hinfo) heffect

end Sys

end SatoshiBridge
