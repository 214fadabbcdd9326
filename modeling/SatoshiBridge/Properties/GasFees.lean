import SatoshiBridge.Invariants.FamilyFees
import SatoshiBridge.Model.SampleRun

/-!
# Gas fees within a family

On Bitcoin a replacement pays more gas than every transaction created for its family before it, and
the original has the maximum on record. An original that is created a second time, from coins that
were registered again, forgets what its family has paid.
-/

set_option autoImplicit false
set_option relaxedAutoImplicit false

namespace SatoshiBridge

variable {host : Host} {s : Sys}

namespace Sys

/-- The members of a family, pending or not, pay more gas one after the other, and a pending
original has the most any of them pays on record. -/
structure FeesRise (s : Sys) : Prop where
  rising : ∀ root, (members root s.log).Pairwise fun earlier later ↦ earlier.gasFee < later.gasFee
  recorded : ∀ root original state, s.contract.btcPendingInfos.lookup root = some original →
    original.state.originalState = some state →
      IsGreatest {gas | ∃ info ∈ members root s.log, info.gasFee = gas} state.maxGasFee

theorem feesRise_of_ledger (h : s.ledger.FeesRise) : s.FeesRise where
  rising := fun root ↦ List.pairwise_map.mp (h.rising root)
  recorded := by
    intro root original state horiginal hstate
    have hmax : s.ledger.maxGasFee root = some state.maxGasFee := by
      have hlookup : s.ledger.pendings.lookup root = some original := horiginal
      rw [Ledger.maxGasFee, hlookup, Option.bind_some, BTCPendingInfo.getMaxGasFee_eq hstate]
    have hgreatest := h.greatest root state.maxGasFee hmax
    have hset : {gas | gas ∈ gasFees root s.ledger.log} =
        {gas | ∃ info ∈ members root s.log, info.gasFee = gas} := by
      ext gas
      exact List.mem_map
    rwa [hset] at hgreatest

/-- While only deposits in progress are completed by hand, the gas of every family rises in every
reachable state of the Bitcoin build. -/
theorem Reachable.fees_rise (laws : host.Lawful) (hchain : host.zcash = false)
    (h : Reachable host unfinished s) : s.FeesRise := by
  have hreached := h.ofUnfinished laws.toReadsAddresses
  exact feesRise_of_ledger (hreached.feesRise laws hchain)

end Sys

/-- The cancellation pays more than the withdrawal it replaces. -/
theorem fees_rise_cancellation :
    ∃ s, Sample.after Sample.cancelledWithdrawal = some s ∧ gasFees 2 s.log = [10, 20] ∧
      s.FeesRise := by
  have hrun : (Sample.after Sample.cancelledWithdrawal).map (fun s ↦ gasFees 2 s.log) =
      some [10, 20] := by
    decide +kernel
  obtain ⟨s, hs, hgas⟩ := Option.map_eq_some_iff.mp hrun
  have hreach : Sys.Reachable (Sample.host false) Sys.unfinished s := Sample.reaches (by decide) hs
  exact ⟨s, hs, hgas, hreach.fees_rise (Sample.host_lawful false) rfl⟩

/-- A coin that is registered again gives the family an original that pays less than its pending
cancellation, and has only its own gas on record. -/
theorem fees_forgotten :
    ∃ s, Sys.Reachable (Sample.host false) Sys.always s ∧ ¬s.FeesRise := by
  have hrun : ((Sample.after Sample.withdrawnAgain).bind fun s ↦
      (s.contract.btcPendingInfos.lookup 2).map fun info ↦
        (info.state.originalState.map OriginalState.maxGasFee, gasFees 2 s.log,
          (s.contract.btcPendingInfos.lookup 4).map BTCPendingInfo.getOriginalTxId)) =
      some (some 10, [10, 20, 10], some (some 2)) := by
    decide +kernel
  obtain ⟨s, hs, hsome⟩ := Option.bind_eq_some_iff.mp hrun
  obtain ⟨original, horiginal, heq⟩ := Option.map_eq_some_iff.mp hsome
  rw [Prod.mk.injEq, Prod.mk.injEq] at heq
  obtain ⟨hmax, hgas, _⟩ := heq
  obtain ⟨state, hstate, hten⟩ := Option.map_eq_some_iff.mp hmax
  refine ⟨s, Sample.reachesAlways hs, fun hrise ↦ ?_⟩
  have hgreatest := hrise.recorded 2 original state horiginal hstate
  have htwenty : 20 ∈ gasFees 2 s.log := by
    rw [hgas]
    decide
  have hle : 20 ≤ state.maxGasFee := hgreatest.2 (List.mem_map.mp htwenty)
  rw [hten] at hle
  exact absurd hle (by decide)

end SatoshiBridge
