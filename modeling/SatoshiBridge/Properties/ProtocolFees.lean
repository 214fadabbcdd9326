import SatoshiBridge.Invariants.Reserves
import SatoshiBridge.Model.SampleRun

/-!
# The books of the protocol fees

The five counters of the protocol fees agree with each other after every run, and the reserved fees
agree with the pending originals. A coin that is registered again lets a transaction change its kind
while it is being confirmed, and then a reservation is never released.
-/

set_option autoImplicit false
set_option relaxedAutoImplicit false

namespace SatoshiBridge

variable {host : Host} {guard : Sys.Guard} {s : Sys}

/-! ### Every run -/

/-- What the protocol collected is available, reserved, claimed or spent on gas, whatever was
completed by hand. -/
theorem Sys.Reachable.fees_collected (laws : host.Lawful) (h : Reachable host guard s) :
    s.contract.accCollectedProtocolFee =
      s.contract.curAvailableProtocolFee + s.contract.curReservedProtocolFee +
        s.contract.accClaimedProtocolFee + s.contract.accProtocolFeeForGas :=
  (h.anytime laws.toReadsAddresses).fees_balanced

/-- So every counter fits its type: the collected fees are added up with a check, and the others are
parts of them. -/
theorem Sys.Reachable.counters_fit (laws : host.Lawful) (h : Reachable host guard s) :
    ∀ counter ∈ [s.contract.accCollectedProtocolFee, s.contract.curAvailableProtocolFee,
      s.contract.curReservedProtocolFee, s.contract.accClaimedProtocolFee,
      s.contract.accProtocolFeeForGas], counter < 2 ^ 128 := by
  have hfit : s.contract.accCollectedProtocolFee < 2 ^ 128 :=
    (h.anytime laws.toReadsAddresses).fees_fit
  have hcollected := Reachable.fees_collected laws h
  simp only [List.forall_mem_cons, List.not_mem_nil, false_imp_iff, implies_true, and_true]
  omega

/-- The counters of the protocol fees agree with each other and with the pending transactions. -/
structure Contract.FeesAgree (c : Contract) : Prop where
  collected : c.accCollectedProtocolFee =
    c.curAvailableProtocolFee + c.curReservedProtocolFee + c.accClaimedProtocolFee +
      c.accProtocolFeeForGas
  reserved : c.curReservedProtocolFee =
    FiniteMap.total (fun _ info ↦ info.reservation) c.btcPendingInfos

/-- While only deposits in progress are completed by hand, the counters agree in every reachable
state. -/
theorem Sys.Reachable.fees_agree (laws : host.Lawful) (h : Reachable host unfinished s) :
    s.contract.FeesAgree where
  collected := Reachable.fees_collected laws h
  reserved := (h.ofUnfinished laws.toReadsAddresses).reserving laws

/-! ### Samples -/

namespace Sample

/-- The withdrawal of Alice is verified twice, and one of the two is answered and burnt. Its coin
is registered again, the DAO spends it as Alice did, and the other answer comes when that
transaction is signed. -/
def managedAgain : List Action :=
  donate 10 ++ signedWithdrawal ++ [.call (env "relayer" 5 0) (.verifyWithdrawV2 2)] ++
    [.call (env "relayer" 5 0) (.verifyWithdrawV2 2),
      .callback 0 (env bridge 5 0) confirmed,
      .callback 1 (env bridge 5 0) done] ++
    [.call (env "dao" 6 1) (.completeFailedDepositMint aliceMsg (.full [0]) 0 0)] ++ manage ++
    [.call (env "relayer" 7 0) (.signBtcTransaction 2 0 0),
      .callback 1 (env bridge 7 0) signed,
      .callback 0 (env bridge 8 0) confirmed]

end Sample

/-- The protocol has reserved ten for the transaction that the DAO made, and nothing is
available. -/
theorem fees_agree_management :
    ∃ s, Sample.after (Sample.donate 10 ++ Sample.sync ++ Sample.deposit Sample.aliceMsg 0 ++
        Sample.manage) = some s ∧
      s.contract.curReservedProtocolFee = 10 ∧ s.contract.FeesAgree := by
  have hrun : (Sample.after (Sample.donate 10 ++ Sample.sync ++ Sample.deposit Sample.aliceMsg 0 ++
      Sample.manage)).map (fun s ↦ s.contract.curReservedProtocolFee) = some 10 := by
    decide +kernel
  obtain ⟨s, hs, hreserved⟩ := Option.map_eq_some_iff.mp hrun
  have hreach : Sys.Reachable (Sample.host false) Sys.unfinished s := Sample.reaches (by decide) hs
  exact ⟨s, hs, hreserved, hreach.fees_agree (Sample.host_lawful false)⟩

/-- The callback for a withdrawal settles a family of active management: nothing is pending and ten
stay reserved. -/
theorem fees_reserved_for_nothing :
    ∃ s, Sys.Reachable (Sample.host false) Sys.always s ∧
      s.contract.curReservedProtocolFee = 10 ∧ s.contract.btcPendingInfos.entries = [] ∧
      ¬s.contract.FeesAgree := by
  have hrun : (Sample.after (Sample.managedAgain ++ [.callback 0 (Sample.env Sample.bridge 8 0)
      Sample.done])).map (fun s ↦ (s.contract.curReservedProtocolFee,
        s.contract.btcPendingInfos.entries.length)) = some (10, 0) := by
    decide +kernel
  obtain ⟨s, hs, hcounts⟩ := Option.map_eq_some_iff.mp hrun
  obtain ⟨hreserved, hlength⟩ := Prod.mk.inj hcounts
  have hnone : s.contract.btcPendingInfos.entries = [] := List.length_eq_zero_iff.mp hlength
  refine ⟨s, Sample.reachesAlways hs, hreserved, hnone, fun hagree ↦ ?_⟩
  have hzero := hagree.reserved
  rw [hreserved, FiniteMap.total, hnone] at hzero
  cases hzero

end SatoshiBridge
