import SatoshiBridge.Desk.Runs
import SatoshiBridge.Model.SampleRun

/-!
# The lists of the accounts

What an account has to sign and to verify is what it owns in these stages, and a list of
transactions to sign grows only below its limit. A coin that is registered again after it was spent
lets a burn come back to a transaction that was never signed.
-/

set_option autoImplicit false
set_option relaxedAutoImplicit false

namespace SatoshiBridge

variable {host : Host} {s s' : Sys} {action : Action}

namespace Sys

/-- A pending transaction is on the lists of its owner that its stage asks for, and the stage is
what its signatures say. -/
structure Filed (s : Sys) (id : Txid) (info : BTCPendingInfo) : Prop where
  missing : info.state.stage = .pendingSign ↔ ∃ signature ∈ info.signatures, signature = none
  unsigned : info.state.stage = .pendingSign ↔ info.txBytesWithSign = none
  toSign : info.state.stage = .pendingSign ↔
    id ∈ (s.contract.account info.accountId).btcPendingSignIds
  toVerify : id ∈ (s.contract.account info.accountId).btcPendingVerifyList ↔
    info.getOriginalTxId = none ∧
      (info.state.stage = .pendingVerify ∨ info.state.stage = .pendingBurn)

/-- The lists of all accounts are in order. -/
structure ListsInOrder (s : Sys) : Prop where
  filed : ∀ id info, s.contract.btcPendingInfos.lookup id = some info → s.Filed id info
  owned : ∀ a id, id ∈ (s.contract.account a).btcPendingSignIds ∨
    id ∈ (s.contract.account a).btcPendingVerifyList →
      ∃ info, s.contract.btcPendingInfos.lookup id = some info ∧ info.accountId = a

theorem listsInOrder_of (hsound : s.contract.desk.Sound) (hstaged : s.ledger.Staged) :
    s.ListsInOrder where
  filed := by
    intro id info hinfo
    have hstages : info.Staged := hstaged.pending id info hinfo
    refine ⟨hstages.missing, hstages.txBytes, ?_, ?_⟩
    · have hmem := hsound.signs.mem_iff hinfo info.accountId
      refine Iff.symm (hmem.trans ?_)
      unfold Desk.signOwner
      by_cases hsign : info.state.stage = .pendingSign
      · simp [hsign]
      · simp [hsign]
    · have hmem := hsound.verifies.mem_iff hinfo info.accountId
      refine hmem.trans ?_
      unfold Desk.verifyOwner BTCPendingInfo.getOriginalTxId
      cases hstage : info.state.stage <;> simp
  owned := by
    rintro a id (hsign | hverify)
    · obtain ⟨info, hinfo, howner⟩ := (hsound.signs a id).mp hsign
      exact ⟨info, hinfo, (Desk.eq_of_signOwner howner).2⟩
    · obtain ⟨info, hinfo, howner⟩ := (hsound.verifies a id).mp hverify
      exact ⟨info, hinfo, Desk.eq_of_verifyOwner howner⟩

/-- While only deposits in progress are completed by hand, the lists of all accounts are in order
and a list of transactions to sign grows only below the limit of its account. -/
theorem Reachable.lists_in_order (laws : host.Lawful) (h : Reachable host unfinished s) :
    s.ListsInOrder ∧ ∀ action s', s.exec host action = some s' → ∀ a,
      (s.contract.account a).pendingSignCount < (s'.contract.account a).pendingSignCount →
        (s.contract.account a).pendingSignCount < s.contract.getMaxPendingSignTxs a := by
  have hreached := h.ofUnfinished laws.toReadsAddresses
  refine ⟨listsInOrder_of (h.sound laws) (hreached.staged laws), ?_⟩
  intro action s' hexec a hgrows
  have heffect := exec_desk laws.toReadsAddresses (Reachable.wellShaped laws.toReadsAddresses h)
    (hreached.owned laws) hexec
  exact heffect.capacity a hgrows

end Sys

/-- The withdrawal of Alice waits for its confirmation. -/
theorem lists_in_order_withdrawal :
    ∃ s, Sample.after Sample.signedWithdrawal = some s ∧ s.ListsInOrder := by
  have hrun : (Sample.after Sample.signedWithdrawal).isSome := by decide +kernel
  obtain ⟨s, hs⟩ := Option.isSome_iff_exists.mp hrun
  have hreach : Sys.Reachable (Sample.host false) Sys.unfinished s := Sample.reaches (by decide) hs
  exact ⟨s, hs, (hreach.lists_in_order (Sample.host_lawful false)).1⟩

namespace Sample

/-- The operators cancel, both transactions are attested, the cancellation is confirmed and the burn
of the withdrawal stays in flight. -/
def attestedTwice : List Action :=
  signedWithdrawal ++
    [.call (env "dao" 4 1) (.cancelWithdraw 2 [⟨980, Numbering.word 0⟩])] ++ sign 4 ++
    [.call (env "relayer" 5 0) (.verifyWithdrawV2 2), .callback 0 (env bridge 5 0) confirmed,
      .call (env "relayer" 5 0) (.verifyWithdrawV2 4), .callback 1 (env bridge 5 0) confirmed,
      .callback 1 (env bridge 5 0) done]

/-- The spent coin is registered again, the same withdrawal is created again, and then the first
burn fails. -/
def spentAgain : List Action :=
  attestedTwice ++
    [.call (env "dao" 6 1) (.completeFailedDepositMint aliceMsg (.full [0]) 0 0),
      .call (env "nbtc" 6 0) (.ftOnTransfer "alice" 1000
        (.withdraw bridge [⟨0, 0⟩] [⟨990, Numbering.word 0⟩] none none)),
      .callback 0 (env bridge 6 0) .failed]

end Sample

/-- A coin that is registered again leaves an unsigned withdrawal in the verify stage. -/
theorem lists_out_of_order :
    ∃ s, Sys.Reachable (Sample.host false) Sys.always s ∧ ¬s.ListsInOrder := by
  have hrun : ((Sample.after Sample.spentAgain).bind fun s ↦
      (s.contract.btcPendingInfos.lookup 2).map fun info ↦
        (info.state.stage, info.signatures)) = some (.pendingVerify, [none]) := by
    decide +kernel
  obtain ⟨s, hs, hsome⟩ := Option.bind_eq_some_iff.mp hrun
  obtain ⟨info, hinfo, heq⟩ := Option.map_eq_some_iff.mp hsome
  refine ⟨s, Sample.reachesAlways hs, fun horder ↦ ?_⟩
  have hmissing := (horder.filed 2 info hinfo).missing
  rw [Prod.mk.injEq] at heq
  rw [heq.1, heq.2] at hmissing
  have hstage := hmissing.mpr ⟨none, List.mem_singleton_self none, rfl⟩
  cases hstage

end SatoshiBridge
