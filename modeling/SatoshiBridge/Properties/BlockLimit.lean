import SatoshiBridge.Invariants.DepositRuns
import SatoshiBridge.Model.SampleRun

/-!
# The cumulative limit of a block

The ring has a fixed number of cells, yet an accepted deposit is always as deep as the tier of its
block's whole sum asks, or as deep as any tier asks.
-/

set_option autoImplicit false
set_option relaxedAutoImplicit false

namespace SatoshiBridge

variable {host : Host}

/-- An accepted deposit has the depth required for its amount together with all earlier deposits of
its block that were accepted and not taken back, or the depth of the largest tier there is. -/
theorem DepositRun.Reached.accepted_depth {r r' : DepositRun} (h : r.Reached host) {env : Env}
    {p : Promise} {inclusion : TxInclusionInfo} (hfits : r.Fits (.verify env p inclusion))
    (haccepted : r.exec host (.verify env p inclusion) = some r') :
    ∃ info delta required, p.checks = some (info, delta) ∧
      required + delta ≤ inclusion.mainchainTipHeight - inclusion.txBlockHeight + 1 ∧
      (r.contract.config.getConfirmations
          (info.utxo.balance + blockSum r.kept inclusion.txBlockHeight) = some required ∨
        ∀ amount tier, r.contract.config.getConfirmations amount = some tier →
          tier ≤ required) := by
  obtain ⟨info, delta, required, hstep⟩ := exec_verify haccepted
  obtain ⟨info', delta', hchecks, hsum⟩ := hfits
  have hsame := hchecks.symm.trans hstep.checks
  cases hsame
  refine ⟨info, delta, required, hchecks, hstep.accepts.deep, ?_⟩
  have htier := hstep.accepts.tier
  rcases h.sound.bump hsum with ⟨_, hbump⟩ | ⟨_, hbump⟩
  · -- A newer block has the cell: the tier of the largest amount is required.
    right
    rw [hbump] at htier
    intro amount tier hread
    exact Config.getConfirmations_le_max h.sound.graded hread htier
  · left
    rw [hbump] at htier
    rw [Nat.add_comm]
    exact htier

namespace Sample

/-- A verified deposit of a size, at an output of the funding transaction. -/
def fundingInfo (vout balance : ℕ) : PendingUTXOInfo :=
  ⟨0, ⟨0, vout⟩, ⟨"h", [], vout, balance⟩⟩

/-- The inclusion of a safe deposit of that size in block 100 arrives at tip 102. -/
def fundingAction (vout balance : ℕ) : DepositAction :=
  .verify (env bridge 1 0)
    (.verifySafeDeposit "alice" balance "" (fundingInfo vout balance) 1) ⟨100, 102⟩

end Sample

/-- The second deposit of a block. -/
theorem accepted_depth_second_deposit :
    ∃ c r', Contract.new (Sample.env "dao" 0 0) Sample.config = some c ∧
      ((DepositRun.mk c [] [] 0).next (Sample.host false) (Sample.fundingAction 0 1000)).exec
        (Sample.host false) (Sample.fundingAction 1 500) = some r' ∧
      ∃ info delta required,
        (Promise.verifySafeDeposit "alice" 500 "" (Sample.fundingInfo 1 500) 1).checks =
          some (info, delta) ∧ required + delta ≤ 102 - 100 + 1 := by
  have hrun : ((Contract.new (Sample.env "dao" 0 0) Sample.config).bind fun c ↦
      (((DepositRun.mk c [] [] 0).next (Sample.host false) (Sample.fundingAction 0 1000)).exec
        (Sample.host false) (Sample.fundingAction 1 500)).map fun r' ↦
          ((DepositRun.mk c [] [] 0).next (Sample.host false) (Sample.fundingAction 0 1000)).kept)
      = some [⟨100, 1000⟩] := by decide +kernel
  simp only [Option.bind_eq_some_iff, Option.map_eq_some_iff] at hrun
  obtain ⟨c, hnew, r', hexec, hkept⟩ := hrun
  have hfirst : (DepositRun.mk c [] [] 0).Fits (Sample.fundingAction 0 1000) := by
    refine ⟨_, _, rfl, ?_⟩
    show 0 + 1000 ≤ u128Max
    decide
  have hreached := (@DepositRun.Reached.start (Sample.host false) _ _ _ hnew).deposit _ hfirst
  have hsecond : ((DepositRun.mk c [] [] 0).next (Sample.host false)
      (Sample.fundingAction 0 1000)).Fits (Sample.fundingAction 1 500) := by
    refine ⟨_, _, rfl, ?_⟩
    rw [hkept]
    decide
  obtain ⟨info, delta, required, hchecks, hdepth, _⟩ := hreached.accepted_depth hsecond hexec
  exact ⟨c, r', hnew, hexec, info, delta, required, hchecks, hdepth⟩

end SatoshiBridge
