import SatoshiBridge.Invariants.RefundGuards
import SatoshiBridge.Model.SampleRun

/-!
# The uses of a deposit

An outpoint is registered as a deposit or sent back as a refund, never both, and never registered
twice, whatever order the receipts of the flows come in.
-/

set_option autoImplicit false
set_option relaxedAutoImplicit false

namespace SatoshiBridge

variable {host : Host} {s s' : Sys}

namespace Sys

/-- A deposit of the outpoint was finalised. -/
def Finalised (s : Sys) (key : OutPoint) : Prop := Mark.depositFinalised key ∈ s.log

/-- A refund that spends the outpoint is pending or was finalised. -/
def Refunding (s : Sys) (key : OutPoint) : Prop :=
  (∃ id info, s.contract.btcPendingInfos.lookup id = some info ∧ info.state.isRefund = true ∧
    key ∈ info.inputs) ∨ ∃ txId, Mark.refundFinalised txId key ∈ s.log

/-- Without completions by hand the ledger has none. -/
theorem Reachable.nowhere (laws : host.Lawful) (h : Reachable host never s) :
    Ledger.Reached host Ledger.Nowhere s.ledger :=
  h.ledger laws.toReadsAddresses fun _ _ hnever ↦ hnever

theorem Refunding.refunded (laws : host.Lawful) {guard : Guard} (h : Reachable host guard s)
    {key : OutPoint} (hkey : s.Refunding key) : s.ledger.Refunded key := by
  have htraced := (Reachable.anytime laws.toReadsAddresses h).traced laws
  rcases hkey with ⟨id, info, hinfo, hrefund, hmem⟩ | ⟨txId, hm⟩
  · obtain ⟨key', hinputs, hrefunded⟩ := htraced.pending id info hinfo hrefund
    rw [hinputs, List.mem_singleton] at hmem
    rw [hmem]
    exact hrefunded
  · exact htraced.finalised txId key hm

theorem Refunded.runs {guard : Guard} (h : Runs host guard s s') {key : OutPoint}
    (hkey : s.ledger.Refunded key) : s'.ledger.Refunded key := by
  obtain ⟨call, request, info, nowSec, hm, hcall⟩ := hkey
  exact ⟨call, request, info, nowSec, h.mem_log hm, hcall⟩

/-- A deposit outpoint is finalised at most once, is never both a deposit, finalised or in progress,
and the coin of a refund, and stays verified from the first of these on. -/
theorem Reachable.deposit_used_once (laws : host.Lawful) (h : Reachable host never s)
    (key : OutPoint) :
    s.log.count (.depositFinalised key) ≤ 1 ∧
      ¬((s.Finalised key ∨ key ∈ s.contract.utxosInProgress) ∧ s.Refunding key) ∧
      (s.Finalised key ∨ s.Refunding key →
        ∀ s', Runs host never s s' → key ∈ s'.contract.verifiedDepositUtxo) := by
  have hlife := ((h.ofNever.ofUnfinished laws.toReadsAddresses).lives laws).life key
  refine ⟨hlife.once, ?_, ?_⟩
  · rintro ⟨hdeposit, hrefunding⟩
    have hrefunded := hrefunding.refunded laws h
    rcases hdeposit with hfinalised | hprogress
    · exact (hlife.refunded hrefunded).2 (hlife.deposited (Or.inl hfinalised)).2
    · exact (hlife.inProgress hprogress).2.2.1 hrefunded
  · intro huse s' hruns
    have h' : Reachable host never s' := h.runs hruns
    have hlife' := ((h'.ofNever.ofUnfinished laws.toReadsAddresses).lives laws).life key
    rcases huse with hfinalised | hrefunding
    · exact (hlife'.deposited (Or.inl (hruns.mem_log hfinalised))).1
    · exact (hlife'.refunded (Refunded.runs hruns (hrefunding.refunded laws h))).1

end Sys

/-- Alice's coin is deposited and Bob's is refunded. -/
theorem deposit_used_once_sample :
    ∃ s, Sample.after (Sample.sync ++ Sample.deposit Sample.aliceMsg 0 ++
        Sample.requestRefund Sample.bobMsg 2 50 ++ Sample.executeRefund ⟨0, 2⟩) = some s ∧
      s.log.count (.depositFinalised ⟨0, 0⟩) ≤ 1 ∧
      ¬((s.Finalised ⟨0, 2⟩ ∨ ⟨0, 2⟩ ∈ s.contract.utxosInProgress) ∧ s.Refunding ⟨0, 2⟩) := by
  have hrun : (Sample.after (Sample.sync ++ Sample.deposit Sample.aliceMsg 0 ++
      Sample.requestRefund Sample.bobMsg 2 50 ++ Sample.executeRefund ⟨0, 2⟩)).isSome := by
    decide +kernel
  obtain ⟨s, hs⟩ := Option.isSome_iff_exists.mp hrun
  have hreach : Sys.Reachable (Sample.host false) Sys.never s := Sample.reaches (by decide) hs
  have hlawful := Sample.host_lawful false
  exact ⟨s, hs, (hreach.deposit_used_once hlawful ⟨0, 0⟩).1,
    (hreach.deposit_used_once hlawful ⟨0, 2⟩).2.1⟩

end SatoshiBridge
