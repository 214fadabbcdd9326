import SatoshiBridge.Invariants.Spending
import SatoshiBridge.Model.SampleRun

/-!
# One confirmation for each family

A burn callback that succeeds commits one transaction of a family and removes the original, and then
no other transaction of the family finds what it needs. A coin that is registered again after it was
spent brings the family back.
-/

set_option autoImplicit false
set_option relaxedAutoImplicit false

namespace SatoshiBridge

variable {host : Host} {Completes : Ledger → OutPoint → Prop} {cause : Cause} {l l' : Ledger}

/-- The transactions of a family whose successful burn was committed, in order. -/
def commits (root : Txid) (log : List Mark) : List Txid :=
  log.filterMap fun
    | .committed txId root' => if root' = root then some txId else none
    | _ => none

theorem mem_commits {root txId : Txid} {log : List Mark} :
    txId ∈ commits root log ↔ Mark.committed txId root ∈ log := by
  rw [commits, List.mem_filterMap]
  constructor
  · rintro ⟨m, hm, hcommits⟩
    cases m with
    | committed txId' root' =>
      obtain ⟨hroot, htxId⟩ := Option.ite_none_right_eq_some.mp hcommits
      rw [Option.some.injEq] at htxId
      rw [← hroot, ← htxId]
      exact hm
    | _ => cases hcommits
  · intro hm
    exact ⟨_, hm, if_pos rfl⟩

@[simp] theorem commits_append (root : Txid) (log marks : List Mark) :
    commits root (log ++ marks) = commits root log ++ commits root marks :=
  List.filterMap_append

theorem commits_lostMarks (root : Txid) (p : Promise) (result : PromiseResult) :
    commits root (p.lostMarks result) = [] := by
  unfold Promise.lostMarks
  cases p.mintInfo <;> rfl

/-- A settled transaction is committed for its family. -/
theorem commits_settle (root txId : Txid) (info : BTCPendingInfo) (tx : Transaction) (fees : Fees) :
    commits root (l.settle host txId info tx fees).log =
      if info.root txId = root then commits root l.log ++ [txId] else commits root l.log := by
  change commits root (l.log ++ [_, .committed txId (info.root txId)]) = _
  rw [commits_append]
  by_cases hroot : info.root txId = root
  · simp [commits, hroot]
  · simp [commits, hroot]

/-- A step commits nothing for a family, or a transaction of it whose original is pending. -/
theorem Effect.commits (h : Effect host Completes cause l l') (root : Txid) :
    commits root l'.log = commits root l.log ∨ ∃ txId info o tx,
      Commits l txId info o tx ∧ info.root txId = root ∧
        commits root l'.log = commits root l.log ++ [txId] := by
  have hsettle {txId : Txid} {info o : BTCPendingInfo} {tx : Transaction} (fees : Fees)
      (hcommits : Commits l txId info o tx)
      (hlog : l'.log = (l.settle host txId info tx fees).log) :
      SatoshiBridge.commits root l'.log = SatoshiBridge.commits root l.log ∨
        ∃ txId info o tx, Commits l txId info o tx ∧ info.root txId = root ∧
          SatoshiBridge.commits root l'.log = SatoshiBridge.commits root l.log ++ [txId] := by
    rw [hlog, commits_settle]
    by_cases hroot : info.root txId = root
    · rw [if_pos hroot]
      exact Or.inr ⟨txId, info, o, tx, hcommits, hroot, rfl⟩
    · rw [if_neg hroot]
      exact Or.inl rfl
  cases h with
  | commitWithdraw env token account relayer amount relayerFee txId protocolFee result info o tx s
      fees hsuccess hcommits => exact hsettle (fees.collect protocolFee) hcommits rfl
  | commitActive env token account relayer amount txId result info o tx s fees hsuccess hcommits =>
    exact hsettle fees hcommits rfl
  | lose p result =>
    left
    rw [commits_append, commits_lostMarks, List.append_nil]
  | _ =>
    left
    simp [SatoshiBridge.commits]

/-- No family is committed twice. -/
def Ledger.CommitsOnce (l : Ledger) : Prop := ∀ root, (commits root l.log).length ≤ 1

theorem Ledger.CommitsOnce.step (hl : l.CommitsOnce) (hspending : l.Spending host)
    (h : Effect host Completes cause l l') : l'.CommitsOnce := by
  intro root
  rcases h.commits root with hsame | ⟨txId, info, o, tx, hcommits, hroot, hmore⟩
  · rw [hsame]
    exact hl root
  · -- The original of the family is pending, so nothing was committed for it.
    have hnone : commits root l.log = [] := by
      rw [List.eq_nil_iff_forall_not_mem]
      intro id hid
      have horiginal := hcommits.original
      rw [hroot, (hspending.committed id root (mem_commits.mp hid)).2.2.2] at horiginal
      cases horiginal
    rw [hmore, hnone]
    exact Nat.le_refl 1

theorem Ledger.Reached.commitsOnce (laws : host.Lawful)
    (h : Ledger.Reached host Ledger.Unfinished l) : l.CommitsOnce := by
  have hinit : ∀ l : Ledger, l.Initial → l.CommitsOnce := by
    intro l h₀ root
    rw [h₀.log]
    exact Nat.zero_le 1
  have hstep : ∀ (cause : Cause) (l l' : Ledger),
      Ledger.Reached host Ledger.Unfinished (cause.before l) → (cause.before l).CommitsOnce →
        Effect host Ledger.Unfinished cause l l' → l'.CommitsOnce := by
    intro cause l l' hreached hl h
    exact Ledger.CommitsOnce.step (l := l) hl (hreached.spending laws).of_before h
  exact Ledger.Reached.induct hinit hstep l h

/-- While only deposits in progress are completed by hand, at most one transaction of a family is
ever committed. -/
theorem Sys.Reachable.commits_once (laws : host.Lawful) {s : Sys}
    (h : Sys.Reachable host Sys.unfinished s) (root : Txid) : (commits root s.log).length ≤ 1 :=
  (h.ofUnfinished laws.toReadsAddresses).commitsOnce laws root

/-- The withdrawal of Alice is confirmed before its cancellation. -/
theorem commits_once_cancelled :
    ∃ s, Sample.after (Sample.cancelledWithdrawal ++ Sample.settle 2) = some s ∧
      2 ∈ commits 2 s.log ∧ (commits 2 s.log).length ≤ 1 := by
  have hrun : (Sample.after (Sample.cancelledWithdrawal ++ Sample.settle 2)).map
      (fun s ↦ commits 2 s.log) = some [2] := by
    decide +kernel
  obtain ⟨s, hs, hcommits⟩ := Option.map_eq_some_iff.mp hrun
  have hreach : Sys.Reachable (Sample.host false) Sys.unfinished s := Sample.reaches (by decide) hs
  refine ⟨s, hs, ?_, hreach.commits_once (Sample.host_lawful false) 2⟩
  rw [hcommits]
  exact List.mem_singleton_self 2

/-- A coin that is registered again brings a family back that was committed, and another transaction
of it is committed too. -/
theorem commits_twice :
    ∃ s, Sys.Reachable (Sample.host false) Sys.always s ∧ commits 2 s.log = [2, 4] ∧
      ¬∀ root, (commits root s.log).length ≤ 1 := by
  have hrun : (Sample.after (Sample.withdrawnAgain ++ Sample.settle 4)).map
      (fun s ↦ commits 2 s.log) = some [2, 4] := by
    decide +kernel
  obtain ⟨s, hs, hcommits⟩ := Option.map_eq_some_iff.mp hrun
  refine ⟨s, Sample.reachesAlways hs, hcommits, fun honce ↦ ?_⟩
  have htwo := honce 2
  rw [hcommits] at htwo
  exact absurd htwo (by decide)

end SatoshiBridge
