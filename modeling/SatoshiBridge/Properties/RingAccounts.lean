import Mathlib.Algebra.BigOperators.Group.List.Basic
import SatoshiBridge.Invariants.ResidentBlocks
import SatoshiBridge.Library.Transition

/-!
# What the ring remembers of a block

Deposit callbacks add to a block and take back what they added when the mint failed; the DAO changes
the capacity in between. The ring is run next to an account of the additions not taken back, which
says of each whether it was made in the stay the block has in the ring now.
-/

set_option autoImplicit false
set_option relaxedAutoImplicit false

namespace SatoshiBridge

/-- A `bump` that has not been undone. It is current while its block has not entered the ring anew
since; one that was answered with `None` never is. -/
structure BlockBump where
  blockHeight : ℕ
  amount : ℕ
  current : Bool
deriving DecidableEq

namespace BlockBump

/-- What the addition has in the present stay of a block. -/
def share (b : BlockBump) (blockHeight : ℕ) : ℕ :=
  if b.blockHeight = blockHeight ∧ b.current = true then b.amount else 0

/-- The addition after its block entered the ring anew. -/
def leave (blockHeight : ℕ) (b : BlockBump) : BlockBump :=
  if b.blockHeight = blockHeight then { b with current := false } else b

theorem share_leave (blockHeight other : ℕ) (b : BlockBump) :
    (b.leave blockHeight).share other = if other = blockHeight then 0 else b.share other := by
  unfold leave
  by_cases hother : other = blockHeight
  · rw [if_pos hother, hother]
    by_cases hheight : b.blockHeight = blockHeight
    · rw [if_pos hheight]
      exact if_neg fun h ↦ Bool.false_ne_true h.2
    · rw [if_neg hheight]
      exact if_neg fun h ↦ hheight h.1
  · rw [if_neg hother]
    by_cases hheight : b.blockHeight = blockHeight
    · have hne : ¬ b.blockHeight = other := fun h ↦ hother (h.symm.trans hheight)
      rw [if_pos hheight, share, share, if_neg fun h ↦ hne h.1, if_neg fun h ↦ hne h.1]
    · rw [if_neg hheight]

end BlockBump

/-- The ring and the additions that were not undone. -/
structure RingAccount where
  ring : BlockAmountRing
  outstanding : List BlockBump
deriving DecidableEq

/-- The three operations; an `unbump` names the addition it undoes. -/
inductive RingOp where
  | bump (blockHeight amount : ℕ)
  | unbump (b : BlockBump)
  | resize (newCapacity : ℕ)
deriving DecidableEq

namespace RingAccount

def new (capacity : ℕ) : Option RingAccount := do
  let ring ← BlockAmountRing.new capacity
  some ⟨ring, []⟩

/-- One operation on the ring and on the account. -/
def exec (s : RingAccount) : RingOp → Option RingAccount
  | .bump blockHeight amount =>
    let bumped := s.ring.bump blockHeight amount
    match s.ring.get blockHeight, bumped.2 with
    | some _, _ => some ⟨bumped.1, ⟨blockHeight, amount, true⟩ :: s.outstanding⟩
    | none, some _ =>
      some ⟨bumped.1, ⟨blockHeight, amount, true⟩ ::
        s.outstanding.map (BlockBump.leave blockHeight)⟩
    | none, none => some ⟨bumped.1, ⟨blockHeight, amount, false⟩ :: s.outstanding⟩
  | .unbump b => do
    require (b ∈ s.outstanding)
    some ⟨s.ring.unbump b.blockHeight b.amount, s.outstanding.erase b⟩
  | .resize newCapacity => do
    let ring ← s.ring.resize newCapacity
    some { s with ring := ring }

/-- The amounts added to a block in its present stay and not undone. -/
def currentSum (s : RingAccount) (blockHeight : ℕ) : ℕ :=
  (s.outstanding.map fun b ↦ b.share blockHeight).sum

/-- Every resident block has at least what was added to it since it entered. -/
def Remembers (s : RingAccount) : Prop :=
  ∀ blockHeight cumulative, s.ring.get blockHeight = some cumulative →
    s.currentSum blockHeight ≤ cumulative

/-- The operation neither saturates a cell nor takes from a block what was not added to it in its
present stay. -/
def Keeps (s : RingAccount) : RingOp → Prop
  | .bump blockHeight amount =>
    ∀ cumulative, s.ring.get blockHeight = some cumulative → cumulative + amount ≤ u128Max
  | .unbump b =>
    ∀ cumulative, s.ring.get b.blockHeight = some cumulative →
      b.current = true ∨ b.amount = 0 ∨ cumulative = 0
  | .resize _ => True

/-- Every resident block has exactly what was added to it since it entered. -/
structure Exact (s : RingAccount) : Prop where
  placed : s.ring.Placed
  cumulative : ∀ blockHeight cumulative, s.ring.get blockHeight = some cumulative →
    s.currentSum blockHeight = cumulative

variable {s s' : RingAccount}

theorem Exact.remembers (h : s.Exact) : s.Remembers :=
  fun blockHeight cumulative hget ↦ (h.cumulative blockHeight cumulative hget).le

theorem exact_new {capacity : ℕ} (h : new capacity = some s) : s.Exact := by
  simp only [new, Option.bind_eq_bind, Option.bind_eq_some_iff, Option.some.injEq] at h
  obtain ⟨ring, hring, rfl⟩ := h
  refine ⟨BlockAmountRing.placed_new hring, fun blockHeight cumulative hget ↦ ?_⟩
  rw [BlockAmountRing.get_new hring] at hget
  cases hget

/-! ### The account of each operation -/

theorem currentSum_cons (ring : BlockAmountRing) (b : BlockBump) (outstanding : List BlockBump)
    (blockHeight : ℕ) : currentSum ⟨ring, b :: outstanding⟩ blockHeight =
      b.share blockHeight + currentSum ⟨ring, outstanding⟩ blockHeight :=
  List.sum_cons

theorem currentSum_leave (ring : BlockAmountRing) (outstanding : List BlockBump)
    (blockHeight other : ℕ) :
    currentSum ⟨ring, outstanding.map (BlockBump.leave blockHeight)⟩ other =
      if other = blockHeight then 0 else currentSum ⟨ring, outstanding⟩ other := by
  unfold currentSum
  simp only [List.map_map, Function.comp_def, BlockBump.share_leave]
  by_cases hother : other = blockHeight
  · simp only [if_pos hother, List.map_const', List.sum_replicate, nsmul_zero]
  · simp only [if_neg hother]

theorem currentSum_erase {b : BlockBump} (ring : BlockAmountRing) (hb : b ∈ s.outstanding)
    (blockHeight : ℕ) : b.share blockHeight +
      currentSum ⟨ring, s.outstanding.erase b⟩ blockHeight = s.currentSum blockHeight :=
  List.sum_map_erase (fun b ↦ b.share blockHeight) hb

theorem share_self (blockHeight amount : ℕ) :
    (BlockBump.mk blockHeight amount true).share blockHeight = amount :=
  if_pos ⟨rfl, rfl⟩

theorem share_other {b : BlockBump} {other : ℕ} (h : ¬ other = b.blockHeight) :
    b.share other = 0 :=
  if_neg fun hb ↦ h hb.1.symm

theorem share_stale {b : BlockBump} (h : b.current = false) (blockHeight : ℕ) :
    b.share blockHeight = 0 :=
  if_neg fun hb ↦ Bool.false_ne_true (h.symm.trans hb.2)

/-- What a step leaves of a block it does not name. -/
structure Frame (s s' : RingAccount) (blockHeight : ℕ) : Prop where
  reads : ∀ other cumulative, other ≠ blockHeight → s'.ring.get other = some cumulative →
    s.ring.get other = some cumulative
  sums : ∀ other, other ≠ blockHeight → s'.currentSum other = s.currentSum other

/-- What `bump` does to the account: the block gains the amount, enters with it, or is refused. -/
theorem exec_bump {blockHeight amount : ℕ} (hs : s.ring.Placed)
    (h : s.exec (.bump blockHeight amount) = some s') :
    s'.ring.Placed ∧ Frame s s' blockHeight ∧
      ((∃ cumulative, s.ring.get blockHeight = some cumulative ∧
          s'.ring.get blockHeight = some (saturatingAdd cumulative amount) ∧
          s'.currentSum blockHeight = amount + s.currentSum blockHeight) ∨
        (s.ring.get blockHeight = none ∧ s'.ring.get blockHeight = some amount ∧
          s'.currentSum blockHeight = amount) ∨
        (s.ring.get blockHeight = none ∧ s'.ring.get blockHeight = none)) := by
  have hplaced := hs.bump blockHeight amount
  cases hget : s.ring.get blockHeight with
  | some cumulative =>
    simp only [exec, hget, Option.some.injEq] at h
    rw [BlockAmountRing.bump_resident hget] at h hplaced
    rw [← h]
    have hreads := BlockAmountRing.get_setCell_resident hs.capacity_pos hget
      (saturatingAdd cumulative amount)
    refine ⟨hplaced, ⟨fun other c hother hc ↦ ?_, fun other hother ↦ ?_⟩,
      Or.inl ⟨cumulative, rfl, ?_, ?_⟩⟩
    · rw [hreads, if_neg hother] at hc
      exact hc
    · rw [currentSum_cons, share_other hother, Nat.zero_add]
      rfl
    · rw [hreads, if_pos rfl]
    · exact (currentSum_cons _ _ _ _).trans (congrArg (· + _) (share_self _ _))
  | none =>
    rcases BlockAmountRing.bump_absent hget amount with hbump | hbump
    · simp only [exec, hget, hbump, Option.some.injEq] at h
      rw [hbump] at hplaced
      rw [← h]
      have hreads := BlockAmountRing.get_setCell hs.capacity_pos blockHeight amount
      refine ⟨hplaced, ⟨fun other c hother hc ↦ ?_, fun other hother ↦ ?_⟩,
        Or.inr (Or.inl ⟨rfl, ?_, ?_⟩)⟩
      · -- The evicted block is not read any more.
        rw [hreads, if_neg hother] at hc
        split at hc
        · cases hc
        · exact hc
      · rw [currentSum_cons, share_other hother, Nat.zero_add, currentSum_leave, if_neg hother]
        rfl
      · rw [hreads, if_pos rfl, if_pos rfl]
      · rw [currentSum_cons, share_self, currentSum_leave, if_pos rfl, Nat.add_zero]
    · simp only [exec, hget, hbump, Option.some.injEq] at h
      rw [← h]
      refine ⟨hs, ⟨fun other c _ hc ↦ hc, fun other _ ↦ ?_⟩, Or.inr (Or.inr ⟨rfl, hget⟩)⟩
      rw [currentSum_cons, share_stale rfl, Nat.zero_add]

/-- What `unbump` does to the account: a resident block loses the amount, whether or not it has
it. -/
theorem exec_unbump {b : BlockBump} (hs : s.ring.Placed) (h : s.exec (.unbump b) = some s') :
    s'.ring.Placed ∧ Frame s s' b.blockHeight ∧
      s'.ring.get b.blockHeight = (s.ring.get b.blockHeight).map (· - b.amount) ∧
      b.share b.blockHeight + s'.currentSum b.blockHeight = s.currentSum b.blockHeight := by
  simp only [exec, Option.bind_eq_bind, Option.bind_eq_some_iff, require_eq_some,
    Option.some.injEq, exists_const] at h
  obtain ⟨hb, rfl⟩ := h
  have hreads := BlockAmountRing.get_unbump hs.capacity_pos b.blockHeight b.amount
  refine ⟨hs.unbump _ _, ⟨fun other c hother hc ↦ ?_, fun other hother ↦ ?_⟩, ?_, ?_⟩
  · rw [hreads, if_neg hother] at hc
    exact hc
  · have hsum := currentSum_erase (s.ring.unbump b.blockHeight b.amount) hb other
    rw [share_other hother, Nat.zero_add] at hsum
    exact hsum
  · rw [hreads, if_pos rfl]
  · exact currentSum_erase _ hb _

/-- What `resize` does to the account. -/
theorem exec_resize {newCapacity : ℕ} (hs : s.ring.Placed)
    (h : s.exec (.resize newCapacity) = some s') :
    s'.ring.Placed ∧ s'.outstanding = s.outstanding ∧
      ∀ blockHeight cumulative, s'.ring.get blockHeight = some cumulative →
        s.ring.get blockHeight = some cumulative := by
  simp only [exec, Option.bind_eq_bind, Option.bind_eq_some_iff, Option.some.injEq] at h
  obtain ⟨ring, hring, rfl⟩ := h
  obtain ⟨hplaced, hkept⟩ := BlockAmountRing.resize_spec hs hring
  exact ⟨hplaced, rfl, hkept⟩

/-- The blocks a step does not name keep their sums. -/
theorem Frame.cumulative {blockHeight : ℕ} (hframe : Frame s s' blockHeight) (h : s.Exact)
    (hself : ∀ cumulative, s'.ring.get blockHeight = some cumulative →
      s'.currentSum blockHeight = cumulative) :
    ∀ other cumulative, s'.ring.get other = some cumulative →
      s'.currentSum other = cumulative := by
  intro other cumulative hget
  by_cases hother : other = blockHeight
  · rw [hother] at hget ⊢
    exact hself cumulative hget
  · rw [hframe.sums other hother]
    exact h.cumulative other cumulative (hframe.reads other cumulative hother hget)

/-- An operation that meets the condition keeps the sums exact. -/
theorem Exact.step {op : RingOp} (h : s.Exact) (hexec : s.exec op = some s')
    (hkeeps : s.Keeps op) : s'.Exact := by
  cases op with
  | bump blockHeight amount =>
    obtain ⟨hplaced, hframe, hcases⟩ := exec_bump h.placed hexec
    refine ⟨hplaced, hframe.cumulative h fun cumulative hget ↦ ?_⟩
    rcases hcases with ⟨before, hbefore, hafter, hsum⟩ | ⟨_, hafter, hsum⟩ | ⟨_, hafter⟩
    · have hfits : before + amount ≤ u128Max := hkeeps before hbefore
      have hadd : saturatingAdd before amount = before + amount := min_eq_left hfits
      rw [hafter, hadd, Option.some.injEq] at hget
      rw [hsum, h.cumulative blockHeight before hbefore, Nat.add_comm]
      exact hget
    · rw [hafter, Option.some.injEq] at hget
      rw [hsum, hget]
    · rw [hafter] at hget
      cases hget
  | unbump b =>
    obtain ⟨hplaced, hframe, hafter, hsum⟩ := exec_unbump h.placed hexec
    refine ⟨hplaced, hframe.cumulative h fun cumulative hget ↦ ?_⟩
    rw [hafter, Option.map_eq_some_iff] at hget
    obtain ⟨before, hbefore, hsub⟩ := hget
    have hexact := h.cumulative b.blockHeight before hbefore
    by_cases hcurrent : b.current = true
    · have hshare : b.share b.blockHeight = b.amount := if_pos ⟨rfl, hcurrent⟩
      omega
    · have hshare := share_stale (Bool.not_eq_true _ ▸ hcurrent) b.blockHeight
      rcases hkeeps before hbefore with htrue | hzero | hzero
      · exact absurd htrue hcurrent
      · omega
      · omega
  | resize newCapacity =>
    obtain ⟨hplaced, hsame, hkept⟩ := exec_resize h.placed hexec
    refine ⟨hplaced, fun blockHeight cumulative hget ↦ ?_⟩
    unfold currentSum
    rw [hsame]
    exact h.cumulative blockHeight cumulative (hkept blockHeight cumulative hget)

/-- An operation that misses the condition makes the ring forget. -/
theorem Exact.keeps_of_remembers {op : RingOp} (h : s.Exact) (hexec : s.exec op = some s')
    (hremembers : s'.Remembers) : s.Keeps op := by
  cases op with
  | bump blockHeight amount =>
    intro before hbefore
    obtain ⟨_, _, hcases⟩ := exec_bump h.placed hexec
    rcases hcases with ⟨before', hbefore', hafter, hsum⟩ | ⟨habsent, _⟩ | ⟨habsent, _⟩
    · have hsame : before' = before := Option.some.inj (hbefore'.symm.trans hbefore)
      have hle := hremembers blockHeight _ hafter
      rw [hsum, h.cumulative blockHeight before hbefore, hsame] at hle
      have hmax : saturatingAdd before amount ≤ u128Max := min_le_right _ _
      omega
    · rw [hbefore] at habsent
      cases habsent
    · rw [hbefore] at habsent
      cases habsent
  | unbump b =>
    intro before hbefore
    obtain ⟨_, _, hafter, hsum⟩ := exec_unbump h.placed hexec
    rw [hbefore, Option.map_some] at hafter
    have hle := hremembers b.blockHeight _ hafter
    have hexact := h.cumulative b.blockHeight before hbefore
    by_cases hcurrent : b.current = true
    · exact Or.inl hcurrent
    · have hshare := share_stale (Bool.not_eq_true _ ▸ hcurrent) b.blockHeight
      right
      omega
  | resize newCapacity => exact trivial

/-- The ring remembers the sums of its resident blocks all along a sequence of operations exactly
when no operation taken saturates a cell or takes from a block what is not from its present
stay. -/
theorem remembers_iff {capacity : ℕ} (hnew : new capacity = some s) (ops : List RingOp) :
    (∀ x ∈ Transition.visited exec s ops, x.Remembers) ↔
      ∀ x ∈ Transition.taken exec s ops, x.1.Keeps x.2 :=
  Transition.visited_iff_taken (fun _ h ↦ h.remembers)
    (fun _ _ _ h hexec hkeeps ↦ h.step hexec hkeeps)
    (fun _ _ _ h hexec hremembers ↦ h.keeps_of_remembers hexec hremembers) ops s (exact_new hnew)

namespace Sample

/-- Block 0 is evicted by block 2 and let in again after the capacity has changed; then the first
addition to it is undone. -/
def readmission : List RingOp :=
  [.bump 0 5, .bump 2 1, .resize 3, .bump 0 7, .unbump ⟨0, 5, false⟩]

end Sample

theorem remembers_iff_readmission : ∃ s, new 2 = some s ∧
    ((∀ x ∈ Transition.visited exec s Sample.readmission, x.Remembers) ↔
      ∀ x ∈ Transition.taken exec s Sample.readmission, x.1.Keeps x.2) :=
  ⟨_, rfl, @remembers_iff _ 2 rfl Sample.readmission⟩

/-- The second addition to the block is forgotten although it was never undone. -/
theorem forgets_readmission : ¬ ∀ (capacity : ℕ) (ops : List RingOp) (s s' : RingAccount),
    new capacity = some s → Transition.execAll exec s ops = some s' →
      ∀ blockHeight cumulative, s'.ring.get blockHeight = some cumulative →
        s'.currentSum blockHeight ≤ cumulative := by
  intro hclaim
  have hget : ∃ s s', new 2 = some s ∧ Transition.execAll exec s Sample.readmission = some s' ∧
      s'.ring.get 0 = some 2 ∧ s'.currentSum 0 = 7 := ⟨_, _, rfl, rfl, by decide, by decide⟩
  obtain ⟨s, s', hnew, hrun, hreads, hsum⟩ := hget
  have hle := hclaim 2 Sample.readmission s s' hnew hrun 0 2 hreads
  rw [hsum] at hle
  exact absurd hle (by decide)

end RingAccount

end SatoshiBridge
