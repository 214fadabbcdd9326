import Mathlib.Data.Int.ModEq
import SatoshiBridge.Model.Contract

/-!
# What the ring stands for

A ring says of every height what is standing there: the amount of a resident block, nothing yet for
a block newer than the one in its cell, or that the block was passed by a newer one. Adding to a
block, taking back from it and the tiers are stated on this reading alone; the cells do not occur
any more.
-/

set_option autoImplicit false
set_option relaxedAutoImplicit false

namespace SatoshiBridge

namespace BlockAmountRing

/-- What stands at a height; `none` when a newer block has passed it. -/
def standing (ring : BlockAmountRing) (blockHeight : ℕ) : Option ℕ :=
  match ring.cell blockHeight with
  | some c =>
    if c.blockHeight = blockHeight then some c.cumulativeSats
    else if blockHeight < c.blockHeight then none
    else some 0
  | none => some 0

variable {ring : BlockAmountRing}

@[simp] theorem capacity_setCell (blockHeight cumulativeSats : ℕ) :
    (ring.setCell blockHeight cumulativeSats).capacity = ring.capacity := by
  simp only [setCell, capacity, List.length_set]

/-- Writing a cell changes what all blocks of its slot read and nothing else. -/
theorem cell_setCell (hcap : 0 < ring.capacity) (blockHeight cumulativeSats other : ℕ) :
    (ring.setCell blockHeight cumulativeSats).cell other =
      if ring.slot other = ring.slot blockHeight then some ⟨blockHeight, cumulativeSats⟩
      else ring.cell other := by
  have hslot : (ring.setCell blockHeight cumulativeSats).slot other = ring.slot other := by
    rw [slot, capacity_setCell, slot]
  have hlt : ring.slot blockHeight < ring.cells.length := Nat.mod_lt _ hcap
  rw [cell, hslot]
  simp only [setCell]
  by_cases h : ring.slot other = ring.slot blockHeight
  · rw [if_pos h, h, List.getElem?_set_self hlt, Option.join_some]
  · rw [if_neg h, List.getElem?_set_ne (Ne.symm h)]
    rfl

/-- What stands at the heights of a slot after its cell was written. -/
theorem standing_setCell (hcap : 0 < ring.capacity) (blockHeight cumulativeSats other : ℕ) :
    (ring.setCell blockHeight cumulativeSats).standing other =
      if ring.slot other = ring.slot blockHeight then
        if other = blockHeight then some cumulativeSats
        else if other < blockHeight then none
        else some 0
      else ring.standing other := by
  unfold standing
  rw [cell_setCell hcap]
  by_cases h : ring.slot other = ring.slot blockHeight
  · rw [if_pos h, if_pos h]
    dsimp only
    by_cases hother : other = blockHeight
    · rw [if_pos hother, if_pos hother.symm]
    · rw [if_neg hother, if_neg (Ne.symm hother)]
  · rw [if_neg h, if_neg h]

/-- Once a block stands, nothing stands yet at the newer blocks of its slot. -/
theorem standing_newer {blockHeight newer amount : ℕ}
    (h : ring.standing blockHeight = some amount) (hlt : blockHeight < newer)
    (hslot : ring.slot newer = ring.slot blockHeight) : ring.standing newer = some 0 := by
  have hcell : ring.cell newer = ring.cell blockHeight := by
    rw [cell, hslot]
    rfl
  unfold standing at h ⊢
  rw [hcell]
  cases hc : ring.cell blockHeight with
  | none => rfl
  | some c =>
    rw [hc] at h
    dsimp only at h ⊢
    by_cases hsame : c.blockHeight = blockHeight
    · rw [if_neg (by omega), if_neg (by omega)]
    · rw [if_neg hsame] at h
      by_cases hpassed : blockHeight < c.blockHeight
      · rw [if_pos hpassed] at h
        cases h
      · rw [if_neg (by omega), if_neg (by omega)]

theorem standing_new {capacity : ℕ} {ring : BlockAmountRing} (h : new capacity = some ring)
    (blockHeight : ℕ) : ring.standing blockHeight = some 0 := by
  simp only [new, Option.bind_eq_bind, Option.bind_eq_some_iff, Option.some.injEq] at h
  obtain ⟨_, _, rfl⟩ := h
  unfold standing cell
  simp only [List.getElem?_replicate]
  split
  · rename_i c hc
    split at hc
    · cases hc
    · cases hc
  · rfl

theorem capacity_new {capacity : ℕ} {ring : BlockAmountRing} (h : new capacity = some ring) :
    ring.capacity = capacity ∧ 0 < capacity := by
  simp only [new, Option.bind_eq_bind, Option.bind_eq_some_iff, require_eq_some,
    Option.some.injEq, exists_const] at h
  obtain ⟨hpos, rfl⟩ := h
  exact ⟨List.length_replicate, hpos⟩

/-! ### Adding to a block -/

/-- `bump` on a block that was passed does nothing. -/
theorem bump_passed {blockHeight amount : ℕ} (h : ring.standing blockHeight = none) :
    ring.bump blockHeight amount = (ring, none) := by
  unfold standing at h
  unfold bump
  cases hc : ring.cell blockHeight with
  | none =>
    rw [hc] at h
    cases h
  | some c =>
    rw [hc] at h
    dsimp only at h ⊢
    by_cases hsame : c.blockHeight = blockHeight
    · rw [if_pos hsame] at h
      cases h
    · rw [if_neg hsame] at h ⊢
      by_cases hpassed : blockHeight < c.blockHeight
      · rw [if_pos hpassed]
      · rw [if_neg hpassed] at h
        cases h

/-- `bump` on a block that stands adds the amount. -/
theorem bump_standing {blockHeight amount total : ℕ}
    (h : ring.standing blockHeight = some total) (hsum : total + amount ≤ u128Max) :
    ring.bump blockHeight amount =
      (ring.setCell blockHeight (total + amount), some (total + amount)) := by
  have hsat : saturatingAdd total amount = total + amount := min_eq_left hsum
  unfold standing at h
  unfold bump
  cases hc : ring.cell blockHeight with
  | none =>
    rw [hc] at h
    cases h
    rw [zero_add]
  | some c =>
    rw [hc] at h
    dsimp only at h ⊢
    by_cases hsame : c.blockHeight = blockHeight
    · rw [if_pos hsame, Option.some.injEq] at h
      rw [if_pos hsame, h, hsat]
    · rw [if_neg hsame] at h ⊢
      by_cases hpassed : blockHeight < c.blockHeight
      · rw [if_pos hpassed] at h
        cases h
      · rw [if_neg hpassed, Option.some.injEq] at h
        rw [if_neg hpassed, ← h, zero_add]

/-- What `bump` answers, on the reading of the block. -/
theorem bump_reads {blockHeight amount : ℕ}
    (hsum : ∀ total, ring.standing blockHeight = some total → total + amount ≤ u128Max) :
    (ring.bump blockHeight amount).2 = (ring.standing blockHeight).map (· + amount) := by
  cases hstanding : ring.standing blockHeight with
  | none => rw [bump_passed hstanding, Option.map_none]
  | some total => rw [bump_standing hstanding (hsum total hstanding), Option.map_some]

/-- `unbump` takes the amount back where the block is resident. -/
theorem standing_unbump (hcap : 0 < ring.capacity) (blockHeight amount other : ℕ) :
    (ring.unbump blockHeight amount).standing other =
      if other = blockHeight then (ring.standing blockHeight).map (· - amount)
      else ring.standing other := by
  unfold unbump
  cases hc : ring.cell blockHeight with
  | none =>
    by_cases h : other = blockHeight
    · rw [if_pos h, h]
      unfold standing
      rw [hc]
      rw [Option.map_some, Nat.zero_sub]
    · rw [if_neg h]
  | some c =>
    dsimp only
    by_cases hsame : c.blockHeight = blockHeight
    · rw [if_pos hsame, standing_setCell hcap]
      by_cases h : other = blockHeight
      · rw [if_pos (by rw [h]), if_pos h, if_pos h]
        unfold standing
        rw [hc]
        simp only [if_pos hsame, Option.map_some]
      · rw [if_neg h, if_neg h]
        by_cases hslot : ring.slot other = ring.slot blockHeight
        · rw [if_pos hslot]
          have hcell : ring.cell other = some c := by
            rw [← hc, cell, hslot]
            rfl
          unfold standing
          rw [hcell]
          dsimp only
          rw [hsame, if_neg (Ne.symm h)]
        · rw [if_neg hslot]
    · rw [if_neg hsame]
      by_cases h : other = blockHeight
      · rw [if_pos h, h]
        unfold standing
        rw [hc]
        dsimp only
        rw [if_neg hsame]
        by_cases hpassed : blockHeight < c.blockHeight
        · rw [if_pos hpassed, Option.map_none]
        · rw [if_neg hpassed, Option.map_some, Nat.zero_sub]
      · rw [if_neg h]

@[simp] theorem capacity_unbump (blockHeight amount : ℕ) :
    (ring.unbump blockHeight amount).capacity = ring.capacity := by
  unfold unbump
  cases ring.cell blockHeight with
  | none => rfl
  | some c =>
    dsimp only
    split
    · exact capacity_setCell _ _
    · rfl

@[simp] theorem capacity_bump (blockHeight amount : ℕ) :
    (ring.bump blockHeight amount).1.capacity = ring.capacity := by
  unfold bump
  cases ring.cell blockHeight with
  | none => exact capacity_setCell _ _
  | some c =>
    dsimp only
    split
    · exact capacity_setCell _ _
    · split
      · rfl
      · exact capacity_setCell _ _

/-! ### Rings that differ by some amounts -/

/-- Two blocks of one slot are a capacity apart. -/
theorem add_capacity_le {older newer : ℕ} (hslot : ring.slot newer = ring.slot older)
    (hlt : older < newer) : older + ring.capacity ≤ newer := by
  unfold slot at hslot
  have hdvd : ring.capacity ∣ newer - older := (Nat.modEq_iff_dvd' hlt.le).mp hslot.symm
  have hle := Nat.le_of_dvd (Nat.sub_pos_of_lt hlt) hdvd
  omega

/-- Newer blocks read the same after a `bump`. -/
theorem standing_bump_newer (hcap : 0 < ring.capacity) {blockHeight newer amount : ℕ}
    (hsum : ∀ total, ring.standing blockHeight = some total → total + amount ≤ u128Max)
    (hlt : blockHeight < newer) :
    (ring.bump blockHeight amount).1.standing newer = ring.standing newer := by
  cases hstanding : ring.standing blockHeight with
  | none => rw [bump_passed hstanding]
  | some total =>
    rw [bump_standing hstanding (hsum total hstanding), standing_setCell hcap]
    by_cases hslot : ring.slot newer = ring.slot blockHeight
    · rw [if_pos hslot, if_neg (by omega), if_neg (by omega)]
      exact (standing_newer hstanding hlt hslot).symm
    · rw [if_neg hslot]

/-- At every block less than a capacity below the tip, `x` reads `extra` more than `y`. -/
structure Offset (extra : ℕ → ℕ) (tip : ℕ) (x y : BlockAmountRing) : Prop where
  capacity : x.capacity = y.capacity
  recent : ∀ blockHeight, tip < blockHeight + y.capacity →
    x.standing blockHeight = (y.standing blockHeight).map (· + extra blockHeight)

namespace Offset

variable {extra : ℕ → ℕ} {tip tip' : ℕ} {x y : BlockAmountRing}

theorem mono (h : Offset extra tip x y) (hle : tip ≤ tip') : Offset extra tip' x y :=
  ⟨h.capacity, fun blockHeight hrecent ↦ h.recent blockHeight (lt_of_le_of_lt hle hrecent)⟩

/-- Adding the same amount to both rings keeps their distance. -/
theorem bump (h : Offset extra tip x y) (hcap : 0 < y.capacity)
    (hextra : ∀ blockHeight, extra blockHeight ≠ 0 → blockHeight ≤ tip) {blockHeight amount : ℕ}
    (hx : ∀ total, x.standing blockHeight = some total → total + amount ≤ u128Max)
    (hy : ∀ total, y.standing blockHeight = some total → total + amount ≤ u128Max) :
    Offset extra tip (x.bump blockHeight amount).1 (y.bump blockHeight amount).1 := by
  have hcapx : 0 < x.capacity := by
    rw [h.capacity]
    exact hcap
  refine ⟨by rw [capacity_bump, capacity_bump, h.capacity], fun other hother ↦ ?_⟩
  rw [capacity_bump] at hother
  by_cases hdeep : blockHeight + y.capacity ≤ tip
  · -- A block that far down changes nothing for those above it.
    have hlt : blockHeight < other := by omega
    rw [standing_bump_newer hcapx hx hlt, standing_bump_newer hcap hy hlt]
    exact h.recent other hother
  · have hrecent := h.recent blockHeight (by omega)
    cases hstanding : y.standing blockHeight with
    | none =>
      rw [hstanding, Option.map_none] at hrecent
      rw [bump_passed hstanding, bump_passed hrecent]
      exact h.recent other hother
    | some total =>
      rw [hstanding, Option.map_some] at hrecent
      rw [bump_standing hstanding (hy _ hstanding), bump_standing hrecent (hx _ hrecent),
        standing_setCell hcapx, standing_setCell hcap]
      have hslots : x.slot other = x.slot blockHeight ↔ y.slot other = y.slot blockHeight := by
        unfold slot
        rw [h.capacity]
      by_cases hslot : y.slot other = y.slot blockHeight
      · rw [if_pos (hslots.mpr hslot), if_pos hslot]
        by_cases heq : other = blockHeight
        · rw [if_pos heq, if_pos heq, heq, Option.map_some, Nat.add_right_comm]
        · rw [if_neg heq, if_neg heq]
          by_cases hlt : other < blockHeight
          · rw [if_pos hlt, Option.map_none]
          · have hapart := add_capacity_le hslot (by omega)
            have hzero : extra other = 0 := by
              by_contra hne
              have hle := hextra other hne
              omega
            rw [if_neg hlt, Option.map_some, hzero]
      · rw [if_neg (hslots.not.mpr hslot), if_neg hslot]
        exact h.recent other hother

/-- Taking the same amount back from both rings keeps their distance. -/
theorem unbump (h : Offset extra tip x y) (hcap : 0 < y.capacity) {blockHeight amount : ℕ}
    (hle : ∀ total, y.standing blockHeight = some total → amount ≤ total) :
    Offset extra tip (x.unbump blockHeight amount) (y.unbump blockHeight amount) := by
  have hcapx : 0 < x.capacity := by
    rw [h.capacity]
    exact hcap
  refine ⟨by rw [capacity_unbump, capacity_unbump, h.capacity], fun other hother ↦ ?_⟩
  rw [capacity_unbump] at hother
  rw [standing_unbump hcapx, standing_unbump hcap]
  by_cases heq : other = blockHeight
  · subst heq
    rw [if_pos rfl, if_pos rfl, h.recent other hother]
    cases hstanding : y.standing other with
    | none => rfl
    | some total =>
      have hamount := hle total hstanding
      rw [Option.map_some, Option.map_some, Option.map_some, Option.map_some, Option.some.injEq]
      omega
  · rw [if_neg heq, if_neg heq]
    exact h.recent other hother

/-- A ring is ahead by what was just added to it. -/
theorem of_bump (hcap : 0 < y.capacity) {blockHeight amount : ℕ} (htip : blockHeight ≤ tip)
    (hsum : ∀ total, y.standing blockHeight = some total → total + amount ≤ u128Max) :
    Offset (fun other ↦ if blockHeight = other then amount else 0) tip
      (y.bump blockHeight amount).1 y := by
  refine ⟨capacity_bump _ _, fun other hother ↦ ?_⟩
  cases hstanding : y.standing blockHeight with
  | none =>
    rw [bump_passed hstanding]
    by_cases heq : blockHeight = other
    · rw [← heq, hstanding, Option.map_none]
    · simp only [if_neg heq, Nat.add_zero, Option.map_id']
  | some total =>
    rw [bump_standing hstanding (hsum _ hstanding), standing_setCell hcap]
    by_cases hslot : y.slot other = y.slot blockHeight
    · rw [if_pos hslot]
      by_cases heq : other = blockHeight
      · rw [if_pos heq, heq, hstanding, Option.map_some, if_pos rfl]
      · have hlt : ¬other < blockHeight := fun hlt ↦ by
          have hapart := add_capacity_le hslot.symm hlt
          omega
        have hzero := standing_newer hstanding (by omega : blockHeight < other) hslot
        rw [if_neg heq, if_neg hlt, hzero, Option.map_some, if_neg (Ne.symm heq)]
    · have hne : blockHeight ≠ other := fun heq ↦ hslot (by rw [heq])
      simp only [if_neg hslot, if_neg hne, Nat.add_zero, Option.map_id']

/-- Taking back what a ring is ahead by. -/
theorem take_back {blockHeight amount : ℕ}
    (h : Offset (fun other ↦ if blockHeight = other then amount else 0) tip x y)
    (hcap : 0 < y.capacity) :
    Offset (fun _ ↦ 0) tip (x.unbump blockHeight amount) y := by
  have hcapx : 0 < x.capacity := by
    rw [h.capacity]
    exact hcap
  refine ⟨(capacity_unbump _ _).trans h.capacity, fun other hother ↦ ?_⟩
  have hrecent := h.recent other hother
  rw [standing_unbump hcapx]
  by_cases heq : other = blockHeight
  · subst heq
    rw [if_pos rfl, hrecent]
    cases y.standing other with
    | none => rfl
    | some total => simp only [if_true, Option.map_some, Nat.add_sub_cancel, Nat.add_zero]
  · rw [if_neg heq, hrecent]
    simp only [if_neg (Ne.symm heq)]

end Offset

end BlockAmountRing

end SatoshiBridge
