import SatoshiBridge.Invariants.BlockAmounts

/-!
# The resident blocks of the ring

A block is resident while `get` reads it. Each operation is described by what it does to this
reading; for a change of the capacity every entry has to lie in the slot of its block.
-/

set_option autoImplicit false
set_option relaxedAutoImplicit false

namespace SatoshiBridge

/-! ### What `get` reads after each operation -/

namespace BlockAmountRing

variable {ring ring' : BlockAmountRing}

theorem get_eq_some {blockHeight cumulative : ℕ} :
    ring.get blockHeight = some cumulative ↔
      ring.cell blockHeight = some ⟨blockHeight, cumulative⟩ := by
  unfold get
  cases hcell : ring.cell blockHeight with
  | none => simp only [reduceCtorEq]
  | some c =>
    obtain ⟨height, amount⟩ := c
    simp only [Option.some.injEq, BlockAmountCell.mk.injEq]
    by_cases hsame : height = blockHeight
    · simp only [hsame, if_true, Option.some.injEq, true_and]
    · simp only [hsame, if_false, reduceCtorEq, false_and]

theorem get_new {capacity : ℕ} (h : new capacity = some ring) (blockHeight : ℕ) :
    ring.get blockHeight = none := by
  simp only [new, Option.bind_eq_bind, Option.bind_eq_some_iff, Option.some.injEq] at h
  obtain ⟨_, _, rfl⟩ := h
  unfold get cell
  simp only [List.getElem?_replicate]
  split
  · rename_i c hc
    split at hc
    · cases hc
    · cases hc
  · rfl

/-- Two resident blocks do not share a slot. -/
theorem get_inj {blockHeight other cumulative cumulative' : ℕ}
    (h : ring.get blockHeight = some cumulative) (h' : ring.get other = some cumulative')
    (hslot : ring.slot other = ring.slot blockHeight) : other = blockHeight := by
  have hcell : ring.cell other = ring.cell blockHeight := by
    rw [cell, hslot]
    rfl
  rw [get_eq_some.mp h', get_eq_some.mp h, Option.some.injEq, BlockAmountCell.mk.injEq] at hcell
  exact hcell.1

theorem get_setCell (hcap : 0 < ring.capacity) (blockHeight cumulativeSats other : ℕ) :
    (ring.setCell blockHeight cumulativeSats).get other =
      if ring.slot other = ring.slot blockHeight then
        if other = blockHeight then some cumulativeSats else none
      else ring.get other := by
  unfold get
  rw [cell_setCell hcap]
  by_cases hslot : ring.slot other = ring.slot blockHeight
  · rw [if_pos hslot, if_pos hslot]
    dsimp only
    by_cases hother : other = blockHeight
    · rw [if_pos hother, if_pos hother.symm]
    · rw [if_neg hother, if_neg (Ne.symm hother)]
  · rw [if_neg hslot, if_neg hslot]

/-- Rewriting the cell of a resident block changes what is read of this block only. -/
theorem get_setCell_resident (hcap : 0 < ring.capacity) {blockHeight cumulative : ℕ}
    (h : ring.get blockHeight = some cumulative) (cumulativeSats other : ℕ) :
    (ring.setCell blockHeight cumulativeSats).get other =
      if other = blockHeight then some cumulativeSats else ring.get other := by
  rw [get_setCell hcap]
  by_cases hother : other = blockHeight
  · rw [if_pos (by rw [hother]), if_pos hother, if_pos hother]
  · rw [if_neg hother, if_neg hother]
    by_cases hslot : ring.slot other = ring.slot blockHeight
    · rw [if_pos hslot]
      cases hget : ring.get other with
      | none => rfl
      | some c => exact absurd (get_inj h hget hslot) hother
    · rw [if_neg hslot]

/-- `bump` on a resident block. -/
theorem bump_resident {blockHeight cumulative : ℕ} (h : ring.get blockHeight = some cumulative)
    (amount : ℕ) : ring.bump blockHeight amount =
      (ring.setCell blockHeight (saturatingAdd cumulative amount),
        some (saturatingAdd cumulative amount)) := by
  unfold bump
  rw [get_eq_some.mp h]
  exact if_pos rfl

/-- `bump` on a block that is not resident lets it in with the amount or leaves the ring as it
is. -/
theorem bump_absent {blockHeight : ℕ} (h : ring.get blockHeight = none) (amount : ℕ) :
    ring.bump blockHeight amount = (ring.setCell blockHeight amount, some amount) ∨
      ring.bump blockHeight amount = (ring, none) := by
  unfold get at h
  unfold bump
  cases hcell : ring.cell blockHeight with
  | none => exact Or.inl rfl
  | some c =>
    rw [hcell] at h
    dsimp only at h ⊢
    by_cases hsame : c.blockHeight = blockHeight
    · rw [if_pos hsame] at h
      cases h
    · rw [if_neg hsame]
      by_cases hnewer : blockHeight < c.blockHeight
      · exact Or.inr (if_pos hnewer)
      · exact Or.inl (if_neg hnewer)

/-- `unbump` takes from a resident block and touches nothing else. -/
theorem get_unbump (hcap : 0 < ring.capacity) (blockHeight amount other : ℕ) :
    (ring.unbump blockHeight amount).get other =
      if other = blockHeight then (ring.get blockHeight).map (· - amount) else ring.get other := by
  cases hget : ring.get blockHeight with
  | some cumulative =>
    have hunbump : ring.unbump blockHeight amount =
        ring.setCell blockHeight (cumulative - amount) := by
      unfold unbump
      rw [get_eq_some.mp hget]
      exact if_pos rfl
    rw [hunbump, get_setCell_resident hcap hget, Option.map_some]
  | none =>
    have hunbump : ring.unbump blockHeight amount = ring := by
      unfold get at hget
      unfold unbump
      cases hcell : ring.cell blockHeight with
      | none => rfl
      | some c =>
        rw [hcell] at hget
        dsimp only at hget ⊢
        by_cases hsame : c.blockHeight = blockHeight
        · rw [if_pos hsame] at hget
          cases hget
        · exact if_neg hsame
    rw [hunbump, Option.map_none]
    by_cases hother : other = blockHeight
    · rw [if_pos hother, hother, hget]
    · rw [if_neg hother]

/-! ### The slots of a ring -/

/-- Every entry of a list of cells lies in the slot of its block. -/
def InSlots (capacity : ℕ) (cells : List (Option BlockAmountCell)) : Prop :=
  ∀ i c, cells[i]? = some (some c) → c.blockHeight % capacity = i

theorem inSlots_replicate (capacity n : ℕ) : InSlots capacity (List.replicate n none) := by
  intro i c h
  rw [List.getElem?_replicate] at h
  split at h
  · cases h
  · cases h

theorem InSlots.set {capacity : ℕ} {cells : List (Option BlockAmountCell)}
    (h : InSlots capacity cells) (c : BlockAmountCell) :
    InSlots capacity (cells.set (c.blockHeight % capacity) (some c)) := by
  intro i c' hget
  rw [List.getElem?_set] at hget
  split at hget
  · rename_i hi
    split at hget
    · simp only [Option.some.injEq] at hget
      rw [← hget]
      exact hi
    · cases hget
  · exact h i c' hget

/-- A ring that has cells and holds every block in its slot. -/
structure Placed (ring : BlockAmountRing) : Prop where
  capacity_pos : 0 < ring.capacity
  inSlots : InSlots ring.capacity ring.cells

theorem Placed.setCell (h : ring.Placed) (blockHeight cumulativeSats : ℕ) :
    (ring.setCell blockHeight cumulativeSats).Placed := by
  constructor
  · rw [capacity_setCell]
    exact h.capacity_pos
  · rw [capacity_setCell]
    exact h.inSlots.set ⟨blockHeight, cumulativeSats⟩

theorem placed_new {capacity : ℕ} (h : new capacity = some ring) : ring.Placed := by
  obtain ⟨hcapacity, hpos⟩ := capacity_new h
  simp only [new, Option.bind_eq_bind, Option.bind_eq_some_iff, require_eq_some,
    Option.some.injEq, exists_const] at h
  obtain ⟨_, rfl⟩ := h
  exact ⟨by rw [hcapacity]; exact hpos, inSlots_replicate _ _⟩

theorem Placed.bump (h : ring.Placed) (blockHeight amount : ℕ) :
    (ring.bump blockHeight amount).1.Placed := by
  cases hget : ring.get blockHeight with
  | some cumulative =>
    rw [bump_resident hget]
    exact h.setCell _ _
  | none =>
    rcases bump_absent hget amount with hbump | hbump
    · rw [hbump]
      exact h.setCell _ _
    · rw [hbump]
      exact h

theorem Placed.unbump (h : ring.Placed) (blockHeight amount : ℕ) :
    (ring.unbump blockHeight amount).Placed := by
  unfold BlockAmountRing.unbump
  cases ring.cell blockHeight with
  | none => exact h
  | some c =>
    dsimp only
    split
    · exact h.setCell _ _
    · exact h

/-- An entry placed by `resize` is the one moved or stood there before. -/
theorem mem_place {newCapacity : ℕ} {cells : List (Option BlockAmountCell)}
    {entry c : BlockAmountCell} (h : some c ∈ place newCapacity cells entry) :
    c = entry ∨ some c ∈ cells := by
  have hset : some c ∈ cells.set (entry.blockHeight % newCapacity) (some entry) →
      c = entry ∨ some c ∈ cells := by
    intro hmem
    rcases List.mem_or_eq_of_mem_set hmem with hold | hnew
    · exact Or.inr hold
    · exact Or.inl (Option.some.inj hnew)
  unfold place at h
  split at h
  · split at h
    · exact hset h
    · exact Or.inr h
  · exact hset h

theorem InSlots.place {newCapacity : ℕ} {cells : List (Option BlockAmountCell)}
    (h : InSlots newCapacity cells) (entry : BlockAmountCell) :
    InSlots newCapacity (place newCapacity cells entry) := by
  unfold BlockAmountRing.place
  split
  · split
    · exact h.set entry
    · exact h
  · exact h.set entry

theorem length_place (newCapacity : ℕ) (cells : List (Option BlockAmountCell))
    (entry : BlockAmountCell) : (place newCapacity cells entry).length = cells.length := by
  unfold place
  split
  · split
    · exact List.length_set
    · rfl
  · exact List.length_set

/-- The cells after all entries have been moved. -/
theorem foldl_place {newCapacity : ℕ} (entries : List BlockAmountCell) :
    ∀ {cells : List (Option BlockAmountCell)}, InSlots newCapacity cells →
      InSlots newCapacity (entries.foldl (place newCapacity) cells) ∧
        (entries.foldl (place newCapacity) cells).length = cells.length ∧
        ∀ c, some c ∈ entries.foldl (place newCapacity) cells → c ∈ entries ∨ some c ∈ cells := by
  induction entries with
  | nil =>
    intro cells h
    exact ⟨h, rfl, fun c hc ↦ Or.inr hc⟩
  | cons entry rest ih =>
    intro cells h
    obtain ⟨hslots, hlength, hmem⟩ := ih (h.place entry)
    refine ⟨hslots, hlength.trans (length_place newCapacity cells entry), fun c hc ↦ ?_⟩
    rcases hmem c hc with hrest | hplaced
    · exact Or.inl (List.mem_cons_of_mem entry hrest)
    · rcases mem_place hplaced with rfl | hold
      · exact Or.inl List.mem_cons_self
      · exact Or.inr hold

/-- `resize` answers a ring of the capacity asked for. -/
theorem capacity_resize {newCapacity : ℕ} (h : ring.resize newCapacity = some ring') :
    ring'.capacity = newCapacity ∧ 0 < newCapacity := by
  simp only [resize, Option.bind_eq_bind, Option.bind_eq_some_iff, require_eq_some,
    exists_const] at h
  obtain ⟨hpos, h⟩ := h
  split at h
  · rename_i hsame
    rw [← Option.some.inj h]
    exact ⟨hsame.symm, hpos⟩
  · rw [← Option.some.inj h]
    exact ⟨(foldl_place _ (inSlots_replicate newCapacity newCapacity)).2.1.trans
      List.length_replicate, hpos⟩

/-- `resize` keeps every block it keeps with its amount, and lets none in. -/
theorem resize_spec {newCapacity : ℕ} (hplaced : ring.Placed)
    (h : ring.resize newCapacity = some ring') :
    ring'.Placed ∧ ∀ blockHeight cumulative, ring'.get blockHeight = some cumulative →
      ring.get blockHeight = some cumulative := by
  have hcapacity := capacity_resize h
  simp only [resize, Option.bind_eq_bind, Option.bind_eq_some_iff, require_eq_some,
    exists_const] at h
  obtain ⟨hpos, h⟩ := h
  split at h
  · rw [← Option.some.inj h]
    exact ⟨hplaced, fun _ _ hget ↦ hget⟩
  · obtain ⟨hslots, _, hmem⟩ := foldl_place (ring.cells.filterMap id)
      (inSlots_replicate newCapacity newCapacity)
    have hring := Option.some.inj h
    constructor
    · constructor
      · rw [hcapacity.1]
        exact hpos
      · rw [hcapacity.1, ← hring]
        exact hslots
    · intro blockHeight cumulative hget
      have hcell : some ⟨blockHeight, cumulative⟩ ∈ ring'.cells := by
        have hjoin := get_eq_some.mp hget
        unfold cell at hjoin
        rw [Option.join_eq_some_iff] at hjoin
        exact List.mem_of_getElem? hjoin
      rw [← hring] at hcell
      -- The entry was in the old ring, and there it lies in the slot `get` looks at.
      rcases hmem _ hcell with hentry | hempty
      · rw [List.mem_filterMap] at hentry
        obtain ⟨entry, hentry, hid⟩ := hentry
        obtain ⟨i, hi⟩ := List.mem_iff_getElem?.mp hentry
        rw [id_eq] at hid
        rw [hid] at hi
        have hslot : ring.slot blockHeight = i := hplaced.inSlots i _ hi
        rw [get_eq_some, cell, hslot, hi]
        rfl
      · exact absurd (List.eq_of_mem_replicate hempty) (Option.some_ne_none _)

/-! ### Blocks that are passed and blocks that are evicted -/

/-- The entry in the slot of a block is the resident block of this slot. -/
theorem Placed.get_of_cell (h : ring.Placed) {blockHeight : ℕ} {c : BlockAmountCell}
    (hcell : ring.cell blockHeight = some c) :
    ring.slot c.blockHeight = ring.slot blockHeight ∧
      ring.get c.blockHeight = some c.cumulativeSats := by
  have hat : ring.cells[ring.slot blockHeight]? = some (some c) := by
    unfold cell at hcell
    rw [Option.join_eq_some_iff] at hcell
    exact hcell
  have hslot : ring.slot c.blockHeight = ring.slot blockHeight := h.inSlots _ c hat
  refine ⟨hslot, ?_⟩
  rw [get_eq_some, cell, hslot, hat]
  rfl

/-- A block is refused for a newer resident block of its slot. -/
theorem Placed.bump_none (h : ring.Placed) {blockHeight amount : ℕ}
    (hnone : (ring.bump blockHeight amount).2 = none) :
    ∃ newer cumulative, ring.get newer = some cumulative ∧ blockHeight < newer ∧
      ring.slot newer = ring.slot blockHeight := by
  unfold BlockAmountRing.bump at hnone
  cases hcell : ring.cell blockHeight with
  | none =>
    rw [hcell] at hnone
    cases hnone
  | some c =>
    rw [hcell] at hnone
    dsimp only at hnone
    split at hnone
    · cases hnone
    · split at hnone
      · rename_i hnewer
        obtain ⟨hslot, hget⟩ := h.get_of_cell hcell
        exact ⟨c.blockHeight, c.cumulativeSats, hget, hnewer, hslot⟩
      · cases hnone

/-- A block is evicted by a newer block of its slot. -/
theorem Placed.bump_evicts (h : ring.Placed) {blockHeight amount older cumulative : ℕ}
    (hget : ring.get older = some cumulative)
    (hgone : (ring.bump blockHeight amount).1.get older = none) :
    older < blockHeight ∧ ring.slot blockHeight = ring.slot older := by
  have hwritten (hslot : ring.slot older = ring.slot blockHeight) :
      ring.cell blockHeight = some ⟨older, cumulative⟩ := by
    rw [cell, ← hslot]
    exact get_eq_some.mp hget
  cases hresident : ring.get blockHeight with
  | some total =>
    rw [bump_resident hresident, get_setCell_resident h.capacity_pos hresident] at hgone
    split at hgone
    · cases hgone
    · rw [hget] at hgone
      cases hgone
  | none =>
    rcases bump_absent hresident amount with hbump | hbump
    · have hbump' := hbump
      rw [hbump, get_setCell h.capacity_pos] at hgone
      by_cases hslot : ring.slot older = ring.slot blockHeight
      · refine ⟨?_, hslot.symm⟩
        have hcell := hwritten hslot
        unfold BlockAmountRing.bump at hbump'
        rw [hcell] at hbump'
        dsimp only at hbump'
        by_contra hle
        by_cases hsame : older = blockHeight
        · rw [if_pos hslot, if_pos hsame] at hgone
          cases hgone
        · rw [if_neg hsame, if_pos (by omega), Prod.mk.injEq] at hbump'
          cases hbump'.2
      · rw [if_neg hslot, hget] at hgone
        cases hgone
    · rw [hbump, hget] at hgone
      cases hgone

/-- What is resident after `bump` was resident before or is the block itself. -/
theorem Placed.get_bump (h : ring.Placed) {blockHeight amount other cumulative : ℕ}
    (hget : (ring.bump blockHeight amount).1.get other = some cumulative) :
    other = blockHeight ∨ ring.get other = some cumulative := by
  cases hresident : ring.get blockHeight with
  | some total =>
    rw [bump_resident hresident, get_setCell_resident h.capacity_pos hresident] at hget
    split at hget
    · rename_i hsame
      exact Or.inl hsame
    · exact Or.inr hget
  | none =>
    rcases bump_absent hresident amount with hbump | hbump
    · rw [hbump, get_setCell h.capacity_pos] at hget
      split at hget
      · split at hget
        · rename_i hsame
          exact Or.inl hsame
        · cases hget
      · exact Or.inr hget
    · rw [hbump] at hget
      exact Or.inr hget

end BlockAmountRing

end SatoshiBridge
