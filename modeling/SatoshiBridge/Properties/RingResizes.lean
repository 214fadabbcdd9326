import SatoshiBridge.Invariants.ResidentBlocks

/-!
# Changing the capacity of the ring

Entries are moved in the order of the old slots and collide under the new capacity. Whatever that
order is, the newest block of each residue class survives with its amount, and no other block does.
-/

set_option autoImplicit false
set_option relaxedAutoImplicit false

namespace SatoshiBridge

namespace BlockAmountRing

variable {ring ring' : BlockAmountRing} {newCapacity : ℕ}

/-- The rings that the four operations lead to. -/
inductive Reachable : BlockAmountRing → Prop
  | new {capacity : ℕ} {ring : BlockAmountRing} (h : new capacity = some ring) : Reachable ring
  | bump {ring : BlockAmountRing} (h : Reachable ring) (blockHeight amount : ℕ) :
      Reachable (ring.bump blockHeight amount).1
  | unbump {ring : BlockAmountRing} (h : Reachable ring) (blockHeight amount : ℕ) :
      Reachable (ring.unbump blockHeight amount)
  | resize {ring ring' : BlockAmountRing} (h : Reachable ring) {newCapacity : ℕ}
      (hresize : ring.resize newCapacity = some ring') : Reachable ring'

/-- In every such ring the blocks lie in their slots. -/
theorem Reachable.placed (h : Reachable ring) : ring.Placed := by
  induction h with
  | new h => exact placed_new h
  | bump h blockHeight amount ih => exact ih.bump blockHeight amount
  | unbump h blockHeight amount ih => exact ih.unbump blockHeight amount
  | resize h hresize ih => exact (resize_spec ih hresize).1

/-! ### The entries moved so far -/

/-- Every entry seen has one at least as new in the slot of its block. -/
def Supersedes (newCapacity : ℕ) (seen : List BlockAmountCell)
    (cells : List (Option BlockAmountCell)) : Prop :=
  ∀ e ∈ seen, ∃ c, cells[e.blockHeight % newCapacity]? = some (some c) ∧
    e.blockHeight ≤ c.blockHeight

/-- What stands in a slot gives way to newer blocks only. -/
theorem place_monotone {cells : List (Option BlockAmountCell)} {c : BlockAmountCell} {i : ℕ}
    (hc : cells[i]? = some (some c)) (entry : BlockAmountCell) :
    ∃ c', (place newCapacity cells entry)[i]? = some (some c') ∧
      c.blockHeight ≤ c'.blockHeight := by
  have hlength : i < cells.length := (List.getElem?_eq_some_iff.mp hc).1
  unfold place
  by_cases hi : entry.blockHeight % newCapacity = i
  · rw [hi, hc, Option.join_some]
    dsimp only
    by_cases hnewer : c.blockHeight < entry.blockHeight
    · rw [if_pos hnewer, List.getElem?_set_self hlength]
      exact ⟨entry, rfl, hnewer.le⟩
    · rw [if_neg hnewer]
      exact ⟨c, hc, le_rfl⟩
  · have hset : (cells.set (entry.blockHeight % newCapacity) (some entry))[i]? = some (some c) := by
      rw [List.getElem?_set_ne hi]
      exact hc
    split
    · split
      · exact ⟨c, hset, le_rfl⟩
      · exact ⟨c, hc, le_rfl⟩
    · exact ⟨c, hset, le_rfl⟩

/-- The entry that is moved finds a newer one in its slot or is put there. -/
theorem place_entry {cells : List (Option BlockAmountCell)} (entry : BlockAmountCell)
    (hlength : entry.blockHeight % newCapacity < cells.length) :
    ∃ c, (place newCapacity cells entry)[entry.blockHeight % newCapacity]? = some (some c) ∧
      entry.blockHeight ≤ c.blockHeight := by
  unfold place
  split
  · rename_i existing hexisting
    rw [Option.join_eq_some_iff] at hexisting
    by_cases hnewer : existing.blockHeight < entry.blockHeight
    · rw [if_pos hnewer, List.getElem?_set_self hlength]
      exact ⟨entry, rfl, le_rfl⟩
    · rw [if_neg hnewer]
      exact ⟨existing, hexisting, Nat.le_of_not_lt hnewer⟩
  · rw [List.getElem?_set_self hlength]
    exact ⟨entry, rfl, le_rfl⟩

/-- One turn of the loop. -/
theorem Supersedes.place {seen : List BlockAmountCell} {cells : List (Option BlockAmountCell)}
    (h : Supersedes newCapacity seen cells) (entry : BlockAmountCell)
    (hlength : entry.blockHeight % newCapacity < cells.length) :
    Supersedes newCapacity (seen ++ [entry]) (place newCapacity cells entry) := by
  intro e he
  rcases List.mem_append.mp he with hseen | hlast
  · obtain ⟨c, hc, hle⟩ := h e hseen
    obtain ⟨c', hc', hle'⟩ := place_monotone hc entry
    exact ⟨c', hc', hle.trans hle'⟩
  · rw [List.mem_singleton.mp hlast]
    exact place_entry entry hlength

/-- The loop, from any cells on. -/
theorem Supersedes.foldl (hpos : 0 < newCapacity) (entries : List BlockAmountCell) :
    ∀ {seen : List BlockAmountCell} {cells : List (Option BlockAmountCell)},
      cells.length = newCapacity → Supersedes newCapacity seen cells →
        Supersedes newCapacity (seen ++ entries) (entries.foldl (BlockAmountRing.place newCapacity)
          cells) := by
  induction entries with
  | nil =>
    intro seen cells _ h
    rw [List.append_nil]
    exact h
  | cons entry rest ih =>
    intro seen cells hlength h
    have hslot : entry.blockHeight % newCapacity < cells.length := by
      rw [hlength]
      exact Nat.mod_lt _ hpos
    have hmoved := ih ((length_place newCapacity cells entry).trans hlength) (h.place entry hslot)
    rw [List.append_assoc, List.singleton_append] at hmoved
    exact hmoved

/-! ### What survives -/

/-- The entries that are moved are the resident blocks. -/
theorem Placed.mem_entries (h : ring.Placed) {c : BlockAmountCell} :
    c ∈ ring.cells.filterMap id ↔ ring.get c.blockHeight = some c.cumulativeSats := by
  rw [List.mem_filterMap, get_eq_some, cell, Option.join_eq_some_iff]
  constructor
  · rintro ⟨entry, hentry, rfl⟩
    obtain ⟨i, hi⟩ := List.mem_iff_getElem?.mp hentry
    have hslot : ring.slot c.blockHeight = i := h.inSlots i c hi
    rw [hslot]
    exact hi
  · intro hget
    exact ⟨some c, List.mem_of_getElem? hget, rfl⟩

/-- A newer resident block falls on the same slot under the new capacity. -/
def Displaced (ring : BlockAmountRing) (newCapacity blockHeight : ℕ) : Prop :=
  ∃ newer cumulative, ring.get newer = some cumulative ∧ blockHeight < newer ∧
    newer % newCapacity = blockHeight % newCapacity

/-- The ring after the capacity was changed. -/
structure Resized (newCapacity : ℕ) (ring ring' : BlockAmountRing) : Prop where
  capacity : ring'.capacity = newCapacity
  inSlots : ∀ i c, ring'.cells[i]? = some (some c) → i = c.blockHeight % newCapacity
  displaced : ∀ blockHeight, ring.Displaced newCapacity blockHeight → ring'.get blockHeight = none
  kept : ∀ blockHeight, ¬ring.Displaced newCapacity blockHeight →
    ring'.get blockHeight = ring.get blockHeight

/-- Every resident block has one at least as new in its slot of the new ring. -/
theorem exists_newer (hplaced : ring.Placed) (h : ring.resize newCapacity = some ring')
    {blockHeight cumulative : ℕ} (hget : ring.get blockHeight = some cumulative) :
    ∃ c, ring'.cells[blockHeight % newCapacity]? = some (some c) ∧
      blockHeight ≤ c.blockHeight := by
  have hpos := (capacity_resize h).2
  simp only [resize, Option.bind_eq_bind, Option.bind_eq_some_iff, require_eq_some,
    exists_const] at h
  obtain ⟨_, h⟩ := h
  split at h
  · rename_i hsame
    rw [← Option.some.inj h, hsame]
    have hcell := get_eq_some.mp hget
    rw [cell, Option.join_eq_some_iff] at hcell
    exact ⟨⟨blockHeight, cumulative⟩, hcell, le_rfl⟩
  · rw [← Option.some.inj h]
    have hnothing : Supersedes newCapacity [] (List.replicate newCapacity none) :=
      fun _ he ↦ absurd he List.not_mem_nil
    have hall := Supersedes.foldl hpos (ring.cells.filterMap id) List.length_replicate hnothing
    exact hall ⟨blockHeight, cumulative⟩ (hplaced.mem_entries.mpr hget)

/-- What a slot of a placed ring holds is read at its own height only. -/
theorem get_of_cells {height : ℕ} {c : BlockAmountCell}
    (h : ring.cells[height % ring.capacity]? = some (some c)) :
    ring.get height = if c.blockHeight = height then some c.cumulativeSats else none := by
  unfold get cell slot
  rw [h]
  rfl

/-- The newest resident block of each residue class survives with its amount, and no other block
does. -/
theorem Reachable.resize_largest (hreach : Reachable ring) (hpos : 0 < newCapacity) :
    ∃ ring', ring.resize newCapacity = some ring' ∧ Resized newCapacity ring ring' := by
  have hplaced := hreach.placed
  obtain ⟨ring', h⟩ := ring.exists_resize hpos
  have hcapacity := (capacity_resize h).1
  obtain ⟨hplaced', hold⟩ := resize_spec hplaced h
  refine ⟨ring', h, hcapacity, ?_, ?_, ?_⟩
  · intro i c hc
    rw [← hcapacity]
    exact (hplaced'.inSlots i c hc).symm
  · intro blockHeight hdisplaced
    obtain ⟨newer, cumulative, hget, hlt, hslot⟩ := hdisplaced
    obtain ⟨c, hc, hle⟩ := exists_newer hplaced h hget
    rw [hslot, ← hcapacity] at hc
    rw [get_of_cells hc, if_neg (by omega)]
  · intro blockHeight hnewest
    cases hget : ring.get blockHeight with
    | none =>
      cases hget' : ring'.get blockHeight with
      | none => rfl
      | some cumulative =>
        rw [hold blockHeight cumulative hget'] at hget
        cases hget
    | some cumulative =>
      obtain ⟨c, hc, hle⟩ := exists_newer hplaced h hget
      -- What stands in the slot was resident before, so it is not newer.
      have hslot : c.blockHeight % newCapacity = blockHeight % newCapacity := by
        rw [← hcapacity] at hc ⊢
        exact hplaced'.inSlots _ c hc
      have hresident : ring'.get c.blockHeight = some c.cumulativeSats := by
        rw [← hslot, ← hcapacity] at hc
        rw [get_of_cells hc, if_pos rfl]
      have hbefore := hold _ _ hresident
      have heq : c.blockHeight = blockHeight := by
        by_contra hne
        exact hnewest ⟨c.blockHeight, c.cumulativeSats, hbefore, by omega, hslot⟩
      rw [heq] at hbefore hresident
      rw [hresident, ← hbefore, hget]

/-- Three blocks that were apart meet in two slots. -/
theorem resize_largest_two : ∃ ring', (⟨[some ⟨6, 10⟩, some ⟨4, 20⟩, some ⟨5, 30⟩]⟩ :
    BlockAmountRing).resize 2 = some ring' ∧
      Resized 2 ⟨[some ⟨6, 10⟩, some ⟨4, 20⟩, some ⟨5, 30⟩]⟩ ring' := by
  have hnew : BlockAmountRing.new 3 = some ⟨[none, none, none]⟩ := by decide
  have hreach : Reachable ⟨[some ⟨6, 10⟩, some ⟨4, 20⟩, some ⟨5, 30⟩]⟩ :=
    (((Reachable.new hnew).bump 4 20).bump 5 30).bump 6 10
  exact hreach.resize_largest (by decide)

end BlockAmountRing

end SatoshiBridge
