import Mathlib.Data.Finset.Basic
import SatoshiBridge.Library.FiniteMap

/-!
# Indexes of finite maps

Some values of a map have an owner. An index holds, for each owner, the keys of the values it owns.
The rules say which update of the index goes with which update of the map: a key is listed, moved
off its list or removed, and nothing is done for a value whose owner stays the same.
-/

set_option autoImplicit false
set_option relaxedAutoImplicit false

namespace FiniteMap

variable {A K V : Type} [DecidableEq K]

/-- `index a` holds the keys of the values that `a` owns. -/
def Indexes (owner : V → Option A) (index : A → Finset K) (m : FiniteMap K V) : Prop :=
  ∀ a k, k ∈ index a ↔ ∃ v, m.lookup k = some v ∧ owner v = some a

/-- Nobody owns what is stored under the key. -/
def Unowned (owner : V → Option A) (m : FiniteMap K V) (k : K) : Prop :=
  ∀ v, m.lookup k = some v → owner v = none

theorem Unowned.of_fresh {owner : V → Option A} {m : FiniteMap K V} {k : K}
    (h : m.lookup k = none) : Unowned owner m k := by
  intro v hv
  rw [h] at hv
  cases hv

theorem Unowned.of_lookup {owner : V → Option A} {m : FiniteMap K V} {k : K} {v : V}
    (hv : m.lookup k = some v) (hnone : owner v = none) : Unowned owner m k := by
  intro v' hv'
  rw [hv, Option.some.injEq] at hv'
  rw [← hv']
  exact hnone

namespace Indexes

variable {owner : V → Option A} {index index' : A → Finset K} {m : FiniteMap K V} {k : K}
  {old v : V} {a : A}

theorem empty (owner : V → Option A) : Indexes owner (fun _ ↦ (∅ : Finset K)) ∅ := by
  intro a k
  constructor
  · intro h
    exact absurd h (Finset.notMem_empty k)
  · rintro ⟨v, hv, _⟩
    cases hv

/-- An unowned key is on no list. -/
theorem notMem (h : Indexes owner index m) (hk : Unowned owner m k) (b : A) : k ∉ index b := by
  intro hmem
  obtain ⟨v, hv, howner⟩ := (h b k).mp hmem
  rw [hk v hv] at howner
  cases howner

/-- A key is on the list of its owner only. -/
theorem mem_iff (h : Indexes owner index m) (hold : m.lookup k = some old) (b : A) :
    k ∈ index b ↔ owner old = some b := by
  rw [h b k, hold]
  constructor
  · rintro ⟨v, hv, howner⟩
    rw [Option.some.injEq] at hv
    rw [hv]
    exact howner
  · exact fun howner ↦ ⟨old, rfl, howner⟩

/-- Storing a value asks for the index that differs in its key. -/
theorem insert (h : Indexes owner index m)
    (hindex : ∀ b k', k' ∈ index' b ↔ if k' = k then owner v = some b else k' ∈ index b) :
    Indexes owner index' (m.insert k v) := by
  intro b k'
  rw [hindex, lookup_insert_eq]
  by_cases heq : k' = k
  · rw [if_pos heq, if_pos heq]
    constructor
    · exact fun howner ↦ ⟨v, rfl, howner⟩
    · rintro ⟨v', hv', howner⟩
      rw [Option.some.injEq] at hv'
      rw [hv']
      exact howner
  · rw [if_neg heq, if_neg heq]
    exact h b k'

/-- Removing a value asks for the index without its key. -/
theorem erase (h : Indexes owner index m)
    (hindex : ∀ b k', k' ∈ index' b ↔ k' ≠ k ∧ k' ∈ index b) :
    Indexes owner index' (m.erase k) := by
  intro b k'
  rw [hindex, lookup_erase_eq]
  by_cases heq : k' = k
  · rw [if_pos heq]
    constructor
    · exact fun hne ↦ absurd heq hne.1
    · rintro ⟨v, hv, _⟩
      cases hv
  · rw [if_neg heq, ← h b k']
    exact ⟨fun hmem ↦ hmem.2, fun hmem ↦ ⟨heq, hmem⟩⟩

/-- A value gives way to one with the same owner. -/
theorem replace (h : Indexes owner index m) (hold : m.lookup k = some old)
    (howner : owner v = owner old) : Indexes owner index (m.insert k v) := by
  refine h.insert fun b k' ↦ ?_
  split
  · rename_i heq
    rw [heq, howner]
    exact h.mem_iff hold b
  · rfl

/-- A value without owner is stored where there was none. -/
theorem store (h : Indexes owner index m) (hk : Unowned owner m k) (howner : owner v = none) :
    Indexes owner index (m.insert k v) := by
  refine h.insert fun b k' ↦ ?_
  split
  · rename_i heq
    rw [heq, howner]
    exact ⟨fun hmem ↦ absurd hmem (h.notMem hk b), nofun⟩
  · rfl

/-- A value without owner is removed. -/
theorem discard (h : Indexes owner index m) (hk : Unowned owner m k) :
    Indexes owner index (m.erase k) := by
  refine h.erase fun b k' ↦ ?_
  constructor
  · intro hmem
    refine ⟨fun heq ↦ ?_, hmem⟩
    rw [heq] at hmem
    exact h.notMem hk b hmem
  · exact fun hmem ↦ hmem.2

variable [DecidableEq A]

omit [DecidableEq K] in
theorem mem_update {s : Finset K} (b : A) (k' : K) :
    k' ∈ Function.update index a s b ↔ if b = a then k' ∈ s else k' ∈ index b := by
  by_cases heq : b = a
  · rw [heq, Function.update_self, if_pos rfl]
  · rw [Function.update_of_ne heq, if_neg heq]

/-- A value is stored with an owner, whose list it enters. -/
theorem list (h : Indexes owner index m) (hk : Unowned owner m k) (howner : owner v = some a) :
    Indexes owner (Function.update index a (Insert.insert k (index a))) (m.insert k v) := by
  refine h.insert fun b k' ↦ ?_
  rw [mem_update, howner, Option.some.injEq, Finset.mem_insert]
  by_cases hb : b = a
  · rw [if_pos hb, hb]
    by_cases hk' : k' = k
    · rw [if_pos hk']
      exact ⟨fun _ ↦ rfl, fun _ ↦ Or.inl hk'⟩
    · rw [if_neg hk']
      exact or_iff_right hk'
  · rw [if_neg hb]
    by_cases hk' : k' = k
    · rw [if_pos hk', hk']
      exact ⟨fun hmem ↦ absurd hmem (h.notMem hk b), fun heq ↦ absurd heq.symm hb⟩
    · rw [if_neg hk']

/-- Taking a key off the only list it may be on. -/
theorem mem_unlisted (hk : ∀ b, k ∈ index b → b = a) (b : A) (k' : K) :
    k' ∈ Function.update index a ((index a).erase k) b ↔ k' ≠ k ∧ k' ∈ index b := by
  rw [mem_update, Finset.mem_erase]
  by_cases hb : b = a
  · rw [if_pos hb, hb]
  · rw [if_neg hb]
    constructor
    · intro hmem
      refine ⟨fun heq ↦ hb (hk b ?_), hmem⟩
      rw [← heq]
      exact hmem
    · exact fun hmem ↦ hmem.2

/-- A value loses its owner, from whose list it is taken. -/
theorem unlist (h : Indexes owner index m) (hold : m.lookup k = some old)
    (ha : ∀ b, owner old = some b → b = a) (howner : owner v = none) :
    Indexes owner (Function.update index a ((index a).erase k)) (m.insert k v) := by
  refine h.insert fun b k' ↦ ?_
  rw [mem_unlisted fun b hb ↦ ha b ((h.mem_iff hold b).mp hb)]
  by_cases hk' : k' = k
  · rw [if_pos hk', howner]
    exact ⟨fun hne ↦ absurd hk' hne.1, nofun⟩
  · rw [if_neg hk']
    exact and_iff_right hk'

/-- A value is removed and taken from the list of its owner. -/
theorem remove (h : Indexes owner index m)
    (ha : ∀ old, m.lookup k = some old → ∀ b, owner old = some b → b = a) :
    Indexes owner (Function.update index a ((index a).erase k)) (m.erase k) := by
  refine h.erase (mem_unlisted fun b hb ↦ ?_)
  obtain ⟨old, hold, howner⟩ := (h b k).mp hb
  exact ha old hold b howner

end Indexes

end FiniteMap
