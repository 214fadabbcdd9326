import Mathlib.Algebra.BigOperators.Group.Finset.Basic
import Mathlib.Algebra.BigOperators.Group.List.Basic
import Mathlib.Algebra.GroupWithZero.Nat
import Mathlib.Data.List.AList

/-!
# Finite maps and the sums over their entries

A finite map is an association list without repeated keys. The sum of a reading over the entries
changes by exactly the entry that is inserted, removed or replaced; every ledger equation of the
development is an instance of these three facts. Removing a list of keys one after the other
returns the values in the order of the keys and fails on the first absent or repeated key.
-/

set_option autoImplicit false
set_option relaxedAutoImplicit false

/-- A finite map from `K` to `V`. -/
abbrev FiniteMap (K V : Type) := AList fun _ : K ↦ V

namespace FiniteMap

variable {K V : Type} [DecidableEq K]

/-- The sum of `f` over all entries. -/
def total (f : K → V → ℕ) (m : FiniteMap K V) : ℕ :=
  (m.entries.map fun e ↦ f e.1 e.2).sum

omit [DecidableEq K] in
@[simp] theorem total_empty (f : K → V → ℕ) : total f (∅ : FiniteMap K V) = 0 := rfl

private theorem sum_kerase (f : K → V → ℕ) (k : K) (v : V) :
    ∀ l : List (Σ _ : K, V), l.dlookup k = some v →
      (l.map fun e ↦ f e.1 e.2).sum = f k v + ((l.kerase k).map fun e ↦ f e.1 e.2).sum := by
  intro l
  induction l with
  | nil => intro h; simp at h
  | cons e rest ih =>
    intro h
    by_cases hk : k = e.1
    · subst hk
      rw [List.dlookup_cons_eq] at h
      cases h
      rw [List.kerase_cons_eq rfl, List.map_cons, List.sum_cons]
    · rw [List.dlookup_cons_ne rest e hk] at h
      rw [List.kerase_cons_ne hk, List.map_cons, List.map_cons, List.sum_cons, List.sum_cons, ih h]
      omega

/-- Removing a present entry lowers the sum by its reading. -/
theorem total_erase {f : K → V → ℕ} {m : FiniteMap K V} {k : K} {v : V}
    (h : m.lookup k = some v) : total f m = f k v + total f (m.erase k) :=
  sum_kerase f k v m.entries h

omit [DecidableEq K] in
theorem erase_of_lookup_none [DecidableEq K] {m : FiniteMap K V} {k : K}
    (h : m.lookup k = none) : m.erase k = m := by
  apply AList.ext
  exact List.kerase_of_notMem_keys (AList.lookup_eq_none.mp h)

/-- Inserting replaces whatever the key held. -/
theorem total_insert (f : K → V → ℕ) (m : FiniteMap K V) (k : K) (v : V) :
    total f (m.insert k v) = f k v + total f (m.erase k) := by
  unfold total
  rw [AList.entries_insert, List.map_cons, List.sum_cons]
  rfl

theorem total_insert_new {f : K → V → ℕ} {m : FiniteMap K V} {k : K} (v : V)
    (h : m.lookup k = none) : total f (m.insert k v) = f k v + total f m := by
  rw [total_insert, erase_of_lookup_none h]

/-- Replacing the value of a present key trades its reading. -/
theorem total_replace {f : K → V → ℕ} {m : FiniteMap K V} {k : K} {old : V} (new : V)
    (h : m.lookup k = some old) :
    total f (m.insert k new) + f k old = total f m + f k new := by
  rw [total_insert, total_erase (f := f) h]
  omega

theorem le_total {f : K → V → ℕ} {m : FiniteMap K V} {k : K} {v : V}
    (h : m.lookup k = some v) : f k v ≤ total f m := by
  rw [total_erase (f := f) h]
  exact Nat.le_add_right _ _

theorem lookup_insert_eq (m : FiniteMap K V) (k k' : K) (v : V) :
    (m.insert k v).lookup k' = if k' = k then some v else m.lookup k' := by
  by_cases h : k' = k
  · subst h
    rw [AList.lookup_insert, if_pos rfl]
  · rw [AList.lookup_insert_ne h, if_neg h]

theorem lookup_erase_eq (m : FiniteMap K V) (k k' : K) :
    (m.erase k).lookup k' = if k' = k then none else m.lookup k' := by
  by_cases h : k' = k
  · subst h
    rw [AList.lookup_erase, if_pos rfl]
  · rw [AList.lookup_erase_ne h, if_neg h]

/-- What is found after erasing was there and is not the erased key. -/
theorem lookup_of_erase {m : FiniteMap K V} {k k' : K} {v : V}
    (h : (m.erase k).lookup k' = some v) : m.lookup k' = some v ∧ k' ≠ k := by
  rw [lookup_erase_eq] at h
  split at h
  · cases h
  · exact ⟨h, ‹_›⟩

/-- The readings at distinct keys are part of the sum. -/
theorem sum_lookup_le_total (g : V → ℕ) (ks : Finset K) : ∀ m : FiniteMap K V,
    ∑ k ∈ ks, ((m.lookup k).map g).getD 0 ≤ total (fun _ ↦ g) m := by
  induction ks using Finset.induction_on with
  | empty =>
    intro m
    rw [Finset.sum_empty]
    exact Nat.zero_le _
  | insert k ks hk ih =>
    intro m
    have hrest : ∑ k' ∈ ks, ((m.lookup k').map g).getD 0 =
        ∑ k' ∈ ks, (((m.erase k).lookup k').map g).getD 0 := by
      refine Finset.sum_congr rfl fun k' hk' ↦ ?_
      have hne : k' ≠ k := fun heq ↦ hk (heq ▸ hk')
      rw [AList.lookup_erase_ne hne]
    have hle := ih (m.erase k)
    rw [Finset.sum_insert hk, hrest]
    cases hlookup : m.lookup k with
    | none =>
      have hsame := erase_of_lookup_none hlookup
      rw [hsame] at hle
      rw [hsame, Option.map_none, Option.getD_none, zero_add]
      exact hle
    | some v =>
      rw [total_erase (f := fun _ ↦ g) hlookup, Option.map_some, Option.getD_some]
      omega

/-- Erasing a present key leaves fewer entries. -/
theorem length_erase_lt {m : FiniteMap K V} {k : K} (h : k ∈ m) :
    (m.erase k).entries.length < m.entries.length := by
  have hsub : (m.erase k).entries.Sublist m.entries := List.kerase_sublist k m.entries
  refine lt_of_le_of_ne hsub.length_le fun heq ↦ ?_
  have hsame : m.erase k = m := AList.ext (hsub.eq_of_length heq)
  rw [← hsame] at h
  exact (AList.mem_erase.mp h).1 rfl

theorem erase_erase_self (m : FiniteMap K V) (k : K) : (m.erase k).erase k = m.erase k :=
  erase_of_lookup_none (AList.lookup_erase k m)

theorem erase_insert_self (m : FiniteMap K V) (k : K) (v : V) :
    (m.insert k v).erase k = m.erase k := by
  apply AList.ext
  change List.kerase k (m.insert k v).entries = List.kerase k m.entries
  rw [AList.entries_insert]
  exact List.kerase_cons_eq rfl

theorem erase_insert_ne (m : FiniteMap K V) {k k' : K} (v : V) (h : k' ≠ k) :
    (m.insert k v).erase k' = (m.erase k').insert k v := by
  apply AList.ext
  change List.kerase k' (m.insert k v).entries = ((m.erase k').insert k v).entries
  rw [AList.entries_insert, AList.entries_insert, List.kerase_cons_ne h, List.kerase_comm]
  rfl

theorem mem_iff_lookup {m : FiniteMap K V} {k : K} : k ∈ m ↔ ∃ v, m.lookup k = some v := by
  rw [← AList.lookup_isSome, Option.isSome_iff_exists]

/-! ### Removing a list of keys -/

/-- Removes the keys one after the other and returns their values; fails on the first key that is
absent or was already removed. -/
def takeAll (m : FiniteMap K V) : List K → Option (FiniteMap K V × List V)
  | [] => some (m, [])
  | k :: ks => do
    let v ← m.lookup k
    let (rest, vs) ← takeAll (m.erase k) ks
    some (rest, v :: vs)

theorem takeAll_cons_eq_some {m rest : FiniteMap K V} {k : K} {ks : List K} {vs : List V}
    (h : takeAll m (k :: ks) = some (rest, vs)) :
    ∃ v vs', m.lookup k = some v ∧ takeAll (m.erase k) ks = some (rest, vs') ∧ vs = v :: vs' := by
  simp only [takeAll, Option.bind_eq_bind, Option.bind_eq_some_iff, Option.some.injEq,
    Prod.exists, Prod.mk.injEq] at h
  obtain ⟨v, hv, rest', vs', hr, rfl, rfl⟩ := h
  exact ⟨v, vs', hv, hr, rfl⟩

/-- What a successful removal says: the keys are distinct, the values are theirs in order, and the
remaining map is the old one away from the keys. -/
theorem takeAll_spec {ks : List K} : ∀ {m rest : FiniteMap K V} {vs : List V},
    takeAll m ks = some (rest, vs) →
      ks.Nodup ∧ ks.map m.lookup = vs.map some ∧
        ∀ k, rest.lookup k = if k ∈ ks then none else m.lookup k := by
  induction ks with
  | nil =>
    intro m rest vs h
    cases h
    simp
  | cons k ks ih =>
    intro m rest vs h
    obtain ⟨v, vs', hv, hr, rfl⟩ := takeAll_cons_eq_some h
    obtain ⟨hnodup, hvals, hrest⟩ := ih hr
    have hne : ∀ k' ∈ ks, k' ≠ k := by
      intro k' hk' heq
      have hnone : (m.erase k).lookup k' ∈ ks.map (m.erase k).lookup := List.mem_map_of_mem hk'
      rw [hvals, heq, AList.lookup_erase, List.mem_map] at hnone
      obtain ⟨_, _, habs⟩ := hnone
      cases habs
    refine ⟨List.nodup_cons.mpr ⟨fun hk ↦ hne k hk rfl, hnodup⟩, ?_, ?_⟩
    · rw [List.map_cons, List.map_cons, hv, ← hvals]
      congr 1
      exact List.map_congr_left fun k' hk' ↦ (AList.lookup_erase_ne (hne k' hk')).symm
    · intro k'
      rw [hrest k', lookup_erase_eq]
      by_cases hk : k' = k <;> by_cases hks : k' ∈ ks <;> simp [hk, hks]

theorem takeAll_length {ks : List K} {m rest : FiniteMap K V} {vs : List V}
    (h : takeAll m ks = some (rest, vs)) : vs.length = ks.length := by
  have hlen := congrArg List.length (takeAll_spec h).2.1
  rw [List.length_map, List.length_map] at hlen
  exact hlen.symm

/-- The sum splits into what was removed and what remains. -/
theorem total_takeAll {f : V → ℕ} {ks : List K} : ∀ {m rest : FiniteMap K V} {vs : List V},
    takeAll m ks = some (rest, vs) →
      total (fun _ ↦ f) m = (vs.map f).sum + total (fun _ ↦ f) rest := by
  induction ks with
  | nil =>
    intro m rest vs h
    cases h
    simp
  | cons k ks ih =>
    intro m rest vs h
    obtain ⟨v, vs', hv, hr, rfl⟩ := takeAll_cons_eq_some h
    rw [total_erase (f := fun _ ↦ f) hv, ih hr, List.map_cons, List.sum_cons]
    omega

/-- So do the entries. -/
theorem length_takeAll {ks : List K} {m rest : FiniteMap K V} {vs : List V}
    (h : takeAll m ks = some (rest, vs)) : m.entries.length = vs.length + rest.entries.length := by
  have hcount (m : FiniteMap K V) : total (fun _ _ ↦ 1) m = m.entries.length := by
    simp [total]
  have htotal := total_takeAll (f := fun _ : V ↦ 1) h
  rw [hcount, hcount] at htotal
  simpa using htotal

/-! ### Inserting a list of entries -/

/-- Inserts the entries one after the other. -/
def insertAll (m : FiniteMap K V) (es : List (K × V)) : FiniteMap K V :=
  es.foldl (fun m e ↦ m.insert e.1 e.2) m

@[simp] theorem insertAll_nil (m : FiniteMap K V) : insertAll m [] = m := rfl

@[simp] theorem insertAll_cons (m : FiniteMap K V) (e : K × V) (es : List (K × V)) :
    insertAll m (e :: es) = insertAll (m.insert e.1 e.2) es := rfl

/-- Every entry found after inserting comes from the list or was there before under a key the list
does not name. -/
theorem lookup_insertAll_some {es : List (K × V)} {k : K} {v : V} :
    ∀ {m : FiniteMap K V}, (insertAll m es).lookup k = some v →
      (k, v) ∈ es ∨ (k ∉ es.map Prod.fst ∧ m.lookup k = some v) := by
  induction es with
  | nil => intro m h; exact Or.inr ⟨by simp, h⟩
  | cons e es ih =>
    intro m h
    rcases ih h with hmem | ⟨hnot, hlook⟩
    · exact Or.inl (List.mem_cons_of_mem e hmem)
    · by_cases hk : k = e.1
      · rw [hk, AList.lookup_insert, Option.some.injEq] at hlook
        left
        rw [hk, ← hlook]
        exact List.mem_cons_self
      · rw [AList.lookup_insert_ne hk] at hlook
        refine Or.inr ⟨?_, hlook⟩
        rw [List.map_cons, List.mem_cons, not_or]
        exact ⟨hk, hnot⟩

theorem mem_insertAll {es : List (K × V)} {k : K} :
    ∀ {m : FiniteMap K V}, k ∈ insertAll m es ↔ k ∈ es.map Prod.fst ∨ k ∈ m := by
  induction es with
  | nil => intro m; simp
  | cons e es ih =>
    intro m
    rw [insertAll_cons, ih, AList.mem_insert, List.map_cons, List.mem_cons]
    tauto

/-- Entries inserted at fresh, distinct keys add their readings. -/
theorem total_insertAll {f : V → ℕ} {es : List (K × V)} : ∀ {m : FiniteMap K V},
    (es.map Prod.fst).Nodup → (∀ k ∈ es.map Prod.fst, m.lookup k = none) →
      total (fun _ ↦ f) (insertAll m es) =
        (es.map fun e ↦ f e.2).sum + total (fun _ ↦ f) m := by
  induction es with
  | nil => intro m _ _; simp
  | cons e es ih =>
    intro m hnodup hfresh
    rw [List.map_cons, List.nodup_cons] at hnodup
    have hhead : m.lookup e.1 = none := hfresh e.1 (by simp)
    rw [insertAll_cons, ih hnodup.2, total_insert_new e.2 hhead, List.map_cons, List.sum_cons]
    · omega
    · intro k hk
      have hne : k ≠ e.1 := fun heq ↦ hnodup.1 (heq ▸ hk)
      rw [AList.lookup_insert_ne hne]
      exact hfresh k (by rw [List.map_cons]; exact List.mem_cons_of_mem _ hk)

/-! ### Converting every value -/

variable {W : Type}

omit [DecidableEq K] in
/-- The map with `f` applied to every value. -/
def mapValues (f : V → W) (m : FiniteMap K V) : FiniteMap K W :=
  ⟨m.entries.map (.map id fun _ ↦ f), m.nodupKeys.map₂ fun _ ↦ f⟩

theorem lookup_mapValues (f : V → W) (m : FiniteMap K V) (k : K) :
    (mapValues f m).lookup k = (m.lookup k).map f :=
  List.dlookup_map₂ k

end FiniteMap
