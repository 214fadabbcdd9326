import Mathlib.Data.Countable.Basic
import Mathlib.Data.List.Basic

/-!
# Numberings and prefix codes

The elements of a countable type are numbered injectively so that those of a chosen finite table
get their place in it: computations that meet only elements of the table can be evaluated. A number
is written as a word no other number's word is a prefix of.
-/

set_option autoImplicit false
set_option relaxedAutoImplicit false

namespace Numbering

variable {α : Type} [DecidableEq α] [Countable α]

/-- The place of an element in the table; the other elements are numbered after the table. -/
noncomputable def number (table : List α) (a : α) : ℕ :=
  if a ∈ table then table.idxOf a else table.length + (exists_injective_nat α).choose a

theorem number_lt_iff {table : List α} {a : α} :
    number table a < table.length ↔ a ∈ table := by
  unfold number
  split
  · rename_i h
    exact ⟨fun _ ↦ h, List.idxOf_lt_length_of_mem⟩
  · rename_i h
    exact ⟨fun hlt ↦ by omega, fun hmem ↦ absurd hmem h⟩

theorem number_injective (table : List α) : Function.Injective (number table) := by
  intro a b h
  have hmem : a ∈ table ↔ b ∈ table := by rw [← number_lt_iff, h, number_lt_iff]
  unfold number at h
  by_cases ha : a ∈ table
  · rw [if_pos ha, if_pos (hmem.mp ha)] at h
    exact (List.idxOf_inj ha).mp h
  · rw [if_neg ha, if_neg (fun hb ↦ ha (hmem.mpr hb))] at h
    exact (exists_injective_nat α).choose_spec (Nat.add_left_cancel h)

/-- The word of a number: as many threes, closed by a one. -/
def word : ℕ → List UInt8
  | 0 => [1]
  | n + 1 => 3 :: word n

theorem word_append_inj : ∀ {m n : ℕ} {t u : List UInt8},
    word m ++ t = word n ++ u → m = n ∧ t = u := by
  intro m
  induction m with
  | zero =>
    intro n t u h
    cases n with
    | zero => exact ⟨rfl, List.append_cancel_left h⟩
    | succ n =>
      simp only [word, List.cons_append, List.cons.injEq] at h
      exact absurd h.1 (by decide)
  | succ m ih =>
    intro n t u h
    cases n with
    | zero =>
      simp only [word, List.cons_append, List.cons.injEq] at h
      exact absurd h.1 (by decide)
    | succ n =>
      simp only [word, List.cons_append, List.cons.injEq, true_and] at h
      obtain ⟨rfl, htail⟩ := ih h
      exact ⟨rfl, htail⟩

theorem word_injective : Function.Injective word := by
  intro m n h
  have happ : word m ++ [] = word n ++ [] := by rw [h]
  exact (word_append_inj happ).1

/-- Words written one after the other can be told apart. -/
theorem flatMap_word_injective {β : Type} {f : β → ℕ} (hf : Function.Injective f) :
    Function.Injective fun bs : List β ↦ bs.flatMap fun b ↦ word (f b) := by
  intro bs
  induction bs with
  | nil =>
    intro cs h
    cases cs with
    | nil => rfl
    | cons c cs =>
      have hlen := congrArg List.length h
      cases hfc : f c <;> simp [word, hfc] at hlen
  | cons b bs ih =>
    intro cs h
    cases cs with
    | nil =>
      have hlen := congrArg List.length h
      cases hfb : f b <;> simp [word, hfb] at hlen
    | cons c cs =>
      simp only [List.flatMap_cons] at h
      obtain ⟨hhead, htail⟩ := word_append_inj h
      rw [hf hhead, ih htail]

end Numbering
