import Mathlib.Data.Nat.Basic

/-!
# Computations that may panic

A contract method that panics leaves no trace, so a method is a function into `Option` and a panic
is `none`. The two primitives are the assertion of a decidable proposition and the subtraction
compiled with overflow checks. Their success is characterised once, as rewriting rules that take
the success of a method apart into the facts its checks establish.
-/

set_option autoImplicit false
set_option relaxedAutoImplicit false

/-- Panics unless `p` holds. -/
def require (p : Prop) [Decidable p] : Option Unit :=
  if p then some () else none

@[simp] theorem require_eq_some {p : Prop} [Decidable p] {u : Unit} :
    require p = some u ↔ p := by
  unfold require
  split <;> simp_all

/-- Subtraction of unsigned integers with overflow checks. -/
def checkedSub (a b : ℕ) : Option ℕ :=
  if b ≤ a then some (a - b) else none

@[simp] theorem checkedSub_eq_some {a b c : ℕ} : checkedSub a b = some c ↔ c + b = a := by
  unfold checkedSub
  split
  · rw [Option.some.injEq]
    omega
  · simp only [reduceCtorEq, false_iff]
    omega

theorem require_of {p : Prop} [Decidable p] (h : p) : require p = some () :=
  require_eq_some.mpr h

theorem checkedSub_of_le {a b : ℕ} (h : b ≤ a) : checkedSub a b = some (a - b) :=
  checkedSub_eq_some.mpr (Nat.sub_add_cancel h)

/-- Addition of unsigned integers below `bound` with overflow checks. -/
def checkedAdd (bound a b : ℕ) : Option ℕ :=
  if a + b < bound then some (a + b) else none

@[simp] theorem checkedAdd_eq_some {bound a b c : ℕ} :
    checkedAdd bound a b = some c ↔ a + b = c ∧ c < bound := by
  unfold checkedAdd
  split
  · rw [Option.some.injEq]
    omega
  · simp only [reduceCtorEq, false_iff, not_and, not_lt]
    omega
