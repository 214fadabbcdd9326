import SatoshiBridge.Library.Checked
import SatoshiBridge.Library.FiniteMap

/-!
# Balances of accounts

The books of a fungible token: a balance for every registered account, and the supply as their sum.
What an operation does is stated twice, as the change it makes to the balance of any account and as
the change it makes to the supply; a user of the books needs no other fact about them.
-/

set_option autoImplicit false
set_option relaxedAutoImplicit false

/-- The balances of the registered accounts. -/
abbrev Balances (A : Type) := FiniteMap A ℕ

namespace Balances

variable {A : Type} [DecidableEq A]

/-- The balance of an account, zero when it is not registered. -/
def balance (m : Balances A) (a : A) : ℕ := (m.lookup a).getD 0

omit [DecidableEq A] in
/-- The sum of all balances. -/
def supply (m : Balances A) : ℕ := FiniteMap.total (fun _ n ↦ n) m

def register (m : Balances A) (a : A) : Option (Balances A) := do
  require (a ∉ m)
  some (m.insert a 0)

def deposit (m : Balances A) (a : A) (n : ℕ) : Option (Balances A) := do
  let b ← m.lookup a
  some (m.insert a (b + n))

def withdraw (m : Balances A) (a : A) (n : ℕ) : Option (Balances A) := do
  let b ← m.lookup a
  let rest ← checkedSub b n
  some (m.insert a rest)

def transfer (m : Balances A) (sender receiver : A) (n : ℕ) : Option (Balances A) := do
  require (sender ≠ receiver)
  let m ← withdraw m sender n
  deposit m receiver n

/-- Takes up to `n` back from a receiver: what it still has goes to the sender, or is burnt when the
sender is not registered any more. The amounts returned and burnt come with the new balances. -/
def giveBack (m : Balances A) (sender receiver : A) (n : ℕ) : Balances A × ℕ × ℕ :=
  let refund := min (balance m receiver) n
  let rest := if refund = 0 then m else m.insert receiver (balance m receiver - refund)
  match rest.lookup sender with
  | some b => (rest.insert sender (b + refund), refund, 0)
  | none => (rest, 0, refund)

/-! ### One account written -/

variable {m m' : Balances A} {a x : A} {n : ℕ}

theorem balance_of_lookup (h : m.lookup a = some n) : balance m a = n := by
  rw [balance, h, Option.getD_some]

theorem balance_insert (m : Balances A) (a x : A) (n : ℕ) :
    balance (m.insert a n) x = if x = a then n else balance m x := by
  unfold balance
  rw [FiniteMap.lookup_insert_eq]
  split
  · rfl
  · rfl

theorem supply_insert (m : Balances A) (a : A) (n : ℕ) :
    supply (m.insert a n) + balance m a = supply m + n := by
  unfold supply balance
  cases h : m.lookup a with
  | none =>
    rw [FiniteMap.total_insert_new n h, Option.getD_none]
    omega
  | some b => exact FiniteMap.total_replace (f := fun _ n ↦ n) n h

/-! ### Operations -/

theorem register_spec (h : register m a = some m') :
    (∀ x, balance m' x = balance m x) ∧ supply m' = supply m ∧ ∀ x, x = a ∨ x ∈ m → x ∈ m' := by
  simp only [register, Option.bind_eq_bind, Option.bind_eq_some_iff, require_eq_some, exists_const,
    Option.some.injEq] at h
  obtain ⟨hnew, rfl⟩ := h
  have hnone : balance m a = 0 := by
    rw [balance, AList.lookup_eq_none.mpr hnew, Option.getD_none]
  refine ⟨fun x ↦ ?_, ?_, fun x hx ↦ (AList.mem_insert _).mpr hx⟩
  · rw [balance_insert]
    split
    · rename_i heq
      rw [heq, hnone]
    · rfl
  · have hsupply := supply_insert m a 0
    omega

theorem deposit_spec (h : deposit m a n = some m') :
    (∀ x, balance m' x = balance m x + if x = a then n else 0) ∧ supply m' = supply m + n ∧
      ∀ x ∈ m, x ∈ m' := by
  simp only [deposit, Option.bind_eq_bind, Option.bind_eq_some_iff, Option.some.injEq] at h
  obtain ⟨b, hb, rfl⟩ := h
  refine ⟨fun x ↦ ?_, ?_, fun x hx ↦ (AList.mem_insert _).mpr (Or.inr hx)⟩
  · rw [balance_insert]
    split
    · rename_i heq
      rw [heq, balance_of_lookup hb]
    · rfl
  · have hsupply := supply_insert m a (b + n)
    rw [balance_of_lookup hb] at hsupply
    omega

theorem withdraw_spec (h : withdraw m a n = some m') :
    (∀ x, balance m' x + (if x = a then n else 0) = balance m x) ∧ supply m' + n = supply m ∧
      ∀ x ∈ m, x ∈ m' := by
  simp only [withdraw, Option.bind_eq_bind, Option.bind_eq_some_iff, checkedSub_eq_some,
    Option.some.injEq] at h
  obtain ⟨b, hb, rest, hrest, rfl⟩ := h
  refine ⟨fun x ↦ ?_, ?_, fun x hx ↦ (AList.mem_insert _).mpr (Or.inr hx)⟩
  · rw [balance_insert]
    split
    · rename_i heq
      rw [heq, balance_of_lookup hb]
      exact hrest
    · rfl
  · have hsupply := supply_insert m a rest
    rw [balance_of_lookup hb] at hsupply
    omega

/-- A registered account can withdraw what it has. -/
theorem withdraw_of_le (ha : a ∈ m) (h : n ≤ balance m a) : ∃ m', withdraw m a n = some m' := by
  obtain ⟨b, hb⟩ := FiniteMap.mem_iff_lookup.mp ha
  rw [balance_of_lookup hb] at h
  rw [withdraw, hb, Option.bind_eq_bind, Option.bind_some, checkedSub_of_le h]
  exact ⟨_, rfl⟩

theorem transfer_spec {sender receiver : A} (h : transfer m sender receiver n = some m') :
    sender ≠ receiver ∧ (∀ x, balance m' x + (if x = sender then n else 0)
      = balance m x + if x = receiver then n else 0) ∧ supply m' = supply m ∧ ∀ x ∈ m, x ∈ m' := by
  simp only [transfer, Option.bind_eq_bind, Option.bind_eq_some_iff, require_eq_some,
    exists_const] at h
  obtain ⟨hne, mid, hwithdraw, hdeposit⟩ := h
  obtain ⟨htaken, hlower, hkept⟩ := withdraw_spec hwithdraw
  obtain ⟨hgiven, hraised, hkept'⟩ := deposit_spec hdeposit
  refine ⟨hne, fun x ↦ ?_, ?_, fun x hx ↦ hkept' x (hkept x hx)⟩
  · have htaken := htaken x
    have hgiven := hgiven x
    omega
  · omega

/-- What a return of tokens takes from the receiver, what was asked for as far as he has it, goes to
the sender or is burnt when the sender has no account. -/
theorem giveBack_spec {sender receiver : A} {returned burnt : ℕ}
    (h : giveBack m sender receiver n = (m', returned, burnt)) :
    returned + burnt = min (balance m receiver) n ∧
      (∀ x, balance m' x + (if x = receiver then returned + burnt else 0)
        = balance m x + if x = sender then returned else 0) ∧
      supply m' + burnt = supply m ∧ (∀ x ∈ m, x ∈ m') ∧ (sender ∈ m → burnt = 0) ∧
      (sender ∉ m → returned = 0) := by
  unfold giveBack at h
  dsimp only at h
  generalize hrefund : min (balance m receiver) n = refund at h ⊢
  have hle : refund ≤ balance m receiver ∧ refund ≤ n := by omega
  generalize hrest : (if refund = 0 then m else m.insert receiver (balance m receiver - refund))
    = rest at h
  -- Taking the refund out of the receiver, on its own.
  have hbalance : ∀ x, balance rest x + (if x = receiver then refund else 0) = balance m x := by
    intro x
    rw [← hrest]
    split
    · split <;> omega
    · rw [balance_insert]
      split
      · rename_i heq
        rw [heq]
        omega
      · rfl
  have hsupply : supply rest + refund = supply m := by
    rw [← hrest]
    split
    · omega
    · have hinsert := supply_insert m receiver (balance m receiver - refund)
      omega
  have hkept : ∀ x ∈ m, x ∈ rest := by
    intro x hx
    rw [← hrest]
    split
    · exact hx
    · exact (AList.mem_insert _).mpr (Or.inr hx)
  -- An account that is not registered has nothing to give back.
  have hclosed : sender ∉ m → ∀ b, rest.lookup sender = some b → refund = 0 := by
    intro hnot b hb
    have hnone := AList.lookup_eq_none.mpr hnot
    by_contra hsome
    rw [← hrest, if_neg hsome, FiniteMap.lookup_insert_eq] at hb
    split at hb
    · rename_i heq
      rw [balance, ← heq, hnone, Option.getD_none] at hle
      exact hsome (Nat.le_zero.mp hle.1)
    · rw [hnone] at hb
      cases hb
  split at h
  · rename_i b hb
    cases h
    refine ⟨rfl, fun x ↦ ?_, ?_, fun x hx ↦ (AList.mem_insert _).mpr (Or.inr (hkept x hx)),
      fun _ ↦ rfl, fun hnot ↦ hclosed hnot b hb⟩
    · have hx := hbalance x
      rw [add_zero, balance_insert]
      split
      · rename_i heq
        rw [heq] at hx ⊢
        rw [balance_of_lookup hb] at hx
        omega
      · omega
    · have hinsert := supply_insert rest sender (b + returned)
      rw [balance_of_lookup hb] at hinsert
      omega
  · rename_i hnone
    cases h
    refine ⟨Nat.zero_add _, fun x ↦ ?_, hsupply, hkept, fun hin ↦ ?_, fun _ ↦ rfl⟩
    · have hx := hbalance x
      rw [ite_self, zero_add]
      exact hx
    · exact absurd (hkept sender hin) (AList.lookup_eq_none.mp hnone)

/-- Closing another account leaves a balance as it is, and burns what the account had. -/
theorem erase_spec (m : Balances A) (a : A) :
    (∀ x, x ≠ a → balance (m.erase a) x = balance m x) ∧
      supply (m.erase a) + balance m a = supply m ∧ ∀ x, x ≠ a → x ∈ m → x ∈ m.erase a := by
  refine ⟨fun x hx ↦ ?_, ?_, fun x hx hin ↦ AList.mem_erase.mpr ⟨hx, hin⟩⟩
  · rw [balance, balance, AList.lookup_erase_ne hx]
  · unfold supply
    cases h : m.lookup a with
    | none =>
      rw [FiniteMap.erase_of_lookup_none h, balance, h, Option.getD_none]
      rfl
    | some b =>
      have htotal := FiniteMap.total_erase (f := fun _ n ↦ n) h
      rw [balance_of_lookup h]
      omega

end Balances
