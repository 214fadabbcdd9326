import Mathlib.Data.List.Basic
import Mathlib.Tactic.Ring

/-!
# Prefix codecs

A writer whose reader gives a valid value back whatever bytes follow it. Such writings can be put
one after the other and still be told apart. The codecs of fixed-width little-endian numbers, of
compact sizes and of length-prefixed bytes are the building blocks of consensus serializations.
-/

set_option autoImplicit false
set_option relaxedAutoImplicit false

/-- A writer with a reader that inverts it on valid values. -/
structure PrefixCodec (α : Type) where
  valid : α → Prop
  write : α → List UInt8
  read : List UInt8 → Option (α × List UInt8)
  read_write : ∀ a, valid a → ∀ rest, read (write a ++ rest) = some (a, rest)
  read_nil : read [] = none

namespace PrefixCodec

variable {α : Type} (codec : PrefixCodec α)

/-- What is written first can be told from what follows. -/
theorem append_injective {a b : α} {rest rest' : List UInt8} (ha : codec.valid a)
    (hb : codec.valid b) (h : codec.write a ++ rest = codec.write b ++ rest') :
    a = b ∧ rest = rest' := by
  have hread := codec.read_write a ha rest
  rw [h, codec.read_write b hb rest', Option.some.injEq, Prod.mk.injEq] at hread
  exact ⟨hread.1.symm, hread.2.symm⟩

theorem write_ne_nil {a : α} (ha : codec.valid a) : codec.write a ≠ [] := by
  intro hnil
  have hread := codec.read_write a ha []
  rw [hnil, List.append_nil, codec.read_nil] at hread
  cases hread

/-- Values written one after the other can be told apart. -/
theorem flatMap_injective : ∀ {as bs : List α}, (∀ a ∈ as, codec.valid a) →
    (∀ b ∈ bs, codec.valid b) → as.flatMap codec.write = bs.flatMap codec.write → as = bs := by
  intro as
  induction as with
  | nil =>
    intro bs _ hbs h
    cases bs with
    | nil => rfl
    | cons b bs =>
      rw [List.flatMap_nil, List.flatMap_cons] at h
      have hnil := (List.append_eq_nil_iff.mp h.symm).1
      exact absurd hnil (codec.write_ne_nil (hbs b List.mem_cons_self))
  | cons a as ih =>
    intro bs has hbs h
    have ha := has a List.mem_cons_self
    cases bs with
    | nil =>
      rw [List.flatMap_nil, List.flatMap_cons] at h
      exact absurd (List.append_eq_nil_iff.mp h).1 (codec.write_ne_nil ha)
    | cons b bs =>
      rw [List.flatMap_cons, List.flatMap_cons] at h
      obtain ⟨hhead, htail⟩ := codec.append_injective ha (hbs b List.mem_cons_self) h
      have hrest := ih (fun x hx ↦ has x (List.mem_cons_of_mem a hx))
        (fun x hx ↦ hbs x (List.mem_cons_of_mem b hx)) htail
      rw [hhead, hrest]

/-! ### Little-endian numbers -/

/-- The `width` least significant bytes of a number, least significant first. -/
def leBytes : ℕ → ℕ → List UInt8
  | 0, _ => []
  | width + 1, n => UInt8.ofNat n :: leBytes width (n / 256)

def readLe : ℕ → List UInt8 → Option (ℕ × List UInt8)
  | 0, bytes => some (0, bytes)
  | _ + 1, [] => none
  | width + 1, b :: bytes => (readLe width bytes).map fun r ↦ (b.toNat + 256 * r.1, r.2)

theorem readLe_leBytes : ∀ {width n : ℕ}, n < 256 ^ width → ∀ rest,
    readLe width (leBytes width n ++ rest) = some (n, rest) := by
  intro width
  induction width with
  | zero =>
    intro n hn rest
    have hzero : n = 0 := by omega
    rw [hzero]
    rfl
  | succ width ih =>
    intro n hn rest
    have hlt : n / 256 < 256 ^ width := by
      rw [Nat.div_lt_iff_lt_mul (by decide), ← pow_succ]
      exact hn
    have hbyte : (UInt8.ofNat n).toNat = n % 256 := UInt8.toNat_ofNat'
    simp only [leBytes, List.cons_append, readLe, ih hlt rest, Option.map_some, hbyte,
      Option.some.injEq, Prod.mk.injEq, and_true]
    omega

theorem length_leBytes (width n : ℕ) : (leBytes width n).length = width := by
  induction width generalizing n with
  | zero => rfl
  | succ width ih => rw [leBytes, List.length_cons, ih]

/-! ### Compact sizes -/

/-- The Bitcoin variable-length writing of a number. -/
def compactSize (n : ℕ) : List UInt8 :=
  if n < 253 then [UInt8.ofNat n]
  else if n < 256 ^ 2 then 253 :: leBytes 2 n
  else if n < 256 ^ 4 then 254 :: leBytes 4 n
  else 255 :: leBytes 8 n

def readCompactSize : List UInt8 → Option (ℕ × List UInt8)
  | [] => none
  | b :: bytes =>
    if b.toNat < 253 then some (b.toNat, bytes)
    else if b.toNat = 253 then readLe 2 bytes
    else if b.toNat = 254 then readLe 4 bytes
    else readLe 8 bytes

theorem readCompactSize_compactSize {n : ℕ} (h : n < 256 ^ 8) (rest : List UInt8) :
    readCompactSize (compactSize n ++ rest) = some (n, rest) := by
  unfold compactSize
  by_cases h253 : n < 253
  · have hbyte : (UInt8.ofNat n).toNat = n := by
      rw [UInt8.toNat_ofNat']
      omega
    rw [if_pos h253]
    simp only [List.cons_append, List.nil_append, readCompactSize, hbyte, if_pos h253]
  · rw [if_neg h253]
    by_cases htwo : n < 256 ^ 2
    · rw [if_pos htwo]
      exact readLe_leBytes htwo rest
    · rw [if_neg htwo]
      by_cases hfour : n < 256 ^ 4
      · rw [if_pos hfour]
        exact readLe_leBytes hfour rest
      · rw [if_neg hfour]
        exact readLe_leBytes h rest

/-! ### Length-prefixed lists -/

/-- Reads a number of values. -/
def readMany : ℕ → List UInt8 → Option (List α × List UInt8)
  | 0, bytes => some ([], bytes)
  | n + 1, bytes => do
    let (a, bytes) ← codec.read bytes
    let (as, bytes) ← readMany n bytes
    some (a :: as, bytes)

theorem readMany_flatMap {as : List α} (h : ∀ a ∈ as, codec.valid a) (rest : List UInt8) :
    codec.readMany as.length (as.flatMap codec.write ++ rest) = some (as, rest) := by
  induction as with
  | nil => rfl
  | cons a as ih =>
    have hrest := ih fun b hb ↦ h b (List.mem_cons_of_mem a hb)
    rw [List.flatMap_cons, List.append_assoc, List.length_cons, readMany,
      codec.read_write a (h a List.mem_cons_self)]
    simp only [Option.bind_eq_bind, Option.bind_some, hrest]

/-- Values after their number, which takes eight bytes. -/
def writeList (as : List α) : List UInt8 := leBytes 8 as.length ++ as.flatMap codec.write

def readList (bytes : List UInt8) : Option (List α × List UInt8) := do
  let (length, bytes) ← readLe 8 bytes
  codec.readMany length bytes

theorem readList_writeList {as : List α} (h : ∀ a ∈ as, codec.valid a)
    (hlength : as.length < 256 ^ 8) (rest : List UInt8) :
    codec.readList (codec.writeList as ++ rest) = some (as, rest) := by
  unfold readList writeList
  rw [List.append_assoc, readLe_leBytes hlength]
  exact codec.readMany_flatMap h rest

/-! ### Raw bytes -/

/-- Reads exactly a number of bytes. -/
def readExact (n : ℕ) (bytes : List UInt8) : Option (List UInt8 × List UInt8) :=
  if n ≤ bytes.length then some (bytes.take n, bytes.drop n) else none

theorem readExact_append (bytes rest : List UInt8) :
    readExact bytes.length (bytes ++ rest) = some (bytes, rest) := by
  have hle : bytes.length ≤ (bytes ++ rest).length := by
    rw [List.length_append]
    exact Nat.le_add_right _ _
  rw [readExact, if_pos hle, List.take_left, List.drop_left]

/-! ### Length-prefixed bytes -/

/-- Bytes after their number. -/
def sizedBytes (bytes : List UInt8) : List UInt8 := compactSize bytes.length ++ bytes

def readSizedBytes (input : List UInt8) : Option (List UInt8 × List UInt8) :=
  (readCompactSize input).map fun r ↦ (r.2.take r.1, r.2.drop r.1)

theorem readSizedBytes_sizedBytes {bytes : List UInt8} (h : bytes.length < 256 ^ 8)
    (rest : List UInt8) : readSizedBytes (sizedBytes bytes ++ rest) = some (bytes, rest) := by
  unfold readSizedBytes sizedBytes
  rw [List.append_assoc, readCompactSize_compactSize h, Option.map_some, List.take_left,
    List.drop_left]

end PrefixCodec
