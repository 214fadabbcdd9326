import Mathlib.Data.List.Basic
import SatoshiBridge.Library.Hex

/-!
# Texts of JSON

Quoted strings and lists as a compact JSON writer prints them, and readers that take back what was
written whatever follows it. The writer escapes what has to be escaped; the reader knows the other
escapes too, pairs of surrogates among them, and skips whitespace between tokens.
-/

set_option autoImplicit false
set_option relaxedAutoImplicit false

namespace JsonText

def quotationMark : Char := Char.ofNat 34

def reverseSolidus : Char := Char.ofNat 92

/-! ### Quoted strings -/

/-- The characters with an escape of two characters, each with the second of them. -/
def shortEscapes : List (Char × Char) :=
  [(quotationMark, quotationMark), (reverseSolidus, reverseSolidus), (Char.ofNat 8, 'b'),
    (Char.ofNat 9, 't'), (Char.ofNat 10, 'n'), (Char.ofNat 12, 'f'), (Char.ofNat 13, 'r')]

/-- The four digits of a control character. -/
def controlDigits (c : Char) : List Char :=
  ['0', '0', Nat.digitChar (c.toNat / 16), Nat.digitChar (c.toNat % 16)]

/-- How a character is written between quotation marks. -/
def escape (c : Char) : List Char :=
  match shortEscapes.lookup c with
  | some e => [reverseSolidus, e]
  | none => if c.toNat < 32 then reverseSolidus :: 'u' :: controlDigits c else [c]

/-- A quoted string. -/
def quote (s : String) : List Char :=
  quotationMark :: (s.toList.flatMap escape ++ [quotationMark])

/-- The character of an escape of two characters. -/
def unescape (e : Char) : Option Char :=
  if e = '/' then some e else (shortEscapes.find? fun p ↦ p.2 = e).map Prod.fst

/-- A code unit of four hexadecimal digits. -/
def readUnit : List Char → Option (ℕ × List Char)
  | a :: b :: c :: d :: rest => do
    let a ← Hex.digitValue a
    let b ← Hex.digitValue b
    let c ← Hex.digitValue c
    let d ← Hex.digitValue d
    some (16 * (16 * (16 * a + b) + c) + d, rest)
  | _ => none

/-- The second unit of a pair of surrogates. -/
def readLowSurrogate (high : ℕ) : List Char → Option (Char × List Char)
  | a :: b :: rest =>
    if a = reverseSolidus ∧ b = 'u' then do
      let (low, rest) ← readUnit rest
      if 0xDC00 ≤ low ∧ low < 0xE000 then
        some (Char.ofNat (0x10000 + 0x400 * (high - 0xD800) + (low - 0xDC00)), rest)
      else none
    else none
  | _ => none

/-- What follows a reverse solidus. -/
def readEscape : List Char → Option (Char × List Char)
  | [] => none
  | e :: rest =>
    if e = 'u' then do
      let (unit, rest) ← readUnit rest
      if 0xD800 ≤ unit ∧ unit < 0xDC00 then readLowSurrogate unit rest
      else if 0xDC00 ≤ unit ∧ unit < 0xE000 then none
      else some (Char.ofNat unit, rest)
    else (unescape e).map fun c ↦ (c, rest)

/-- The characters up to the closing quotation mark; every round reads one, so the length of the
text is fuel enough. -/
def readBody : ℕ → List Char → Option (List Char × List Char)
  | 0, _ => none
  | _ + 1, [] => none
  | fuel + 1, c :: rest =>
    if c = quotationMark then some ([], rest)
    else if c = reverseSolidus then do
      let (c, rest) ← readEscape rest
      let (cs, rest) ← readBody fuel rest
      some (c :: cs, rest)
    else if c.toNat < 32 then none
    else do
      let (cs, rest) ← readBody fuel rest
      some (c :: cs, rest)

/-- A quoted string, and what follows it. -/
def readQuoted : List Char → Option (String × List Char)
  | [] => none
  | c :: rest =>
    if c = quotationMark then do
      let (cs, rest) ← readBody (rest.length + 1) rest
      some (String.ofList cs, rest)
    else none

/-! ### Quoted strings are read back -/

theorem unescape_of_shortEscape {c e : Char} (h : shortEscapes.lookup c = some e) :
    unescape e = some c ∧ e ≠ 'u' := by
  have hall : ∀ p ∈ shortEscapes, unescape p.2 = some p.1 ∧ p.2 ≠ 'u' := by decide
  obtain ⟨before, after, heq, _⟩ := List.lookup_eq_some_iff.mp h
  refine hall (c, e) ?_
  rw [heq]
  exact List.mem_append_right before List.mem_cons_self

/-- A character without an escape of two characters is no mark of the syntax. -/
theorem ne_of_lookup_eq_none {c : Char} (h : shortEscapes.lookup c = none) :
    c ≠ quotationMark ∧ c ≠ reverseSolidus := by
  constructor
  · rintro rfl
    exact absurd h (by decide)
  · rintro rfl
    exact absurd h (by decide)

theorem readUnit_controlDigits {c : Char} (hc : c.toNat < 32) (rest : List Char) :
    readUnit (controlDigits c ++ rest) = some (c.toNat, rest) := by
  have hzero : Hex.digitValue '0' = some 0 := by decide
  have hhigh := Hex.digitValue_digitChar (c.toNat / 16) (by omega)
  have hlow := Hex.digitValue_digitChar (c.toNat % 16) (by omega)
  have hvalue : 16 * (16 * (16 * 0 + 0) + c.toNat / 16) + c.toNat % 16 = c.toNat := by omega
  simp only [controlDigits, List.cons_append, List.nil_append, readUnit, hzero, hhigh, hlow, hvalue,
    Option.bind_eq_bind, Option.bind_some]

/-- The reader takes back one character. -/
theorem readBody_escape (fuel : ℕ) (c : Char) (rest : List Char) :
    readBody (fuel + 1) (escape c ++ rest) =
      (readBody fuel rest).bind fun p ↦ some (c :: p.1, p.2) := by
  have hmark : reverseSolidus ≠ quotationMark := by decide
  unfold escape
  split
  · rename_i e hshort
    obtain ⟨hunescape, hu⟩ := unescape_of_shortEscape hshort
    simp only [List.cons_append, List.nil_append, readBody, if_neg hmark, if_true, readEscape,
      if_neg hu, hunescape, Option.map_some, Option.bind_eq_bind, Option.bind_some]
  · rename_i hshort
    obtain ⟨hquote, hsolidus⟩ := ne_of_lookup_eq_none hshort
    by_cases hcontrol : c.toNat < 32
    · have hhigh : ¬(0xD800 ≤ c.toNat ∧ c.toNat < 0xDC00) := by omega
      have hlow : ¬(0xDC00 ≤ c.toNat ∧ c.toNat < 0xE000) := by omega
      rw [if_pos hcontrol, List.cons_append, List.cons_append]
      simp only [readBody, if_neg hmark, if_true, readEscape, readUnit_controlDigits hcontrol,
        if_neg hhigh, if_neg hlow, Char.ofNat_toNat, Option.bind_eq_bind, Option.bind_some]
    · rw [if_neg hcontrol]
      simp only [List.cons_append, List.nil_append, readBody, if_neg hquote, if_neg hsolidus,
        if_neg hcontrol, Option.bind_eq_bind]

theorem readBody_flatMap (cs rest : List Char) : ∀ fuel, cs.length < fuel →
    readBody fuel (cs.flatMap escape ++ quotationMark :: rest) = some (cs, rest) := by
  induction cs with
  | nil =>
    intro fuel hfuel
    cases fuel with
    | zero => exact absurd hfuel (Nat.not_lt_zero _)
    | succ fuel => simp only [List.flatMap_nil, List.nil_append, readBody, if_true]
  | cons c cs ih =>
    intro fuel hfuel
    cases fuel with
    | zero => exact absurd hfuel (Nat.not_lt_zero _)
    | succ fuel =>
      rw [List.flatMap_cons, List.append_assoc, readBody_escape,
        ih fuel (Nat.lt_of_succ_lt_succ hfuel), Option.bind_some]

theorem escape_ne_nil (c : Char) : escape c ≠ [] := by
  unfold escape
  split
  · exact List.cons_ne_nil _ _
  · split
    · exact List.cons_ne_nil _ _
    · exact List.cons_ne_nil _ _

/-- A text is at least as long as what it spells. -/
theorem length_le_flatMap_escape (cs : List Char) : cs.length ≤ (cs.flatMap escape).length := by
  induction cs with
  | nil => exact Nat.le_refl 0
  | cons c cs ih =>
    have hpos := List.length_pos_iff.mpr (escape_ne_nil c)
    rw [List.length_cons, List.flatMap_cons, List.length_append]
    omega

/-- A quoted string is read back whatever follows it. -/
theorem readQuoted_quote (s : String) (rest : List Char) :
    readQuoted (quote s ++ rest) = some (s, rest) := by
  have hlength := length_le_flatMap_escape s.toList
  have hbody := readBody_flatMap s.toList rest
    ((s.toList.flatMap escape ++ quotationMark :: rest).length + 1) (by
      rw [List.length_append]
      omega)
  rw [quote, List.cons_append, List.append_assoc, List.singleton_append]
  simp only [readQuoted, if_true, hbody, Option.bind_eq_bind, Option.bind_some,
    String.ofList_toList]

/-! ### Lists -/

def isWhitespace (c : Char) : Bool := c = ' ' ∨ c = '\t' ∨ c = '\n' ∨ c = '\r'

def skipWhitespace (cs : List Char) : List Char := cs.dropWhile isWhitespace

theorem skipWhitespace_cons {c : Char} (h : isWhitespace c = false) (cs : List Char) :
    skipWhitespace (c :: cs) = c :: cs := by
  rw [skipWhitespace, List.dropWhile_cons, h]
  rfl

/-- Texts with commas between them. -/
def separated : List (List Char) → List Char
  | [] => []
  | [text] => text
  | text :: next :: texts => text ++ ',' :: separated (next :: texts)

/-- A list in brackets. -/
def enclosed (opening closing : Char) (texts : List (List Char)) : List Char :=
  opening :: (separated texts ++ [closing])

variable {α : Type} (item : List Char → Option (α × List Char)) (closing : Char)

/-- One item or more, with commas between them, up to the closing bracket. -/
def readItems : ℕ → List Char → Option (List α × List Char)
  | 0, _ => none
  | fuel + 1, cs => do
    let (a, cs) ← item cs
    match skipWhitespace cs with
    | [] => none
    | c :: rest =>
      if c = ',' then do
        let (as, rest) ← readItems fuel rest
        some (a :: as, rest)
      else if c = closing then some ([a], rest)
      else none

/-- The rest of a list after its opening bracket. -/
def readEnclosed (cs : List Char) : Option (List α × List Char) :=
  match skipWhitespace cs with
  | [] => none
  | c :: rest =>
    if c = closing then some ([], rest) else readItems item closing (c :: rest).length (c :: rest)

variable {item closing} {write : α → List Char}

/-- What the items of a list have to satisfy to be read back: an item is read back whatever follows
it, and starts with neither whitespace nor the closing bracket. -/
structure ReadsItem (item : List Char → Option (α × List Char)) (closing : Char)
    (write : α → List Char) (a : α) : Prop where
  read : ∀ rest, item (write a ++ rest) = some (a, rest)
  start : ∃ c cs, write a = c :: cs ∧ isWhitespace c = false ∧ c ≠ closing

theorem readItems_separated (hclosing : isWhitespace closing = false) (hcomma : closing ≠ ',')
    (rest : List Char) (as : List α) : ∀ fuel a, as.length < fuel →
    (∀ b ∈ a :: as, ReadsItem item closing write b) →
      readItems item closing fuel (separated ((a :: as).map write) ++ closing :: rest) =
        some (a :: as, rest) := by
  induction as with
  | nil =>
    intro fuel a hfuel hreads
    cases fuel with
    | zero => exact absurd hfuel (Nat.not_lt_zero _)
    | succ fuel =>
      have hread := (hreads a List.mem_cons_self).read (closing :: rest)
      simp only [List.map_cons, List.map_nil, separated, readItems, hread,
        skipWhitespace_cons hclosing, if_neg hcomma, if_true, Option.bind_eq_bind, Option.bind_some]
  | cons b as ih =>
    intro fuel a hfuel hreads
    cases fuel with
    | zero => exact absurd hfuel (Nat.not_lt_zero _)
    | succ fuel =>
      have hread := (hreads a List.mem_cons_self).read
        (',' :: (separated ((b :: as).map write) ++ closing :: rest))
      have hrest := ih fuel b (Nat.lt_of_succ_lt_succ hfuel)
        fun x hx ↦ hreads x (List.mem_cons_of_mem a hx)
      have hspace : isWhitespace ',' = false := by decide
      have htext : separated ((a :: b :: as).map write) ++ closing :: rest =
          write a ++ (',' :: (separated ((b :: as).map write) ++ closing :: rest)) := by
        simp only [List.map_cons, separated, List.append_assoc, List.cons_append]
      rw [htext]
      simp only [readItems, hread, skipWhitespace_cons hspace, if_true, hrest, Option.bind_eq_bind,
        Option.bind_some]

/-- Every item takes at least one character. -/
theorem length_le_separated {as : List α} (hreads : ∀ a ∈ as, ReadsItem item closing write a) :
    as.length ≤ (separated (as.map write)).length := by
  induction as with
  | nil => exact Nat.le_refl 0
  | cons a as ih =>
    obtain ⟨c, cs, hwrite, _⟩ := (hreads a List.mem_cons_self).start
    cases as with
    | nil =>
      rw [List.map_singleton, separated, hwrite, List.length_cons, List.length_cons]
      exact Nat.succ_le_succ (Nat.zero_le _)
    | cons b as =>
      have hrest := ih fun x hx ↦ hreads x (List.mem_cons_of_mem a hx)
      have htext : separated ((a :: b :: as).map write) =
          write a ++ ',' :: separated ((b :: as).map write) := rfl
      rw [List.length_cons] at hrest
      rw [htext, List.length_append, hwrite]
      simp only [List.length_cons]
      omega

/-- A list in brackets is read back whatever follows it, when its items are. -/
theorem readEnclosed_enclosed (hclosing : isWhitespace closing = false) (hcomma : closing ≠ ',')
    {as : List α} (hreads : ∀ a ∈ as, ReadsItem item closing write a) (rest : List Char) :
    readEnclosed item closing (separated (as.map write) ++ closing :: rest) = some (as, rest) := by
  cases as with
  | nil =>
    simp only [List.map_nil, separated, List.nil_append, readEnclosed, skipWhitespace_cons hclosing,
      if_true]
  | cons a as =>
    obtain ⟨c, cs, hwrite, hspace, hne⟩ := (hreads a List.mem_cons_self).start
    obtain ⟨tail, htail⟩ : ∃ tail, separated ((a :: as).map write) = c :: tail := by
      cases as with
      | nil => exact ⟨cs, hwrite⟩
      | cons b as =>
        refine ⟨cs ++ ',' :: separated ((b :: as).map write), ?_⟩
        rw [List.map_cons, List.map_cons, separated, hwrite]
        rfl
    have hlength := length_le_separated hreads
    have hitems := readItems_separated hclosing hcomma rest as
      (separated ((a :: as).map write) ++ closing :: rest).length a (by
        rw [List.length_append]
        rw [List.length_cons] at hlength
        omega) hreads
    rw [htail, List.cons_append] at hitems ⊢
    simp only [readEnclosed, skipWhitespace_cons hspace, if_neg hne]
    exact hitems

end JsonText
