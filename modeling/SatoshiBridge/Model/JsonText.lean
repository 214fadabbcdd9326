import SatoshiBridge.Library.Checked
import SatoshiBridge.Library.JsonText
import SatoshiBridge.Model.Json

/-!
# Texts of JSON values

The compact text of a value and a reader of texts, as the JSON library of the contract has them: a
text is one value between whitespace, and arrays and objects are nested at most 127 deep. The number
of a text is kept as it is spelled.
-/

set_option autoImplicit false
set_option relaxedAutoImplicit false

namespace SatoshiBridge.Json

open JsonText

/-! ### Writing -/

mutual

/-- The compact text of a value. -/
def write : Json → List Char
  | .null => ['n', 'u', 'l', 'l']
  | .bool true => ['t', 'r', 'u', 'e']
  | .bool false => ['f', 'a', 'l', 's', 'e']
  | .number text => text.toList
  | .string s => quote s
  | .array elements => enclosed '[' ']' (writeElements elements)
  | .object members => enclosed '{' '}' (writeMembers members)

def writeElements : List Json → List (List Char)
  | [] => []
  | element :: rest => write element :: writeElements rest

def writeMembers : List (String × Json) → List (List Char)
  | [] => []
  | (key, value) :: rest => (quote key ++ ':' :: write value) :: writeMembers rest

end

/-- A member of an object. -/
def writeMember (member : String × Json) : List Char := quote member.1 ++ ':' :: write member.2

theorem writeElements_eq (elements : List Json) : writeElements elements = elements.map write := by
  induction elements with
  | nil => rfl
  | cons element rest ih => rw [writeElements, ih, List.map_cons]

theorem writeMembers_eq (members : List (String × Json)) :
    writeMembers members = members.map writeMember := by
  induction members with
  | nil => rfl
  | cons member rest ih => rw [writeMembers, ih, List.map_cons, writeMember]

/-- The text of a value. -/
def text (value : Json) : String := String.ofList (write value)

/-! ### Reading -/

def isNumberChar (c : Char) : Bool := c.isDigit ∨ c ∈ ['-', '+', '.', 'e', 'E']

/-- What may follow the fraction of a number. -/
def isExponent : List Char → Bool
  | [] => true
  | e :: rest =>
    let digits := match rest with
      | c :: digits => if c = '+' ∨ c = '-' then digits else rest
      | [] => []
    (e = 'e' ∨ e = 'E') ∧ digits ≠ [] ∧ digits.all Char.isDigit

/-- What may follow the integer part of a number. -/
def isFraction : List Char → Bool
  | c :: rest =>
    if c = '.' then rest.takeWhile Char.isDigit ≠ [] ∧ isExponent (rest.dropWhile Char.isDigit)
    else isExponent (c :: rest)
  | [] => true

/-- The grammar of numbers: no plus sign, no leading zero. -/
def isNumber (cs : List Char) : Bool :=
  let unsigned := match cs with
    | c :: rest => if c = '-' then rest else cs
    | [] => []
  match unsigned with
  | [] => false
  | c :: rest =>
    if c = '0' then isFraction rest
    else c.isDigit ∧ isFraction (rest.dropWhile Char.isDigit)

def readNumber (cs : List Char) : Option (Json × List Char) := do
  let digits := cs.takeWhile isNumberChar
  require (isNumber digits)
  some (.number (String.ofList digits), cs.dropWhile isNumberChar)

/-- The rest of a word that stands for a value. -/
def readWord (word : List Char) (value : Json) (cs : List Char) : Option (Json × List Char) :=
  if word <+: cs then some (value, cs.drop word.length) else none

/-- A value that is neither an array nor an object. -/
def readScalar : List Char → Option (Json × List Char)
  | [] => none
  | c :: rest =>
    if c = quotationMark then do
      let (s, rest) ← readQuoted (c :: rest)
      some (.string s, rest)
    else if c = 'n' then readWord ['u', 'l', 'l'] .null rest
    else if c = 't' then readWord ['r', 'u', 'e'] (.bool true) rest
    else if c = 'f' then readWord ['a', 'l', 's', 'e'] (.bool false) rest
    else readNumber (c :: rest)

/-- A member of an object, given the reader of its value. -/
def readMember (value : List Char → Option (Json × List Char)) (cs : List Char) :
    Option ((String × Json) × List Char) := do
  let (key, cs) ← readQuoted (skipWhitespace cs)
  match skipWhitespace cs with
  | [] => none
  | c :: rest => do
    require (c = ':')
    let (v, rest) ← value rest
    some ((key, v), rest)

/-- A value that is nested at most so deep. -/
def readValue : ℕ → List Char → Option (Json × List Char)
  | 0, cs => readScalar (skipWhitespace cs)
  | depth + 1, cs =>
    match skipWhitespace cs with
    | [] => none
    | c :: rest =>
      if c = '[' then do
        let (elements, rest) ← readEnclosed (readValue depth) ']' rest
        some (.array elements, rest)
      else if c = '{' then do
        let (members, rest) ← readEnclosed (readMember (readValue depth)) '}' rest
        some (.object members, rest)
      else readScalar (c :: rest)

/-- The recursion limit of the reader, less one. -/
def maxDepth : ℕ := 127

/-- The value of a text. -/
def ofText (s : String) : Option Json := do
  let (value, rest) ← readValue maxDepth s.toList
  require (skipWhitespace rest = [])
  some value

/-! ### What was written is read back -/

/-- A value without numbers that is nested at most so deep. -/
def Fits : ℕ → Json → Prop
  | _, .null | _, .bool _ | _, .string _ => True
  | _, .number _ | 0, .array _ | 0, .object _ => False
  | depth + 1, .array elements => ∀ element ∈ elements, Fits depth element
  | depth + 1, .object members => ∀ member ∈ members, Fits depth member.2

/-- The first character of the text of a value. -/
theorem write_start {depth : ℕ} {value : Json} (h : Fits depth value) :
    ∃ c cs, write value = c :: cs ∧ isWhitespace c = false ∧ c ≠ ']' ∧ c ≠ '}' := by
  cases value with
  | null => exact ⟨'n', _, rfl, by decide⟩
  | bool b =>
    cases b with
    | true => exact ⟨'t', _, rfl, by decide⟩
    | false => exact ⟨'f', _, rfl, by decide⟩
  | number => cases depth <;> exact h.elim
  | string s => exact ⟨quotationMark, _, rfl, by decide⟩
  | array => exact ⟨'[', _, rfl, by decide⟩
  | object => exact ⟨'{', _, rfl, by decide⟩

theorem readWord_append (word : List Char) (value : Json) (rest : List Char) :
    readWord word value (word ++ rest) = some (value, rest) := by
  rw [readWord, if_pos (List.prefix_append word rest), List.drop_left]

/-- Scalars start like no array and no object. -/
theorem readValue_of_scalar {c : Char} (hspace : isWhitespace c = false) (harray : c ≠ '[')
    (hobject : c ≠ '{') (depth : ℕ) (cs : List Char) :
    readValue depth (c :: cs) = readScalar (c :: cs) := by
  cases depth with
  | zero => rw [readValue, skipWhitespace_cons hspace]
  | succ depth =>
    simp only [readValue, skipWhitespace_cons hspace, if_neg harray, if_neg hobject]

theorem readScalar_quote (s : String) (rest : List Char) :
    readScalar (quote s ++ rest) = some (.string s, rest) := by
  have hread := readQuoted_quote s rest
  rw [quote, List.cons_append] at hread ⊢
  simp only [readScalar, if_true, hread, Option.bind_eq_bind, Option.bind_some]

theorem readMember_write {depth : ℕ} {member : String × Json}
    (hread : ∀ rest, readValue depth (write member.2 ++ rest) = some (member.2, rest))
    (rest : List Char) :
    readMember (readValue depth) (writeMember member ++ rest) = some (member, rest) := by
  have hquote : skipWhitespace (writeMember member ++ rest) =
      quote member.1 ++ (':' :: (write member.2 ++ rest)) := by
    rw [writeMember, List.append_assoc, List.cons_append, quote, List.cons_append,
      skipWhitespace_cons (by decide)]
  have hcolon : skipWhitespace (':' :: (write member.2 ++ rest)) =
      ':' :: (write member.2 ++ rest) := skipWhitespace_cons (by decide) _
  simp only [readMember, hquote, readQuoted_quote, hcolon, require_of, hread, Option.bind_eq_bind,
    Option.bind_some]

/-- A scalar is read back at every depth. -/
theorem readValue_write_scalar (depth : ℕ) (rest : List Char) :
    readValue depth (write .null ++ rest) = some (.null, rest) ∧
      (∀ b, readValue depth (write (.bool b) ++ rest) = some (.bool b, rest)) ∧
      ∀ s, readValue depth (write (.string s) ++ rest) = some (.string s, rest) := by
  refine ⟨?_, fun b ↦ ?_, fun s ↦ ?_⟩
  · have hscalar := readValue_of_scalar (c := 'n') (by decide) (by decide) (by decide) depth
    exact (hscalar _).trans (readWord_append ['u', 'l', 'l'] .null rest)
  · cases b with
    | true =>
      have hscalar := readValue_of_scalar (c := 't') (by decide) (by decide) (by decide) depth
      exact (hscalar _).trans (readWord_append ['r', 'u', 'e'] (.bool true) rest)
    | false =>
      have hscalar := readValue_of_scalar (c := 'f') (by decide) (by decide) (by decide) depth
      exact (hscalar _).trans (readWord_append ['a', 'l', 's', 'e'] (.bool false) rest)
  · have hscalar :=
      readValue_of_scalar (c := quotationMark) (by decide) (by decide) (by decide) depth
    exact (hscalar _).trans (readScalar_quote s rest)

/-- The text of a value is read back whatever follows it. -/
theorem readValue_write (depth : ℕ) : ∀ value, Fits depth value → ∀ rest,
    readValue depth (write value ++ rest) = some (value, rest) := by
  induction depth with
  | zero =>
    intro value h rest
    obtain ⟨hnull, hbool, hstring⟩ := readValue_write_scalar 0 rest
    cases value with
    | null => exact hnull
    | bool b => exact hbool b
    | string s => exact hstring s
    | number | array | object => exact h.elim
  | succ depth ih =>
    intro value h rest
    obtain ⟨hnull, hbool, hstring⟩ := readValue_write_scalar (depth + 1) rest
    cases value with
    | null => exact hnull
    | bool b => exact hbool b
    | string s => exact hstring s
    | number => exact h.elim
    | array elements =>
      have hitems : ∀ element ∈ elements, ReadsItem (readValue depth) ']' write element := by
        intro element helement
        obtain ⟨c, cs, hwrite, hspace, hne, _⟩ := write_start (h element helement)
        exact ⟨ih element (h element helement), c, cs, hwrite, hspace, hne⟩
      have hread := readEnclosed_enclosed (by decide) (by decide) hitems rest
      have htext : write (.array elements) ++ rest =
          '[' :: (separated (elements.map write) ++ ']' :: rest) := by
        rw [write, writeElements_eq, enclosed, List.cons_append, List.append_assoc,
          List.singleton_append]
      rw [htext]
      simp only [readValue, skipWhitespace_cons (show isWhitespace '[' = false by decide), if_true,
        hread, Option.bind_eq_bind, Option.bind_some]
    | object members =>
      have hitems : ∀ member ∈ members,
          ReadsItem (readMember (readValue depth)) '}' writeMember member := by
        intro member hmember
        refine ⟨readMember_write (ih member.2 (h member hmember)), quotationMark, _, rfl, ?_⟩
        decide
      have hread := readEnclosed_enclosed (by decide) (by decide) hitems rest
      have htext : write (.object members) ++ rest =
          '{' :: (separated (members.map writeMember) ++ '}' :: rest) := by
        rw [write, writeMembers_eq, enclosed, List.cons_append, List.append_assoc,
          List.singleton_append]
      have hbrace : ('{' : Char) ≠ '[' := by decide
      rw [htext]
      simp only [readValue, skipWhitespace_cons (show isWhitespace '{' = false by decide), if_true,
        if_neg hbrace, hread, Option.bind_eq_bind, Option.bind_some]

/-- The text of a value is read back. -/
theorem ofText_text {value : Json} (h : Fits maxDepth value) :
    ofText (text value) = some value := by
  have hread := readValue_write maxDepth value h []
  rw [List.append_nil] at hread
  rw [ofText, text, String.toList_ofList, hread]
  rfl

end SatoshiBridge.Json
