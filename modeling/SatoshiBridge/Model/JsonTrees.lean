import SatoshiBridge.Model.Json

/-!
# JSON values as trees

Induction over values, the places in a value, and the values whose objects name no key twice.
-/

set_option autoImplicit false
set_option relaxedAutoImplicit false

namespace SatoshiBridge

namespace Json

/-- A property of every element of an array and every member of an object goes over to the
container. -/
@[elab_as_elim] theorem induct {motive : Json → Prop} (null : motive .null)
    (bool : ∀ b, motive (.bool b)) (number : ∀ text, motive (.number text))
    (string : ∀ s, motive (.string s))
    (array : ∀ elements : List Json, (∀ e ∈ elements, motive e) → motive (.array elements))
    (object : ∀ members : List (String × Json), (∀ m ∈ members, motive m.2) →
      motive (.object members)) : ∀ value, motive value
  | .null => null
  | .bool b => bool b
  | .number text => number text
  | .string s => string s
  | .array elements => array elements fun e _ ↦
      induct null bool number string array object e
  | .object members => object members fun m _ ↦
      induct null bool number string array object m.2
termination_by value => sizeOf value
decreasing_by
  · have hlt := List.sizeOf_lt_of_mem ‹e ∈ elements›
    rw [Json.array.sizeOf_spec]
    omega
  · have hlt := List.sizeOf_lt_of_mem ‹m ∈ members›
    have hmember : sizeOf m = 1 + sizeOf m.1 + sizeOf m.2 := rfl
    rw [Json.object.sizeOf_spec]
    omega

end Json

/-! ### Places -/

/-- One step down: to a member of an object, or to an element of an array. -/
inductive JsonStep
  | member (key : String)
  | element (index : ℕ)
deriving DecidableEq

/-- The key of a step; an element has none. -/
def JsonStep.key : JsonStep → Option String
  | member key => some key
  | element _ => none

namespace Json

/-- A value is at the end of a path. -/
inductive At : Json → List JsonStep → Json → Prop
  | here (value : Json) : At value [] value
  | member {members : List (String × Json)} {key : String} {child value : Json}
      {path : List JsonStep} (hmem : (key, child) ∈ members) (h : At child path value) :
      At (.object members) (.member key :: path) value
  | element {elements : List Json} {index : ℕ} {child value : Json} {path : List JsonStep}
      (hget : elements[index]? = some child) (h : At child path value) :
      At (.array elements) (.element index :: path) value

variable {value child : Json} {members : List (String × Json)} {elements : List Json}
  {path : List JsonStep}

@[simp] theorem at_nil {value' : Json} : value.At [] value' ↔ value' = value := by
  constructor
  · intro h
    cases h
    rfl
  · intro h
    rw [h]
    exact .here value

@[simp] theorem at_member {key : String} :
    (Json.object members).At (.member key :: path) value ↔
      ∃ child, (key, child) ∈ members ∧ child.At path value := by
  constructor
  · intro h
    cases h with
    | member hmem h => exact ⟨_, hmem, h⟩
  · rintro ⟨child, hmem, h⟩
    exact .member hmem h

@[simp] theorem at_element {index : ℕ} :
    (Json.array elements).At (.element index :: path) value ↔
      ∃ child, elements[index]? = some child ∧ child.At path value := by
  constructor
  · intro h
    cases h with
    | element hget h => exact ⟨_, hget, h⟩
  · rintro ⟨child, hget, h⟩
    exact .element hget h

/-- A place below a place. -/
theorem at_append {path' : List JsonStep} : value.At (path ++ path') child ↔
    ∃ middle, value.At path middle ∧ middle.At path' child := by
  induction path generalizing value with
  | nil =>
    constructor
    · intro h
      exact ⟨value, .here value, h⟩
    · rintro ⟨middle, hmiddle, h⟩
      rw [at_nil] at hmiddle
      rw [← hmiddle]
      exact h
  | cons step path ih =>
    constructor
    · intro h
      cases h with
      | member hmem h =>
        obtain ⟨middle, hmiddle, hbelow⟩ := ih.mp h
        exact ⟨middle, .member hmem hmiddle, hbelow⟩
      | element hget h =>
        obtain ⟨middle, hmiddle, hbelow⟩ := ih.mp h
        exact ⟨middle, .element hget hmiddle, hbelow⟩
    · rintro ⟨middle, hmiddle, hbelow⟩
      cases hmiddle with
      | member hmem h => exact .member hmem (ih.mpr ⟨middle, h, hbelow⟩)
      | element hget h => exact .element hget (ih.mpr ⟨middle, h, hbelow⟩)

/-! ### Distinct keys -/

/-- No object in the value names a key twice. -/
inductive Distinct : Json → Prop
  | null : Distinct .null
  | bool (b : Bool) : Distinct (.bool b)
  | number (text : String) : Distinct (.number text)
  | string (s : String) : Distinct (.string s)
  | array {elements : List Json} (h : ∀ e ∈ elements, Distinct e) : Distinct (.array elements)
  | object {members : List (String × Json)} (hkeys : (members.map Prod.fst).Nodup)
      (h : ∀ m ∈ members, Distinct m.2) : Distinct (.object members)

theorem Distinct.ofElements (h : (Json.array elements).Distinct) : ∀ e ∈ elements, e.Distinct := by
  cases h with
  | array h => exact h

theorem Distinct.keys (h : (Json.object members).Distinct) : (members.map Prod.fst).Nodup := by
  cases h with
  | object hkeys _ => exact hkeys

theorem Distinct.ofMembers (h : (Json.object members).Distinct) :
    ∀ m ∈ members, m.2.Distinct := by
  cases h with
  | object _ h => exact h

/-- Looking up a key finds the member that has it. -/
theorem lookup_eq_some_of_nodup {members : List (String × Json)}
    (h : (members.map Prod.fst).Nodup) {key : String} {child : Json} :
    members.lookup key = some child ↔ (key, child) ∈ members := by
  induction members with
  | nil =>
    rw [List.lookup_nil]
    constructor
    · intro hnone
      cases hnone
    · intro hmem
      cases hmem
  | cons member members ih =>
    obtain ⟨key', child'⟩ := member
    rw [List.map_cons, List.nodup_cons] at h
    rw [List.lookup_cons, List.mem_cons, Prod.mk.injEq]
    by_cases hkey : key = key'
    · have hnot : (key, child) ∉ members := by
        intro hmem
        apply h.1
        rw [← hkey]
        exact List.mem_map.mpr ⟨(key, child), hmem, rfl⟩
      rw [hkey, BEq.rfl]
      constructor
      · intro hsome
        exact Or.inl ⟨rfl, (Option.some.inj hsome).symm⟩
      · rintro (⟨_, heq⟩ | hmem)
        · rw [heq]
        · rw [← hkey] at hmem
          exact absurd hmem hnot
    · rw [beq_false_of_ne hkey]
      constructor
      · intro hsome
        exact Or.inr ((ih h.2).mp hsome)
      · rintro (⟨heq, _⟩ | hmem)
        · exact absurd heq hkey
        · exact (ih h.2).mpr hmem

end Json

/-- A value as `serde_json` has it: no object names a key twice. -/
abbrev JsonValue := { value : Json // value.Distinct }

end SatoshiBridge
