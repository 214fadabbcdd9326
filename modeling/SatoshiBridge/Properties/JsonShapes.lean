import SatoshiBridge.Model.JsonTrees

/-!
# Templates and the messages they admit

A template describes a language of values. The check accepts exactly the values of the language of
its template, so it lets no key in that the template does not offer, and dropping keys never makes a
message unacceptable.
-/

set_option autoImplicit false
set_option relaxedAutoImplicit false

namespace SatoshiBridge

/-! ### The language of a template -/

mutual

/-- The values a template admits. -/
inductive Admits : Json → Json → Prop
  | anything (input : Json) : Admits .null input
  | string (s s' : String) : Admits (.string s) (.string s')
  | number (text text' : String) : Admits (.number text) (.number text')
  | bool (b b' : Bool) : Admits (.bool b) (.bool b')
  | object {template input : List (String × Json)}
      (h : ∀ m ∈ input, AdmitsMember template m) : Admits (.object template) (.object input)
  | emptyArray : Admits (.array []) (.array [])
  | array {template input : List Json} (hne : template ≠ [])
      (h : ∀ item ∈ input, AdmitsItem template item) : Admits (.array template) (.array input)

/-- A member whose key the template has, with a value that it admits for the key. -/
inductive AdmitsMember : List (String × Json) → String × Json → Prop
  | intro {template : List (String × Json)} {key : String} {shape value : Json}
      (hmem : (key, shape) ∈ template) (h : Admits shape value) :
      AdmitsMember template (key, value)

/-- An element that one of the variants admits. -/
inductive AdmitsItem : List Json → Json → Prop
  | intro {template : List Json} {shape item : Json} (hmem : shape ∈ template)
      (h : Admits shape item) : AdmitsItem template item

end

theorem admitsMember_iff {template : List (String × Json)} {m : String × Json} :
    AdmitsMember template m ↔ ∃ shape, (m.1, shape) ∈ template ∧ Admits shape m.2 := by
  constructor
  · intro h
    cases h with
    | intro hmem h => exact ⟨_, hmem, h⟩
  · rintro ⟨shape, hmem, h⟩
    exact .intro hmem h

theorem admitsItem_iff {template : List Json} {item : Json} :
    AdmitsItem template item ↔ ∃ shape ∈ template, Admits shape item := by
  constructor
  · intro h
    cases h with
    | intro hmem h => exact ⟨_, hmem, h⟩
  · rintro ⟨shape, hmem, h⟩
    exact .intro hmem h

theorem admits_object_iff {template input : List (String × Json)} :
    Admits (.object template) (.object input) ↔
      ∀ m ∈ input, ∃ shape, (m.1, shape) ∈ template ∧ Admits shape m.2 := by
  constructor
  · intro h m hm
    cases h with
    | object h => exact admitsMember_iff.mp (h m hm)
  · intro h
    exact .object fun m hm ↦ admitsMember_iff.mpr (h m hm)

theorem admits_array_iff {template input : List Json} (hne : template ≠ []) :
    Admits (.array template) (.array input) ↔
      ∀ item ∈ input, ∃ shape ∈ template, Admits shape item := by
  constructor
  · intro h item hitem
    cases h with
    | emptyArray => exact absurd rfl hne
    | array _ h => exact admitsItem_iff.mp (h item hitem)
  · intro h
    exact .array hne fun item hitem ↦ admitsItem_iff.mpr (h item hitem)

/-! ### The loops of the check -/

theorem membersMatch_iff (template input : List (String × Json)) :
    membersMatch template input = true ↔
      ∀ m ∈ template, ∀ value, input.lookup m.1 = some value →
        isStructureEqual m.2 value = true := by
  induction template with
  | nil =>
    rw [membersMatch]
    exact ⟨fun _ m hm ↦ absurd hm List.not_mem_nil, fun _ ↦ rfl⟩
  | cons member template ih =>
    obtain ⟨key, shape⟩ := member
    rw [membersMatch, Bool.and_eq_true, ih, List.forall_mem_cons]
    refine and_congr_left fun _ ↦ ?_
    cases input.lookup key with
    | none =>
      exact ⟨fun _ value hvalue ↦ absurd hvalue (Option.some_ne_none value).symm, fun _ ↦ rfl⟩
    | some value =>
      constructor
      · intro h value' hvalue
        rw [← Option.some.inj hvalue]
        exact h
      · intro h
        exact h value rfl

theorem someElementMatches_iff (template : List Json) (item : Json) :
    someElementMatches template item = true ↔
      ∃ shape ∈ template, isStructureEqual shape item = true := by
  induction template with
  | nil =>
    rw [someElementMatches]
    constructor
    · intro h
      cases h
    · rintro ⟨shape, hmem, _⟩
      cases hmem
  | cons element template ih =>
    rw [someElementMatches, Bool.or_eq_true, ih, List.exists_mem_cons_iff]

theorem isStructureEqual_object (template input : List (String × Json)) :
    isStructureEqual (.object template) (.object input) = true ↔
      (∀ m ∈ template, ∀ value, input.lookup m.1 = some value →
        isStructureEqual m.2 value = true) ∧
      ∀ m ∈ input, ∃ shape, template.lookup m.1 = some shape := by
  rw [isStructureEqual, Bool.and_eq_true, membersMatch_iff, List.all_eq_true]
  refine and_congr_right fun _ ↦ forall₂_congr fun m _ ↦ ?_
  exact Option.isSome_iff_exists

theorem isStructureEqual_array {template : List Json} (hne : template ≠ []) (input : List Json) :
    isStructureEqual (.array template) (.array input) = true ↔
      ∀ item ∈ input, ∃ shape ∈ template, isStructureEqual shape item = true := by
  rw [isStructureEqual, if_neg (by simpa using hne), List.all_eq_true]
  exact forall₂_congr fun item _ ↦ someElementMatches_iff template item

/-- A scalar is of one kind only. -/
theorem admits_of_kind {template input : Json} (h : isStructureEqual template input = false)
    (hnot : ¬Admits template input) :
    isStructureEqual template input = true ↔ Admits template input := by
  rw [h]
  exact ⟨fun heq ↦ absurd heq Bool.false_ne_true, fun hadmits ↦ absurd hadmits hnot⟩

/-- The members of the input are checked when the loops look at the members of the template. -/
theorem object_iff {template input : List (String × Json)}
    (htemplate : (Json.object template).Distinct) (hinput : (Json.object input).Distinct)
    (ih : ∀ m ∈ template, ∀ value : Json, value.Distinct →
      (isStructureEqual m.2 value = true ↔ Admits m.2 value)) :
    isStructureEqual (.object template) (.object input) = true ↔
      Admits (.object template) (.object input) := by
  rw [isStructureEqual_object, admits_object_iff]
  constructor
  · rintro ⟨hvalues, hkeys⟩ m hm
    obtain ⟨shape, hlookup⟩ := hkeys m hm
    have hmem := (Json.lookup_eq_some_of_nodup htemplate.keys).mp hlookup
    have hvalue : input.lookup m.1 = some m.2 :=
      (Json.lookup_eq_some_of_nodup hinput.keys).mpr hm
    refine ⟨shape, hmem, ?_⟩
    exact (ih _ hmem m.2 (hinput.ofMembers m hm)).mp (hvalues _ hmem m.2 hvalue)
  · intro h
    constructor
    · intro m hm value hlookup
      have hvalue : (m.1, value) ∈ input :=
        (Json.lookup_eq_some_of_nodup hinput.keys).mp hlookup
      obtain ⟨shape, hmem, hadmits⟩ := h _ hvalue
      -- The template has one shape for the key.
      have hshape : some shape = some m.2 := by
        rw [← (Json.lookup_eq_some_of_nodup htemplate.keys).mpr hmem]
        exact (Json.lookup_eq_some_of_nodup htemplate.keys).mpr hm
      rw [Option.some.injEq] at hshape
      rw [hshape] at hadmits
      exact (ih m hm value (hinput.ofMembers _ hvalue)).mpr hadmits
    · intro m hm
      obtain ⟨shape, hmem, _⟩ := h m hm
      exact ⟨shape, (Json.lookup_eq_some_of_nodup htemplate.keys).mpr hmem⟩

/-- The check decides the language of the template. -/
theorem isStructureEqual_iff_of_distinct (template : Json) :
    template.Distinct → ∀ input : Json, input.Distinct →
      (isStructureEqual template input = true ↔ Admits template input) := by
  induction template using Json.induct with
  | null =>
    intro _ input _
    exact ⟨fun _ ↦ .anything input, fun _ ↦ by rw [isStructureEqual]⟩
  | bool b =>
    intro _ input _
    cases input with
    | bool b' => exact ⟨fun _ ↦ .bool b b', fun _ ↦ by rw [isStructureEqual]⟩
    | _ => exact admits_of_kind (by simp [isStructureEqual]) nofun
  | number text =>
    intro _ input _
    cases input with
    | number text' => exact ⟨fun _ ↦ .number text text', fun _ ↦ by rw [isStructureEqual]⟩
    | _ => exact admits_of_kind (by simp [isStructureEqual]) nofun
  | string s =>
    intro _ input _
    cases input with
    | string s' => exact ⟨fun _ ↦ .string s s', fun _ ↦ by rw [isStructureEqual]⟩
    | _ => exact admits_of_kind (by simp [isStructureEqual]) nofun
  | array elements ih =>
    intro hdistinct input hinput
    cases input with
    | array items =>
      by_cases hne : elements = []
      · rw [hne, isStructureEqual, if_pos List.isEmpty_nil, List.isEmpty_iff]
        constructor
        · intro hitems
          rw [hitems]
          exact .emptyArray
        · intro hadmits
          cases hadmits with
          | emptyArray => rfl
          | array hnonempty => exact absurd rfl hnonempty
      · rw [isStructureEqual_array hne, admits_array_iff hne]
        refine forall₂_congr fun item hitem ↦ exists_congr fun shape ↦
          and_congr_right fun hshape ↦ ?_
        exact ih shape hshape (hdistinct.ofElements shape hshape) item
          (hinput.ofElements item hitem)
    | _ => exact admits_of_kind (by simp [isStructureEqual]) nofun
  | object members ih =>
    intro hdistinct input hinput
    cases input with
    | object input =>
      exact object_iff hdistinct hinput fun m hm value hvalue ↦
        ih m hm (hdistinct.ofMembers m hm) value hvalue
    | _ => exact admits_of_kind (by simp [isStructureEqual]) nofun

/-! ### What is let in -/

/-- Every place of an admitted value is a place of the template, or below a null of it. -/
theorem Admits.offers {path : List JsonStep} : ∀ {template input value : Json},
    Admits template input → input.At path value →
      (∃ path' shape, path'.map JsonStep.key = path.map JsonStep.key ∧
        template.At path' shape ∧ Admits shape value) ∨
      ∃ path', path'.map JsonStep.key <+: path.map JsonStep.key ∧ template.At path' .null := by
  induction path with
  | nil =>
    intro template input value hadmits hat
    rw [Json.at_nil] at hat
    rw [hat]
    exact Or.inl ⟨[], template, rfl, .here template, hadmits⟩
  | cons step path ih =>
    intro template input value hadmits hat
    -- What holds below one step holds with the step in front.
    have hdown (step' : JsonStep) {shape child : Json} (hkey : step'.key = step.key)
        (hstep : ∀ {path' value'}, shape.At path' value' → template.At (step' :: path') value')
        (hshape : Admits shape child) (hchild : child.At path value) :
        (∃ path' shape, path'.map JsonStep.key = (step :: path).map JsonStep.key ∧
          template.At path' shape ∧ Admits shape value) ∨
        ∃ path', path'.map JsonStep.key <+: (step :: path).map JsonStep.key ∧
          template.At path' .null := by
      rcases ih hshape hchild with ⟨path', shape', hpath, hat', hadmits'⟩ | ⟨path', hpath, hat'⟩
      · left
        refine ⟨step' :: path', shape', ?_, hstep hat', hadmits'⟩
        rw [List.map_cons, List.map_cons, hkey, hpath]
      · right
        refine ⟨step' :: path', ?_, hstep hat'⟩
        rw [List.map_cons, List.map_cons, hkey]
        exact (List.prefix_cons_inj _).mpr hpath
    cases hat with
    | member hmem hchild =>
      cases hadmits with
      | anything => exact Or.inr ⟨[], List.nil_prefix, .here _⟩
      | object h =>
        obtain ⟨shape, hshape, hadmits⟩ := admitsMember_iff.mp (h _ hmem)
        exact hdown _ rfl (.member hshape) hadmits hchild
    | element hget hchild =>
      cases hadmits with
      | anything => exact Or.inr ⟨[], List.nil_prefix, .here _⟩
      | emptyArray => cases hget
      | array hne h =>
        obtain ⟨shape, hshape, hadmits⟩ := admitsItem_iff.mp (h _ (List.mem_of_getElem? hget))
        obtain ⟨index', hindex'⟩ := List.mem_iff_getElem?.mp hshape
        exact hdown (.element index') rfl (.element hindex') hadmits hchild

/-! ### Dropping keys -/

mutual

/-- The second value is the first without some members of its objects, at any depth. -/
inductive Prunes : Json → Json → Prop
  | same (value : Json) : Prunes value value
  | array {elements elements' : List Json} (h : PrunesElements elements elements') :
      Prunes (.array elements) (.array elements')
  | object {members members' : List (String × Json)} (h : PrunesMembers members members') :
      Prunes (.object members) (.object members')

/-- Every element is pruned. -/
inductive PrunesElements : List Json → List Json → Prop
  | nil : PrunesElements [] []
  | cons {element element' : Json} {elements elements' : List Json} (h : Prunes element element')
      (hrest : PrunesElements elements elements') :
      PrunesElements (element :: elements) (element' :: elements')

/-- Every member is pruned or dropped. -/
inductive PrunesMembers : List (String × Json) → List (String × Json) → Prop
  | nil : PrunesMembers [] []
  | drop (m : String × Json) {members members' : List (String × Json)}
      (hrest : PrunesMembers members members') : PrunesMembers (m :: members) members'
  | keep (key : String) {value value' : Json} {members members' : List (String × Json)}
      (h : Prunes value value') (hrest : PrunesMembers members members') :
      PrunesMembers ((key, value) :: members) ((key, value') :: members')

end

/-- The elements left come from elements of the array. -/
theorem PrunesElements.origin {elements' : List Json} : ∀ {elements : List Json},
    PrunesElements elements elements' → ∀ e' ∈ elements', ∃ e ∈ elements, Prunes e e' := by
  induction elements' with
  | nil =>
    intro elements _ e' he'
    cases he'
  | cons element' elements' ih =>
    intro elements h e' he'
    cases h with
    | cons helement hrest =>
      rcases List.mem_cons.mp he' with heq | hmem
      · rw [heq]
        exact ⟨_, List.mem_cons_self, helement⟩
      · obtain ⟨e, he, hprunes⟩ := ih hrest e' hmem
        exact ⟨e, List.mem_cons_of_mem _ he, hprunes⟩

/-- The members left come from members of the object. -/
theorem PrunesMembers.origin {members : List (String × Json)} :
    ∀ {members' : List (String × Json)}, PrunesMembers members members' →
      ∀ m' ∈ members', ∃ m ∈ members, m.1 = m'.1 ∧ Prunes m.2 m'.2 := by
  induction members with
  | nil =>
    intro members' h m' hm'
    cases h
    cases hm'
  | cons member members ih =>
    intro members' h m' hm'
    cases h with
    | drop _ hrest =>
      obtain ⟨m, hm, hprunes⟩ := ih hrest m' hm'
      exact ⟨m, List.mem_cons_of_mem _ hm, hprunes⟩
    | keep key hvalue hrest =>
      rcases List.mem_cons.mp hm' with heq | hmem
      · rw [heq]
        exact ⟨_, List.mem_cons_self, rfl, hvalue⟩
      · obtain ⟨m, hm, hprunes⟩ := ih hrest m' hmem
        exact ⟨m, List.mem_cons_of_mem _ hm, hprunes⟩

theorem PrunesMembers.keys {members : List (String × Json)} :
    ∀ {members' : List (String × Json)}, PrunesMembers members members' →
      (members'.map Prod.fst).Sublist (members.map Prod.fst) := by
  induction members with
  | nil =>
    intro members' h
    cases h
    exact List.Sublist.refl []
  | cons member members ih =>
    intro members' h
    cases h with
    | drop _ hrest => exact (ih hrest).cons _
    | keep key _ hrest => exact (ih hrest).cons_cons key

theorem Prunes.distinct (value : Json) : ∀ {value' : Json}, Prunes value value' →
    value.Distinct → value'.Distinct := by
  induction value using Json.induct with
  | null | bool b | number text | string s =>
    intro value' h hdistinct
    cases h
    exact hdistinct
  | array elements ih =>
    intro value' h hdistinct
    cases h with
    | same => exact hdistinct
    | array helements =>
      refine .array fun e' he' ↦ ?_
      obtain ⟨e, he, hprunes⟩ := helements.origin e' he'
      exact ih e he hprunes (hdistinct.ofElements e he)
  | object members ih =>
    intro value' h hdistinct
    cases h with
    | same => exact hdistinct
    | object hmembers =>
      refine .object (hdistinct.keys.sublist hmembers.keys) fun m' hm' ↦ ?_
      obtain ⟨m, hm, _, hprunes⟩ := hmembers.origin m' hm'
      exact ih m hm hprunes (hdistinct.ofMembers m hm)

/-- A template that admits a value admits it without some of its members. -/
theorem Admits.prunes (input : Json) : ∀ {template input' : Json}, Admits template input →
    Prunes input input' → Admits template input' := by
  induction input using Json.induct with
  | null | bool b | number text | string s =>
    intro template input' hadmits h
    cases h
    exact hadmits
  | array elements ih =>
    intro template input' hadmits h
    cases h with
    | same => exact hadmits
    | array helements =>
      cases hadmits with
      | anything => exact .anything _
      | emptyArray =>
        cases helements
        exact .emptyArray
      | array hne hitems =>
        refine .array hne fun e' he' ↦ ?_
        obtain ⟨e, he, hprunes⟩ := helements.origin e' he'
        obtain ⟨shape, hshape, hadmits⟩ := admitsItem_iff.mp (hitems e he)
        exact .intro hshape (ih e he hadmits hprunes)
  | object members ih =>
    intro template input' hadmits h
    cases h with
    | same => exact hadmits
    | object hmembers =>
      cases hadmits with
      | anything => exact .anything _
      | object hinput =>
        refine .object fun m' hm' ↦ ?_
        obtain ⟨m, hm, hkey, hprunes⟩ := hmembers.origin m' hm'
        obtain ⟨shape, hshape, hadmits⟩ := admitsMember_iff.mp (hinput m hm)
        rw [hkey] at hshape
        exact .intro hshape (ih m hm hadmits hprunes)

/-- The check accepts the values of the language of the template, which have no key that the
template does not offer outside of its nulls, and stay accepted when keys are dropped. -/
theorem isStructureEqual_iff_admits (template input : JsonValue) :
    (isStructureEqual template.1 input.1 = true ↔ Admits template.1 input.1) ∧
    (isStructureEqual template.1 input.1 = true → ∀ path value, input.1.At path value →
      (∃ path' shape, path'.map JsonStep.key = path.map JsonStep.key ∧
        template.1.At path' shape) ∨
      ∃ path', path'.map JsonStep.key <+: path.map JsonStep.key ∧ template.1.At path' .null) ∧
    (isStructureEqual template.1 input.1 = true → ∀ input', Prunes input.1 input' →
      isStructureEqual template.1 input' = true) := by
  have hiff := isStructureEqual_iff_of_distinct template.1 template.2
  refine ⟨hiff input.1 input.2, fun haccepted path value hat ↦ ?_,
    fun haccepted input' hprunes ↦ ?_⟩
  · rcases ((hiff input.1 input.2).mp haccepted).offers hat with
      ⟨path', shape, hpath, hshape, _⟩ | hnull
    · exact Or.inl ⟨path', shape, hpath, hshape⟩
    · exact Or.inr hnull
  · rw [hiff input' (hprunes.distinct input.1 input.2)]
    exact ((hiff input.1 input.2).mp haccepted).prunes input.1 hprunes

/-- A variant of the template's array without its optional key. -/
example : isStructureEqual
    (.array [.object [("a", .string ""), ("b", .null)], .number "0"])
    (.array [.number "7", .object [("a", .string "x")]]) = true := by decide

end SatoshiBridge
