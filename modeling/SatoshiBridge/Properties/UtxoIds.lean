import SatoshiBridge.Model.Deposit
import SatoshiBridge.Model.JsonText
import SatoshiBridge.Model.JsonTrees
import SatoshiBridge.Model.SampleHost

/-!
# The id of the deposit in the message of a safe deposit

The receiver of a safe deposit is told the outpoint in the `utxo_id` members of the message. They
have the value the bridge put there wherever they stand, everything else is as the depositor wrote
it, and what the depositor wrote for them leaves no trace.
-/

set_option autoImplicit false
set_option relaxedAutoImplicit false

namespace SatoshiBridge

/-! ### Values -/

theorem injectElements_eq (utxoId : String) (elements : List Json) :
    injectElements utxoId elements = elements.map (injectUtxoId utxoId) := by
  induction elements with
  | nil => rfl
  | cons element rest ih => rw [injectElements, ih, List.map_cons]

/-- One member, rewritten. -/
def injectMember (utxoId : String) (m : String × Json) : String × Json :=
  (m.1, if m.1 = "utxo_id" then .string utxoId else injectUtxoId utxoId m.2)

theorem injectMembers_eq (utxoId : String) (members : List (String × Json)) :
    injectMembers utxoId members = members.map (injectMember utxoId) := by
  induction members with
  | nil => rfl
  | cons member rest ih => rw [injectMembers, ih, List.map_cons, injectMember]

theorem injectMembers_keys (utxoId : String) (members : List (String × Json)) :
    (injectMembers utxoId members).map Prod.fst = members.map Prod.fst := by
  rw [injectMembers_eq, List.map_map]
  rfl

/-- A path that passes no `utxo_id` member. -/
def UtxoIdFree (path : List JsonStep) : Prop := JsonStep.member "utxo_id" ∉ path

/-- Away from the `utxo_id` members the places are the same, each with its own value rewritten. -/
theorem injectUtxoId_at (utxoId : String) {path : List JsonStep} : UtxoIdFree path →
    ∀ {value new : Json}, (injectUtxoId utxoId value).At path new ↔
      ∃ old, value.At path old ∧ new = injectUtxoId utxoId old := by
  induction path with
  | nil =>
    intro _ value new
    rw [Json.at_nil]
    constructor
    · intro h
      exact ⟨value, .here value, h⟩
    · rintro ⟨old, hold, h⟩
      rw [Json.at_nil] at hold
      rw [h, hold]
  | cons step path ih =>
    intro hfree value new
    have hrest : UtxoIdFree path := fun hmem ↦ hfree (List.mem_cons_of_mem _ hmem)
    constructor
    · intro h
      cases value with
      | null | bool | number | string =>
        rw [injectUtxoId] at h
        · cases h
        all_goals nofun
      | array elements =>
        rw [injectUtxoId, injectElements_eq] at h
        cases h with
        | element hget h =>
          rw [List.getElem?_map, Option.map_eq_some_iff] at hget
          obtain ⟨element, hget, rfl⟩ := hget
          obtain ⟨old, hold, hnew⟩ := (ih hrest).mp h
          exact ⟨old, .element hget hold, hnew⟩
      | object members =>
        rw [injectUtxoId, injectMembers_eq] at h
        cases h with
        | member hmem h =>
          obtain ⟨m, hm, heq⟩ := List.mem_map.mp hmem
          rw [injectMember, Prod.mk.injEq] at heq
          obtain ⟨rfl, rfl⟩ := heq
          have hkey : m.1 ≠ "utxo_id" := by
            intro hkey
            apply hfree
            rw [hkey]
            exact List.mem_cons_self
          rw [if_neg hkey] at h
          obtain ⟨old, hold, hnew⟩ := (ih hrest).mp h
          exact ⟨old, .member hm hold, hnew⟩
    · rintro ⟨old, hold, hnew⟩
      cases hold with
      | element hget hold =>
        rw [injectUtxoId, injectElements_eq]
        refine .element ?_ ((ih hrest).mpr ⟨old, hold, hnew⟩)
        rw [List.getElem?_map, hget, Option.map_some]
      | member hmem hold =>
        rename_i members key child
        have hkey : key ≠ "utxo_id" := by
          intro hkey
          apply hfree
          rw [hkey]
          exact List.mem_cons_self
        rw [injectUtxoId, injectMembers_eq]
        refine .member ?_ ((ih hrest).mpr ⟨old, hold, hnew⟩)
        refine List.mem_map.mpr ⟨(key, child), hmem, ?_⟩
        rw [injectMember, if_neg hkey]

/-- Two values of one kind: the same scalar, arrays of one length, or objects with the same keys. -/
def SameNode : Json → Json → Prop
  | .array elements, .array elements' => elements.length = elements'.length
  | .object members, .object members' => members.map Prod.fst = members'.map Prod.fst
  | value, value' => value = value'

theorem sameNode_injectUtxoId (utxoId : String) (value : Json) :
    SameNode value (injectUtxoId utxoId value) := by
  cases value with
  | null | bool | number | string => rfl
  | array elements =>
    rw [injectUtxoId, injectElements_eq, SameNode, List.length_map]
  | object members =>
    rw [injectUtxoId, SameNode, injectMembers_keys]

/-- Every `utxo_id` member that no other contains has the id, and every other place is as it was. -/
structure Rewrites (utxoId : String) (value value' : Json) : Prop where
  replaced : ∀ path new, UtxoIdFree path → value'.At (path ++ [.member "utxo_id"]) new →
    new = .string utxoId
  kept : ∀ path old, UtxoIdFree path → value.At path old →
    ∃ new, value'.At path new ∧ SameNode old new
  added : ∀ path new, UtxoIdFree path → value'.At path new →
    ∃ old, value.At path old ∧ SameNode old new

theorem rewrites_injectUtxoId (utxoId : String) (value : Json) :
    Rewrites utxoId value (injectUtxoId utxoId value) where
  replaced := by
    intro path new hfree h
    rw [Json.at_append] at h
    obtain ⟨middle, hmiddle, h⟩ := h
    obtain ⟨old, hold, rfl⟩ := (injectUtxoId_at utxoId hfree).mp hmiddle
    cases old with
    | null | bool | number | string | array =>
      rw [injectUtxoId] at h
      · cases h
      all_goals nofun
    | object members =>
      rw [injectUtxoId, injectMembers_eq, Json.at_member] at h
      obtain ⟨child, hmem, hchild⟩ := h
      obtain ⟨m, hm, heq⟩ := List.mem_map.mp hmem
      rw [injectMember, Prod.mk.injEq] at heq
      rw [if_pos heq.1] at heq
      rw [Json.at_nil.mp hchild, heq.2]
  kept := fun path old hfree hold ↦
    ⟨_, (injectUtxoId_at utxoId hfree).mpr ⟨old, hold, rfl⟩, sameNode_injectUtxoId utxoId old⟩
  added := by
    intro path new hfree hnew
    obtain ⟨old, hold, rfl⟩ := (injectUtxoId_at utxoId hfree).mp hnew
    exact ⟨old, hold, sameNode_injectUtxoId utxoId old⟩

/-! ### What the depositor wrote for the id -/

mutual

/-- Two values that differ below members with the given key only. -/
inductive AgreeBut (key : String) : Json → Json → Prop
  | same (value : Json) : AgreeBut key value value
  | array {elements elements' : List Json} (h : AgreeButElements key elements elements') :
      AgreeBut key (.array elements) (.array elements')
  | object {members members' : List (String × Json)} (h : AgreeButMembers key members members') :
      AgreeBut key (.object members) (.object members')

/-- The elements agree one by one. -/
inductive AgreeButElements (key : String) : List Json → List Json → Prop
  | nil : AgreeButElements key [] []
  | cons {element element' : Json} {elements elements' : List Json}
      (h : AgreeBut key element element') (hrest : AgreeButElements key elements elements') :
      AgreeButElements key (element :: elements) (element' :: elements')

/-- The members agree one by one, those with the key in nothing but the key. -/
inductive AgreeButMembers (key : String) : List (String × Json) → List (String × Json) → Prop
  | nil : AgreeButMembers key [] []
  | ignored (value value' : Json) {members members' : List (String × Json)}
      (hrest : AgreeButMembers key members members') :
      AgreeButMembers key ((key, value) :: members) ((key, value') :: members')
  | member (name : String) {value value' : Json} {members members' : List (String × Json)}
      (h : AgreeBut key value value') (hrest : AgreeButMembers key members members') :
      AgreeButMembers key ((name, value) :: members) ((name, value') :: members')

end

theorem AgreeButElements.inject {utxoId : String} {elements : List Json}
    (ih : ∀ e ∈ elements, ∀ e', AgreeBut "utxo_id" e e' →
      injectUtxoId utxoId e' = injectUtxoId utxoId e) :
    ∀ {elements' : List Json}, AgreeButElements "utxo_id" elements elements' →
      injectElements utxoId elements' = injectElements utxoId elements := by
  induction elements with
  | nil =>
    intro elements' h
    cases h
    rfl
  | cons element elements ihRest =>
    intro elements' h
    cases h with
    | cons helement hrest =>
      rw [injectElements, injectElements, ih _ List.mem_cons_self _ helement,
        ihRest (fun e he ↦ ih e (List.mem_cons_of_mem _ he)) hrest]

theorem AgreeButMembers.inject {utxoId : String} {members : List (String × Json)}
    (ih : ∀ m ∈ members, ∀ value', AgreeBut "utxo_id" m.2 value' →
      injectUtxoId utxoId value' = injectUtxoId utxoId m.2) :
    ∀ {members' : List (String × Json)}, AgreeButMembers "utxo_id" members members' →
      injectMembers utxoId members' = injectMembers utxoId members := by
  induction members with
  | nil =>
    intro members' h
    cases h
    rfl
  | cons member members ihRest =>
    intro members' h
    have hrest {members' : List (String × Json)} (h : AgreeButMembers "utxo_id" members members') :
        injectMembers utxoId members' = injectMembers utxoId members :=
      ihRest (fun m hm ↦ ih m (List.mem_cons_of_mem _ hm)) h
    cases h with
    | ignored value value' hmembers =>
      rw [injectMembers, injectMembers, if_pos rfl, if_pos rfl, hrest hmembers]
    | member name hvalue hmembers =>
      rw [injectMembers, injectMembers, ih _ List.mem_cons_self _ hvalue, hrest hmembers]

/-- What stands in the `utxo_id` members is not looked at. -/
theorem AgreeBut.inject (utxoId : String) (value : Json) :
    ∀ value', AgreeBut "utxo_id" value value' →
      injectUtxoId utxoId value' = injectUtxoId utxoId value := by
  induction value using Json.induct with
  | null | bool b | number text | string s =>
    intro value' h
    cases h
    rfl
  | array elements ih =>
    intro value' h
    cases h with
    | same => rfl
    | array helements => rw [injectUtxoId, injectUtxoId, helements.inject ih]
  | object members ih =>
    intro value' h
    cases h with
    | same => rfl
    | object hmembers => rw [injectUtxoId, injectUtxoId, hmembers.inject ih]

theorem agreeButElements_inject {utxoId : String} {elements : List Json}
    (ih : ∀ e ∈ elements, AgreeBut "utxo_id" e (injectUtxoId utxoId e)) :
    AgreeButElements "utxo_id" elements (injectElements utxoId elements) := by
  induction elements with
  | nil => exact .nil
  | cons element elements ihRest =>
    exact .cons (ih _ List.mem_cons_self) (ihRest fun e he ↦ ih e (List.mem_cons_of_mem _ he))

theorem agreeButMembers_inject {utxoId : String} {members : List (String × Json)}
    (ih : ∀ m ∈ members, AgreeBut "utxo_id" m.2 (injectUtxoId utxoId m.2)) :
    AgreeButMembers "utxo_id" members (injectMembers utxoId members) := by
  induction members with
  | nil => exact .nil
  | cons member members ihRest =>
    obtain ⟨key, value⟩ := member
    have hrest := ihRest fun m hm ↦ ih m (List.mem_cons_of_mem _ hm)
    rw [injectMembers]
    by_cases hkey : key = "utxo_id"
    · rw [if_pos hkey, hkey]
      exact .ignored value _ hrest
    · rw [if_neg hkey]
      exact .member key (ih _ List.mem_cons_self) hrest

/-- The rewritten value differs from the value in the `utxo_id` members only. -/
theorem agreeBut_inject (utxoId : String) (value : Json) :
    AgreeBut "utxo_id" value (injectUtxoId utxoId value) := by
  induction value using Json.induct with
  | null | bool b | number text | string s =>
    rw [injectUtxoId]
    · exact .same _
    all_goals nofun
  | array elements ih =>
    rw [injectUtxoId]
    exact .array (agreeButElements_inject ih)
  | object members ih =>
    rw [injectUtxoId]
    exact .object (agreeButMembers_inject ih)

/-- The last id counts. -/
theorem injectUtxoId_injectUtxoId (utxoId utxoId' : String) (value : Json) :
    injectUtxoId utxoId (injectUtxoId utxoId' value) = injectUtxoId utxoId value :=
  AgreeBut.inject utxoId value _ (agreeBut_inject utxoId' value)

/-! ### Messages -/

/-- The values the parser returns: numbers in a spelling that is kept, distinct keys, and containers
nested at most so deep. -/
def Json.Canonical (spelled : String → Prop) : ℕ → Json → Prop
  | _, .null | _, .bool _ | _, .string _ => True
  | _, .number text => spelled text
  | 0, .array _ | 0, .object _ => False
  | depth + 1, .array elements => ∀ e ∈ elements, Canonical spelled depth e
  | depth + 1, .object members =>
    (members.map Prod.fst).Nodup ∧ ∀ m ∈ members, Canonical spelled depth m.2

theorem Json.canonical_string {spelled : String → Prop} (s : String) (depth : ℕ) :
    (Json.string s).Canonical spelled depth := by
  cases depth <;> trivial

theorem Json.Canonical.inject {spelled : String → Prop} (utxoId : String) (value : Json) :
    ∀ {depth : ℕ}, value.Canonical spelled depth →
      (injectUtxoId utxoId value).Canonical spelled depth := by
  induction value using Json.induct with
  | null | bool b | number text | string s =>
    intro depth h
    rw [injectUtxoId]
    · exact h
    all_goals nofun
  | array elements ih =>
    intro depth h
    cases depth with
    | zero => cases h
    | succ depth =>
      rw [injectUtxoId, injectElements_eq]
      intro e' he'
      obtain ⟨e, he, rfl⟩ := List.mem_map.mp he'
      exact ih e he (h e he)
  | object members ih =>
    intro depth h
    cases depth with
    | zero => cases h
    | succ depth =>
      obtain ⟨hkeys, hvalues⟩ := h
      rw [injectUtxoId]
      refine ⟨?_, fun m' hm' ↦ ?_⟩
      · rw [injectMembers_keys]
        exact hkeys
      · rw [injectMembers_eq] at hm'
        obtain ⟨m, hm, rfl⟩ := List.mem_map.mp hm'
        unfold injectMember
        split
        · exact Json.canonical_string _ depth
        · exact ih m hm (hvalues m hm)

/-- The parser and the printer are inverse on the values that the parser returns. -/
structure Host.ReadsBack (host : Host) (spelled : String → Prop) : Prop where
  canonical : ∀ text value, host.parseJson text = some value →
    value.Canonical spelled Json.maxDepth
  inverse : ∀ value, value.Canonical spelled Json.maxDepth →
    host.parseJson (host.printJson value) = some value

variable {host : Host} {spelled : String → Prop}

/-- What the message with the id has of the message of the depositor. -/
structure Injects (host : Host) (msg utxoId : String) : Prop where
  tree : ∀ value, host.parseJson msg = some value →
    ∃ value', host.parseJson (injectIdInMsg host msg utxoId) = some value' ∧
      Rewrites utxoId value value'
  noJson : host.parseJson msg = none → injectIdInMsg host msg utxoId = msg
  idempotent : injectIdInMsg host (injectIdInMsg host msg utxoId) utxoId =
    injectIdInMsg host msg utxoId
  independent : ∀ value msg' value', host.parseJson msg = some value →
    host.parseJson msg' = some value' → AgreeBut "utxo_id" value value' →
      injectIdInMsg host msg' utxoId = injectIdInMsg host msg utxoId

/-- The id stands wherever the message has a `utxo_id` member, and nothing else is touched. -/
theorem Host.ReadsBack.injects (h : host.ReadsBack spelled) (msg utxoId : String) :
    Injects host msg utxoId := by
  have hsome {msg : String} {value : Json} (hparse : host.parseJson msg = some value) :
      injectIdInMsg host msg utxoId = host.printJson (injectUtxoId utxoId value) := by
    rw [injectIdInMsg, hparse]
  have hback {value : Json} (hparse : host.parseJson msg = some value) :
      host.parseJson (host.printJson (injectUtxoId utxoId value)) =
        some (injectUtxoId utxoId value) :=
    h.inverse _ ((h.canonical msg value hparse).inject utxoId value)
  have hnone (hparse : host.parseJson msg = none) : injectIdInMsg host msg utxoId = msg := by
    rw [injectIdInMsg, hparse]
  refine ⟨fun value hparse ↦ ?_, hnone, ?_, fun value msg' value' hparse hparse' hagree ↦ ?_⟩
  · refine ⟨injectUtxoId utxoId value, ?_, rewrites_injectUtxoId utxoId value⟩
    rw [hsome hparse]
    exact hback hparse
  · cases hparse : host.parseJson msg with
    | none => rw [hnone hparse, hnone hparse]
    | some value =>
      rw [hsome hparse, hsome (hback hparse), injectUtxoId_injectUtxoId]
  · rw [hsome hparse, hsome hparse', AgreeBut.inject utxoId value value' hagree]

/-! ### Samples -/

/-- Without numbers a canonical value fits. -/
theorem Json.Canonical.fits (value : Json) : ∀ {depth : ℕ},
    value.Canonical (fun _ ↦ False) depth → Json.Fits depth value := by
  induction value using Json.induct with
  | null | bool b | number text | string s =>
    intro depth h
    cases depth <;> exact h
  | array elements ih =>
    intro depth h
    cases depth with
    | zero => cases h
    | succ depth => exact fun e he ↦ ih e he (h e he)
  | object members ih =>
    intro depth h
    cases depth with
    | zero => cases h
    | succ depth => exact fun m hm ↦ ih m hm (h.2 m hm)

namespace Sample

open Classical in
/-- A host with a JSON reader for values without numbers. -/
noncomputable def jsonHost : Host :=
  { Sample.host false with
    parseJson := fun text ↦ (Json.ofText text).filter fun value ↦
      value.Canonical (fun _ ↦ False) Json.maxDepth
    printJson := Json.text }

theorem jsonHost_readsBack : jsonHost.ReadsBack fun _ ↦ False where
  canonical := by
    intro text value hparse
    classical
    have hfilter := (Option.filter_eq_some_iff.mp hparse).2
    exact of_decide_eq_true hfilter
  inverse := by
    intro value h
    change (Json.ofText (Json.text value)).filter _ = _
    rw [Json.ofText_text (Json.Canonical.fits value h)]
    classical
    exact Option.filter_eq_some_iff.mpr ⟨rfl, decide_eq_true h⟩

/-- A message that names ids of its own, at two places. -/
def transferMsg : Json :=
  .object [("UtxoFinTransfer", .object [("utxo_id", .string "mine"), ("recipient", .string "r")]),
    ("more", .array [.null, .object [("utxo_id", .bool true)]])]

theorem transferMsg_canonical : transferMsg.Canonical (fun _ ↦ False) Json.maxDepth := by
  simp [transferMsg, Json.maxDepth, Json.Canonical]

end Sample

theorem injects_transferMsg :
    Sample.jsonHost.parseJson Sample.transferMsg.text = some Sample.transferMsg ∧
      Injects Sample.jsonHost Sample.transferMsg.text "ours" :=
  ⟨Sample.jsonHost_readsBack.inverse _ Sample.transferMsg_canonical,
    Sample.jsonHost_readsBack.injects Sample.transferMsg.text "ours"⟩

end SatoshiBridge
