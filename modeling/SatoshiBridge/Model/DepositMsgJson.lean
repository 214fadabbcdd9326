import SatoshiBridge.Model.Config
import SatoshiBridge.Model.Deposit
import SatoshiBridge.Model.JsonText

/-!
# Deposit messages as JSON

What the derived serializers of a deposit message write and read. A struct is written as an object
of its fields in their order, without the options that are absent. It is read from an object in any
order, with other members ignored, or from an array of all its fields.
-/

set_option autoImplicit false
set_option relaxedAutoImplicit false

namespace SatoshiBridge

/-! ### Structs -/

namespace Serde

variable {α : Type}

/-- The members of the fields that are not skipped. -/
def present (fields : List (String × Option Json)) : List (String × Json) :=
  fields.filterMap fun field ↦ field.2.map fun value ↦ (field.1, value)

/-- The members a struct is read from. A field that is there twice is an error. -/
def structMembers (names : List String) : Json → Option (List (String × Json))
  | .object members => do
    require (∀ name ∈ names, (members.map Prod.fst).count name ≤ 1)
    some members
  | .array elements => do
    require (elements.length = names.length)
    some (names.zip elements)
  | _ => none

/-- A field that has to be there. -/
def requiredField (read : Json → Option α) (name : String) (members : List (String × Json)) :
    Option α := do
  let value ← members.lookup name
  read value

/-- An option: absent and `null` are `None`. -/
def optionalField (read : Json → Option α) (name : String) (members : List (String × Json)) :
    Option (Option α) :=
  match members.lookup name with
  | none | some .null => some none
  | some value => (read value).map some

def readText : Json → Option String
  | .string s => some s
  | _ => none

def readVec (read : Json → Option α) : Json → Option (List α)
  | .array elements => elements.mapM read
  | _ => none

/-! ### The types of the fields -/

/-- A value of a type, if it is one. -/
def checked (p : α → Prop) [DecidablePred p] (a : α) : Option { a // p a } :=
  if h : p a then some ⟨a, h⟩ else none

def readAccountId (value : Json) : Option { id : AccountId // isAccountId id = true } := do
  let s ← readText value
  checked _ s

/-- `U128` and `Gas` are written as strings of decimal digits. -/
def writeNumber (n : ℕ) : Json := .string (toString n)

def readU128 (value : Json) : Option { n // n < 2 ^ 128 } := do
  let s ← readText value
  let n ← parseU128 s
  checked _ n

/-- Reads a `Gas` from what is written for one. -/
def readGas (value : Json) : Option { n // n < 2 ^ 64 } := do
  let n ← readU128 value
  checked _ n.val

end Serde

open Serde

/-! ### Messages -/

namespace PostAction

def fields (action : PostAction) : List (String × Option Json) :=
  [("receiver_id", some (.string action.receiverId)),
    ("amount", some (writeNumber action.amount)),
    ("memo", action.memo.map .string),
    ("msg", some (.string action.msg)),
    ("gas", action.gas.map writeNumber)]

def toJson (action : PostAction) : Json := .object (present action.fields)

def ofJson (value : Json) : Option PostAction := do
  let members ← structMembers ["receiver_id", "amount", "memo", "msg", "gas"] value
  let receiverId ← requiredField readAccountId "receiver_id" members
  let amount ← requiredField readU128 "amount" members
  let memo ← optionalField readText "memo" members
  let msg ← requiredField readText "msg" members
  let gas ← optionalField readGas "gas" members
  some {
    receiverId := receiverId.val
    amount := amount.val
    memo := memo
    msg := msg
    gas := gas.map Subtype.val
    receiverId_valid := receiverId.property
    amount_lt := amount.property
    gas_lt := fun _ hg ↦ by
      obtain ⟨g, _, rfl⟩ := Option.map_eq_some_iff.mp hg
      exact g.property }

end PostAction

namespace SafeDepositMsg

def fields (safeDeposit : SafeDepositMsg) : List (String × Option Json) :=
  [("msg", some (.string safeDeposit.msg))]

def toJson (safeDeposit : SafeDepositMsg) : Json := .object (present safeDeposit.fields)

def ofJson (value : Json) : Option SafeDepositMsg := do
  let members ← structMembers ["msg"] value
  let msg ← requiredField readText "msg" members
  some ⟨msg⟩

end SafeDepositMsg

namespace DepositMsg

def fields (msg : DepositMsg) : List (String × Option Json) :=
  [("recipient_id", some (.string msg.recipientId)),
    ("post_actions", msg.postActions.map fun actions ↦ .array (actions.map PostAction.toJson)),
    ("extra_msg", msg.extraMsg.map .string),
    ("safe_deposit", msg.safeDeposit.map SafeDepositMsg.toJson),
    ("refund_address", msg.refundAddress.map .string)]

def toJson (msg : DepositMsg) : Json := .object (present msg.fields)

def ofJson (value : Json) : Option DepositMsg := do
  let members ← structMembers
    ["recipient_id", "post_actions", "extra_msg", "safe_deposit", "refund_address"] value
  let recipientId ← requiredField readAccountId "recipient_id" members
  let postActions ← optionalField (readVec PostAction.ofJson) "post_actions" members
  let extraMsg ← optionalField readText "extra_msg" members
  let safeDeposit ← optionalField SafeDepositMsg.ofJson "safe_deposit" members
  let refundAddress ← optionalField readText "refund_address" members
  some ⟨recipientId.val, postActions, extraMsg, safeDeposit, refundAddress, recipientId.property⟩

/-- `serde_json::to_string`. -/
def toText (msg : DepositMsg) : String := msg.toJson.text

/-- `serde_json::from_str`. -/
def ofText (text : String) : Option DepositMsg := do
  let value ← Json.ofText text
  ofJson value

end DepositMsg

/-- The JSON codec of the host is the derived one. Of the reader only the texts of messages are
asked: serde takes more texts than are ever written. -/
structure Host.UsesSerde (host : Host) : Prop where
  toJson : ∀ msg, host.depositMsgToJson msg = msg.toText
  fromJson : ∀ msg : DepositMsg, host.depositMsgFromJson msg.toText = DepositMsg.ofText msg.toText

/-! ### Structs are read back -/

namespace Serde

variable {α : Type} {fields : List (String × Option Json)}

theorem keys_present_sublist (fields : List (String × Option Json)) :
    ((present fields).map Prod.fst).Sublist (fields.map Prod.fst) := by
  induction fields with
  | nil => exact List.Sublist.refl []
  | cons field fields ih =>
    obtain ⟨name, value⟩ := field
    cases value with
    | none => exact ih.cons name
    | some value => exact ih.cons_cons name

/-- The members of the fields are those of the struct. -/
theorem structMembers_present (h : (fields.map Prod.fst).Nodup) (names : List String) :
    structMembers names (.object (present fields)) = some (present fields) := by
  have hnodup := h.sublist (keys_present_sublist fields)
  have honce : ∀ name ∈ names, ((present fields).map Prod.fst).count name ≤ 1 := fun name _ ↦
    List.nodup_iff_count_le_one.mp hnodup name
  simp only [structMembers, require_of honce, Option.bind_eq_bind, Option.bind_some]

/-- A member is the value of its field. -/
theorem lookup_present (h : (fields.map Prod.fst).Nodup) (name : String) :
    (present fields).lookup name = (fields.lookup name).join := by
  induction fields with
  | nil => rfl
  | cons field fields ih =>
    obtain ⟨key, value⟩ := field
    rw [List.map_cons, List.nodup_cons] at h
    cases value with
    | none =>
      change (present fields).lookup name = _
      rw [ih h.2, List.lookup_cons]
      by_cases heq : name = key
      · have hnone : fields.lookup name = none := by
          rw [List.lookup_eq_none_iff]
          intro field hfield
          rw [bne_iff_ne, heq]
          intro hkey
          have hmem : field.1 ∈ fields.map Prod.fst := List.mem_map_of_mem hfield
          rw [← hkey] at hmem
          exact h.1 hmem
        rw [hnone, heq, BEq.rfl]
        rfl
      · rw [beq_false_of_ne heq]
    | some value =>
      change ((key, value) :: present fields).lookup name = _
      rw [List.lookup_cons, List.lookup_cons]
      by_cases heq : name = key
      · rw [heq, BEq.rfl]
        rfl
      · rw [beq_false_of_ne heq]
        exact ih h.2

/-- A required field is read from what was written for it. -/
theorem requiredField_present (h : (fields.map Prod.fst).Nodup) {read : Json → Option α}
    {name : String} {value : Json} (hfield : fields.lookup name = some (some value)) :
    requiredField read name (present fields) = read value := by
  rw [requiredField, lookup_present h, hfield]
  rfl

/-- An option is read from what was written for it, unless that is `null`. -/
theorem optionalField_present (h : (fields.map Prod.fst).Nodup) {read : Json → Option α}
    {name : String} {write : α → Json} {a : Option α} (hnull : ∀ a, write a ≠ .null)
    (hfield : fields.lookup name = some (a.map write)) :
    optionalField read name (present fields) =
      a.elim (some none) fun a ↦ (read (write a)).map some := by
  rw [optionalField, lookup_present h, hfield]
  cases a with
  | none => rfl
  | some a =>
    change (match some (write a) with
      | none | some .null => some none
      | some value => (read value).map some) = _
    split
    · rename_i heq
      cases heq
    · rename_i heq
      exact absurd (Option.some.inj heq) (hnull a)
    · rename_i heq
      rw [← Option.some.inj heq]
      rfl

end Serde

end SatoshiBridge
