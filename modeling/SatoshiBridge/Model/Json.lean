import Mathlib.Data.List.Basic

/-!
# JSON values

The parsed messages the contract looks into: whether a message has the shape of a template, and
the rewriting of every `utxo_id` member to the key of the deposit.
-/

set_option autoImplicit false
set_option relaxedAutoImplicit false

namespace SatoshiBridge

/-- A JSON value. The members of an object have distinct keys. -/
inductive Json
  | null
  | bool (b : Bool)
  | number (text : String)
  | string (s : String)
  | array (elements : List Json)
  | object (members : List (String × Json))

mutual

/-- `is_structure_equal`. -/
def isStructureEqual : Json → Json → Bool
  | .object template, .object input =>
    membersMatch template input && input.all fun e ↦ (template.lookup e.1).isSome
  | .array template, .array input =>
    if template.isEmpty then input.isEmpty
    else input.all fun item ↦ someElementMatches template item
  | .string _, .string _ => true
  | .number _, .number _ => true
  | .bool _, .bool _ => true
  | .null, _ => true
  | _, _ => false

/-- The members of the template that the input has match. -/
def membersMatch : List (String × Json) → List (String × Json) → Bool
  | [], _ => true
  | (key, value) :: rest, input =>
    (match input.lookup key with
      | some inputValue => isStructureEqual value inputValue
      | none => true) && membersMatch rest input

/-- Some element of the template array matches the item. -/
def someElementMatches : List Json → Json → Bool
  | [], _ => false
  | element :: rest, item => isStructureEqual element item || someElementMatches rest item

end

mutual

/-- `inject`: every `utxo_id` member is replaced, the values of other members are rewritten. -/
def injectUtxoId (utxoId : String) : Json → Json
  | .object members => .object (injectMembers utxoId members)
  | .array elements => .array (injectElements utxoId elements)
  | value => value

/-- The members of an object, rewritten in place. -/
def injectMembers (utxoId : String) : List (String × Json) → List (String × Json)
  | [] => []
  | (key, value) :: rest =>
    (key, if key = "utxo_id" then .string utxoId else injectUtxoId utxoId value)
      :: injectMembers utxoId rest

/-- The elements of an array, rewritten in place. -/
def injectElements (utxoId : String) : List Json → List Json
  | [] => []
  | element :: rest => injectUtxoId utxoId element :: injectElements utxoId rest

end

end SatoshiBridge
