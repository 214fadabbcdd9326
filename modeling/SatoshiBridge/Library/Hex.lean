import Mathlib.Data.List.Basic

/-!
# Hexadecimal text

Bytes are written as two lower-case digits each, and read back from digits of either case.
-/

set_option autoImplicit false
set_option relaxedAutoImplicit false

namespace Hex

/-- The value of a hexadecimal digit of either case. -/
def digitValue (c : Char) : Option ℕ :=
  if 48 ≤ c.toNat ∧ c.toNat ≤ 57 then some (c.toNat - 48)
  else if 97 ≤ c.toNat ∧ c.toNat ≤ 102 then some (c.toNat - 87)
  else if 65 ≤ c.toNat ∧ c.toNat ≤ 70 then some (c.toNat - 55)
  else none

theorem digitValue_digitChar : ∀ n < 16, digitValue (Nat.digitChar n) = some n := by decide

/-- The two digits of a byte. -/
def byteDigits (b : UInt8) : List Char :=
  [Nat.digitChar (b.toNat / 16), Nat.digitChar (b.toNat % 16)]

/-- Pairs of digits, as bytes; an odd number of digits is no text of bytes. -/
def decodeDigits : List Char → Option (List UInt8)
  | [] => some []
  | [_] => none
  | high :: low :: rest => do
    let high ← digitValue high
    let low ← digitValue low
    let bytes ← decodeDigits rest
    some (UInt8.ofNat (16 * high + low) :: bytes)

/-- Lower-case text of bytes. -/
def encode (bytes : List UInt8) : String := String.ofList (bytes.flatMap byteDigits)

def decode (text : String) : Option (List UInt8) := decodeDigits text.toList

theorem decodeDigits_byteDigits (b : UInt8) (digits : List Char) :
    decodeDigits (byteDigits b ++ digits) = (decodeDigits digits).map (b :: ·) := by
  have hlt : b.toNat < 256 := b.toNat_lt
  have hhigh := digitValue_digitChar (b.toNat / 16) (by omega)
  have hlow := digitValue_digitChar (b.toNat % 16) (by omega)
  have hbyte : UInt8.ofNat (16 * (b.toNat / 16) + b.toNat % 16) = b := by
    rw [Nat.div_add_mod]
    exact UInt8.ofNat_toNat
  simp only [byteDigits, List.cons_append, List.nil_append, decodeDigits, hhigh, hlow, hbyte,
    Option.bind_eq_bind, Option.bind_some]
  cases decodeDigits digits <;> rfl

/-- Text of bytes is read back. -/
theorem decode_encode (bytes : List UInt8) : decode (encode bytes) = some bytes := by
  rw [decode, encode, String.toList_ofList]
  induction bytes with
  | nil => rfl
  | cons b bytes ih => rw [List.flatMap_cons, decodeDigits_byteDigits, ih, Option.map_some]

end Hex
