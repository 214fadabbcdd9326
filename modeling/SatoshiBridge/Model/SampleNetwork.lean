import SatoshiBridge.Model.Network
import SatoshiBridge.Model.SampleRun

/-!
# A host with addresses

The sample host with the addresses of the network module. The two addresses its runs print are
written as the libraries write them; other texts spell bytes after a mark.
-/

set_option autoImplicit false
set_option relaxedAutoImplicit false

namespace SatoshiBridge.Sample

open Numbering

/-! ### Spelled bytes -/

def charOfByte (b : UInt8) : Char := Char.ofNat b.toNat

def byteOfChar (c : Char) : UInt8 := UInt8.ofNat c.toNat

theorem charOfNat_toNat {n : ℕ} (h : n < 256) : (Char.ofNat n).toNat = n := by
  have hvalid : n.isValidChar := Or.inl (by omega)
  rw [Char.ofNat, dif_pos hvalid]
  rfl

@[simp] theorem byteOfChar_charOfByte (b : UInt8) : byteOfChar (charOfByte b) = b := by
  rw [byteOfChar, charOfByte, charOfNat_toNat b.toNat_lt]
  exact UInt8.ofNat_toNat

theorem charOfByte_byteOfChar {c : Char} (h : c.toNat < 256) : charOfByte (byteOfChar c) = c := by
  have hnat : (byteOfChar c).toNat = c.toNat := by
    rw [byteOfChar, UInt8.toNat_ofNat']
    exact Nat.mod_eq_of_lt h
  rw [charOfByte, hnat, Char.ofNat_toNat]

/-- Bytes after a mark. -/
def spell (bytes : List UInt8) : String := String.ofList ('#' :: bytes.map charOfByte)

/-- The bytes of a marked text. -/
def unspell (text : String) : Option (List UInt8) :=
  match text.toList with
  | '#' :: cs => if cs.all fun c ↦ c.toNat < 256 then some (cs.map byteOfChar) else none
  | _ => none

theorem unspell_spell (bytes : List UInt8) : unspell (spell bytes) = some bytes := by
  have hall : (bytes.map charOfByte).all (fun c ↦ c.toNat < 256) = true := by
    rw [List.all_eq_true]
    intro c hc
    obtain ⟨b, _, rfl⟩ := List.mem_map.mp hc
    rw [decide_eq_true_eq, charOfByte, charOfNat_toNat b.toNat_lt]
    exact b.toNat_lt
  rw [unspell, spell, String.toList_ofList]
  change (if (bytes.map charOfByte).all (fun c ↦ c.toNat < 256) = true then
    some ((bytes.map charOfByte).map byteOfChar) else none) = some bytes
  rw [if_pos hall, List.map_map, Option.some.injEq]
  exact (List.map_congr_left fun b _ ↦ byteOfChar_charOfByte b).trans (List.map_id bytes)

theorem spell_unspell {text : String} {bytes : List UInt8} (h : unspell text = some bytes) :
    spell bytes = text := by
  unfold unspell at h
  split at h
  · rename_i cs htext
    split at h
    · rename_i hall
      rw [Option.some.injEq] at h
      subst h
      rw [List.all_eq_true] at hall
      rw [spell, List.map_map]
      have hmap : cs.map (charOfByte ∘ byteOfChar) = cs := by
        refine (List.map_congr_left fun c hc ↦ ?_).trans (List.map_id cs)
        exact charOfByte_byteOfChar (of_decide_eq_true (hall c hc))
      rw [hmap, ← htext, String.ofList_toList]
    · cases h
  · cases h

/-! ### The codecs -/

/-- The key hash of the recipient of the withdrawal. -/
def recipientHash : Hash160 := ⟨List.replicate 20 9, rfl⟩

def recipientText : String := "1pmuWZgV4nJVHaioT79ABVXxCGYLpCfri"

/-- The key hash of a path. -/
noncomputable def pathHash (path : Path) : Hash160 :=
  ⟨UInt8.ofNat (number paths path) :: List.replicate 19 7, rfl⟩

def changeProgram : List UInt8 := 0 :: List.replicate 19 7

def changeText : String := "bc1qqqrswpc8qurswpc8qurswpc8qurswpc8c9vl79"

def base58Encode (bytes : List UInt8) : String :=
  if bytes = 0 :: recipientHash.bytes then recipientText else spell bytes

def base58Decode (text : String) : Option (List UInt8) :=
  if text = recipientText then some (0 :: recipientHash.bytes)
  else do
    let bytes ← unspell text
    if bytes = 0 :: recipientHash.bytes then none else some bytes

def segwitEncode (hrp : String) (version : ℕ) (program : List UInt8) : String :=
  if hrp = "bc" ∧ version = 0 ∧ program = changeProgram then changeText
  else String.ofList ('#' :: Char.ofNat version :: Char.ofNat program.length ::
    (program.map charOfByte ++ hrp.toList))

def segwitDecode (text : String) : Option (String × ℕ × List UInt8) :=
  if text = changeText then some ("bc", 0, changeProgram)
  else
    match text.toList with
    | '#' :: version :: length :: cs =>
      some (String.ofList (cs.drop length.toNat), version.toNat,
        (cs.take length.toNat).map byteOfChar)
    | _ => none

/-- A Zcash address is base58, in this network. -/
def zcashDecode (chain : Chain) (text : String) : Option ZcashAddress := do
  let data ← base58Decode text
  if getPubkeyAddressPrefix chain <+: data then do
    let hash ← Hash160.fromSlice (data.drop (getPubkeyAddressPrefix chain).length)
    some (.p2pkh hash)
  else do
    let hash ← Hash160.fromSlice (data.drop (getScriptAddressPrefix chain).length)
    some (.p2sh hash)

def codecs : AddressCodecs where
  base58Encode := base58Encode
  base58Decode := base58Decode
  segwitEncode := segwitEncode
  segwitDecode := segwitDecode
  unifiedEncode := fun _ _ ↦ ""
  zcashDecode := zcashDecode

theorem base58_decode_encode (bytes : List UInt8) :
    base58Decode (base58Encode bytes) = some bytes := by
  unfold base58Encode
  by_cases hbytes : bytes = 0 :: recipientHash.bytes
  · rw [if_pos hbytes, base58Decode, if_pos rfl, hbytes]
  · have hne : spell bytes ≠ recipientText := by
      intro heq
      have hlist := congrArg String.toList heq
      rw [spell, String.toList_ofList] at hlist
      exact absurd (List.cons.inj hlist).1 (by decide)
    rw [if_neg hbytes, base58Decode, if_neg hne, unspell_spell, Option.bind_eq_bind,
      Option.bind_some, if_neg hbytes]

theorem base58_encode_decode (text : String) (bytes : List UInt8)
    (h : base58Decode text = some bytes) : base58Encode bytes = text := by
  unfold base58Decode at h
  by_cases htext : text = recipientText
  · rw [if_pos htext, Option.some.injEq] at h
    rw [base58Encode, if_pos h.symm, htext]
  · rw [if_neg htext] at h
    obtain ⟨bytes', hunspell, h⟩ := Option.bind_eq_some_iff.mp h
    split at h
    · cases h
    · rename_i hbytes
      rw [Option.some.injEq] at h
      subst h
      rw [base58Encode, if_neg hbytes]
      exact spell_unspell hunspell

theorem segwit_decode_encode (hrp : String) (w : WitnessProgram) :
    segwitDecode (segwitEncode hrp w.version w.program) = some (hrp, w.version, w.program) := by
  have hversion := w.version_le
  have hlength := w.length_program
  unfold segwitEncode
  by_cases hchange : hrp = "bc" ∧ w.version = 0 ∧ w.program = changeProgram
  · rw [if_pos hchange, segwitDecode, if_pos rfl, hchange.1, hchange.2.1, hchange.2.2]
  · have hne : String.ofList ('#' :: Char.ofNat w.version :: Char.ofNat w.program.length ::
        (w.program.map charOfByte ++ hrp.toList)) ≠ changeText := by
      intro heq
      have hlist := congrArg String.toList heq
      rw [String.toList_ofList] at hlist
      exact absurd (List.cons.inj hlist).1 (by decide)
    have hmap : (w.program.map charOfByte).map byteOfChar = w.program := by
      rw [List.map_map]
      exact (List.map_congr_left fun b _ ↦ byteOfChar_charOfByte b).trans (List.map_id _)
    have hlen : (w.program.map charOfByte).length = w.program.length := List.length_map _
    have hversion' : (Char.ofNat w.version).toNat = w.version := charOfNat_toNat (by omega)
    have hlength' : (Char.ofNat w.program.length).toNat = (w.program.map charOfByte).length := by
      rw [hlen]
      exact charOfNat_toNat (by omega)
    rw [if_neg hchange, segwitDecode, if_neg hne, String.toList_ofList]
    change some (String.ofList ((w.program.map charOfByte ++ hrp.toList).drop
        (Char.ofNat w.program.length).toNat), (Char.ofNat w.version).toNat,
      ((w.program.map charOfByte ++ hrp.toList).take
        (Char.ofNat w.program.length).toNat).map byteOfChar) = _
    rw [hversion', hlength', List.drop_left,
      List.take_left, hmap, String.ofList_toList]

theorem codecs_lawful : codecs.Lawful where
  base58_decode_encode := base58_decode_encode
  base58_encode_decode := base58_encode_decode
  segwit_decode_encode := fun _ hrp _ w ↦ segwit_decode_encode hrp w
  zcash_p2pkh := by
    intro chain _ hash
    change zcashDecode chain (base58Encode (getPubkeyAddressPrefix chain ++ hash.bytes)) = _
    rw [zcashDecode, base58_decode_encode, Option.bind_eq_bind, Option.bind_some,
      if_pos (List.prefix_append _ _), List.drop_left, Hash160.fromSlice_bytes]
    rfl
  zcash_p2sh := by
    intro chain hchain hash
    have hprefix :
        ¬getPubkeyAddressPrefix chain <+: getScriptAddressPrefix chain ++ hash.bytes := by
      cases chain with
      | zcashMainnet | zcashTestnet =>
        simp [getPubkeyAddressPrefix, getScriptAddressPrefix]
      | _ => cases hchain
    change zcashDecode chain (base58Encode (getScriptAddressPrefix chain ++ hash.bytes)) = _
    rw [zcashDecode, base58_decode_encode, Option.bind_eq_bind, Option.bind_some,
      if_neg hprefix, List.drop_left, Hash160.fromSlice_bytes]
    rfl

/-! ### The host -/

noncomputable def pathAddress (chain : Chain) (path : Path) : NetworkAddress :=
  .fromPubkey chain (pathHash path)

/-- The script of the recipient. -/
def recipientScript : ScriptBuf := newP2pkh recipientHash

/-- The script of a path on the main network of Bitcoin. -/
noncomputable def pathScript (path : Path) : ScriptBuf :=
  newWitnessProgram (.p2wpkh (pathHash path))

/-- Pays Alice. -/
noncomputable def fundingTx : Transaction where
  version := 2
  lockTime := 0
  branchId := none
  expiryHeight := 0
  input := [⟨⟨1001, 0⟩, 0xFFFFFFFD⟩]
  output := [⟨1000, pathScript "h"⟩]
  shielded := none

/-- Alice's withdrawal, with the change first. -/
noncomputable def withdrawalOutputs (received : ℕ) : List TxOut :=
  [⟨100, pathScript bridge⟩, ⟨received, recipientScript⟩]

/-- The funding transaction, the withdrawal and a replacement with more gas. -/
noncomputable def networkTransactions : List Transaction :=
  [fundingTx, spendTx [⟨0, 0⟩] (withdrawalOutputs 890), spendTx [⟨0, 0⟩] (withdrawalOutputs 870)]

noncomputable def networkHost : Host :=
  { host false with
    chainScript := fun chain _ path ↦ ((pathAddress chain path).scriptPubkey).getD []
    chainAddress := fun chain _ path ↦ (codecs.display (pathAddress chain path)).getD ""
    parseAddress := fun chain text ↦ (codecs.parse text chain).map NetworkAddress.payable
    addressOfScript := fun chain script ↦
      (NetworkAddress.fromScript script chain).bind codecs.display
    computeTxid := fun tx ↦ 2 * number networkTransactions tx
    decodeTransaction := fun
      | [b] => networkTransactions[b.toNat]?
      | _ => none }

theorem codecs_describe : codecs.Describes networkHost where
  parseAddress := fun _ _ ↦ rfl
  addressOfScript := fun _ _ ↦ rfl
  derived := by
    intro chain _ path
    refine ⟨pathHash path, ?_, ?_⟩ <;> cases chain <;> rfl

end SatoshiBridge.Sample
