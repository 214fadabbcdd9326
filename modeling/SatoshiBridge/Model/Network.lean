import SatoshiBridge.Model.Laws

/-!
# Addresses

`Address` of the source: an address is parsed from a text, has a script, is recognised from a script
and is printed. Base58, bech32 and the Zcash formats are those of the libraries. What is printed for
the script of a parsed address is parsed to an address with that script, on every chain; so a host
whose addresses these are reads its addresses.
-/

set_option autoImplicit false
set_option relaxedAutoImplicit false

namespace SatoshiBridge

/-! ### Hashes and witness programs -/

/-- `PubkeyHash` and `ScriptHash`. -/
structure Hash160 where
  bytes : List UInt8
  length_bytes : bytes.length = 20
deriving DecidableEq

/-- `from_slice`. -/
def Hash160.fromSlice (bytes : List UInt8) : Option Hash160 :=
  if h : bytes.length = 20 then some ⟨bytes, h⟩ else none

@[simp] theorem Hash160.fromSlice_bytes (hash : Hash160) :
    Hash160.fromSlice hash.bytes = some hash := dif_pos hash.length_bytes

theorem Hash160.fromSlice_eq_some {bytes : List UInt8} {hash : Hash160} :
    Hash160.fromSlice bytes = some hash ↔ bytes = hash.bytes := by
  constructor
  · intro h
    unfold Hash160.fromSlice at h
    split at h
    · rw [Option.some.injEq] at h
      rw [← h]
    · cases h
  · rintro rfl
    exact hash.fromSlice_bytes

structure WitnessProgram where
  version : ℕ
  program : List UInt8
  version_le : version ≤ 16
  length_program : 2 ≤ program.length ∧ program.length ≤ 40
  length_v0 : version = 0 → program.length = 20 ∨ program.length = 32
deriving DecidableEq

namespace WitnessProgram

/-- `WitnessVersion::try_from` and `WitnessProgram::new`. -/
def new (version : ℕ) (program : List UInt8) : Option WitnessProgram :=
  if h : version ≤ 16 ∧ (2 ≤ program.length ∧ program.length ≤ 40) ∧
      (version = 0 → program.length = 20 ∨ program.length = 32) then
    some ⟨version, program, h.1, h.2.1, h.2.2⟩
  else none

@[simp] theorem new_self (w : WitnessProgram) : new w.version w.program = some w :=
  dif_pos ⟨w.version_le, w.length_program, w.length_v0⟩

/-- `WitnessProgram::p2wpkh`. -/
def p2wpkh (hash : Hash160) : WitnessProgram where
  version := 0
  program := hash.bytes
  version_le := Nat.zero_le 16
  length_program := by rw [hash.length_bytes]; decide
  length_v0 := fun _ ↦ Or.inl hash.length_bytes

/-- The opcode that pushes a version. -/
def opcode (version : ℕ) : UInt8 := if version = 0 then 0 else UInt8.ofNat (0x50 + version)

/-- `WitnessVersion::try_from` an opcode. -/
def versionOfOpcode (b : UInt8) : Option ℕ :=
  if b = 0 then some 0
  else if 0x51 ≤ b.toNat ∧ b.toNat ≤ 0x60 then some (b.toNat - 0x50)
  else none

theorem opcode_toNat {version : ℕ} (h : version ≤ 16) :
    (opcode version).toNat = if version = 0 then 0 else 0x50 + version := by
  unfold opcode
  split
  · rfl
  · rw [UInt8.toNat_ofNat']
    exact Nat.mod_eq_of_lt (by omega)

theorem versionOfOpcode_opcode {version : ℕ} (h : version ≤ 16) :
    versionOfOpcode (opcode version) = some version := by
  have hnat := opcode_toNat h
  unfold versionOfOpcode
  by_cases hzero : version = 0
  · subst hzero
    rfl
  · rw [if_neg hzero] at hnat
    have hne : opcode version ≠ 0 := by
      intro heq
      rw [heq] at hnat
      change 0 = 0x50 + version at hnat
      omega
    rw [if_neg hne, hnat, if_pos (by omega), Nat.add_sub_cancel_left]

end WitnessProgram

/-! ### Scripts -/

/-- `new_p2pkh`. -/
def newP2pkh (hash : Hash160) : ScriptBuf := [0x76, 0xa9, 0x14] ++ hash.bytes ++ [0x88, 0xac]

/-- `new_p2sh`. -/
def newP2sh (hash : Hash160) : ScriptBuf := [0xa9, 0x14] ++ hash.bytes ++ [0x87]

/-- `new_witness_program`. -/
def newWitnessProgram (w : WitnessProgram) : ScriptBuf :=
  [WitnessProgram.opcode w.version, UInt8.ofNat w.program.length] ++ w.program

/-- `is_witness_program`. -/
def isWitnessProgram : ScriptBuf → Bool
  | opcode :: push :: program =>
    (WitnessProgram.versionOfOpcode opcode).isSome ∧ 2 ≤ push.toNat ∧ push.toNat ≤ 40 ∧
      program.length = push.toNat
  | _ => false

/-- `is_p2wpkh`. -/
def isP2wpkh : ScriptBuf → Bool
  | 0x00 :: 0x14 :: program => program.length = 20
  | _ => false

open PsbtWrapper (isP2pkh isP2sh)

theorem isP2pkh_newP2pkh (hash : Hash160) : isP2pkh (newP2pkh hash) = true := by
  have hlength := hash.length_bytes
  simp only [newP2pkh, List.cons_append, List.nil_append, isP2pkh, List.length_append, hlength,
    List.length_cons, List.length_nil, List.drop_append_of_le_length (le_of_eq hlength.symm),
    decide_eq_true_eq]
  rw [List.drop_of_length_le (le_of_eq hlength)]
  exact ⟨trivial, rfl⟩

theorem isP2pkh_newP2sh (hash : Hash160) : isP2pkh (newP2sh hash) = false := rfl

theorem isP2sh_newP2sh (hash : Hash160) : isP2sh (newP2sh hash) = true := by
  have hlength := hash.length_bytes
  simp only [newP2sh, List.cons_append, List.nil_append, isP2sh, List.length_append, hlength,
    List.length_cons, List.length_nil, List.drop_append_of_le_length (le_of_eq hlength.symm),
    decide_eq_true_eq]
  rw [List.drop_of_length_le (le_of_eq hlength)]
  exact ⟨trivial, rfl⟩

theorem isP2wpkh_newP2pkh (hash : Hash160) : isP2wpkh (newP2pkh hash) = false := rfl

theorem isP2wpkh_newWitnessProgram (hash : Hash160) :
    isP2wpkh (newWitnessProgram (.p2wpkh hash)) = true := by
  have hlength := hash.length_bytes
  simp only [newWitnessProgram, WitnessProgram.p2wpkh, WitnessProgram.opcode, hlength, if_true,
    List.cons_append, List.nil_append]
  exact decide_eq_true hlength

/-- A witness program starts with no opcode of the other kinds. -/
theorem opcode_ne (w : WitnessProgram) (b : UInt8) (hb : 0x60 < b.toNat) :
    WitnessProgram.opcode w.version ≠ b := by
  intro heq
  have hnat := WitnessProgram.opcode_toNat w.version_le
  have hle := w.version_le
  rw [heq] at hnat
  split at hnat <;> omega

theorem isP2pkh_newWitnessProgram (w : WitnessProgram) :
    isP2pkh (newWitnessProgram w) = false := by
  have hne := opcode_ne w 0x76 (by decide)
  unfold newWitnessProgram isP2pkh
  split
  · rename_i heq
    exact absurd (List.cons.inj heq).1 hne
  · rfl

theorem isP2sh_newWitnessProgram (w : WitnessProgram) : isP2sh (newWitnessProgram w) = false := by
  have hne := opcode_ne w 0xa9 (by decide)
  unfold newWitnessProgram isP2sh
  split
  · rename_i heq
    exact absurd (List.cons.inj heq).1 hne
  · rfl

theorem isWitnessProgram_newWitnessProgram (w : WitnessProgram) :
    isWitnessProgram (newWitnessProgram w) = true := by
  have hlength := w.length_program
  have hpush : (UInt8.ofNat w.program.length).toNat = w.program.length := by
    rw [UInt8.toNat_ofNat']
    exact Nat.mod_eq_of_lt (by omega)
  simp only [newWitnessProgram, List.cons_append, List.nil_append, isWitnessProgram, hpush,
    WitnessProgram.versionOfOpcode_opcode w.version_le, Option.isSome_some, true_and, and_true,
    decide_eq_true_eq]
  exact hlength

/-! ### The chains -/

/-- `get_segwit_hrp`. -/
def getSegwitHrp : Chain → Option String
  | .bitcoinMainnet => some "bc"
  | .bitcoinTestnet => some "tb"
  | .litecoinMainnet => some "ltc"
  | .litecoinTestnet => some "tltc"
  | .zcashMainnet | .zcashTestnet | .dogecoinMainnet | .dogecoinTestnet => none

/-- `get_pubkey_address_prefix`. -/
def getPubkeyAddressPrefix : Chain → List UInt8
  | .bitcoinMainnet => [0x00]
  | .bitcoinTestnet => [0x6F]
  | .litecoinMainnet => [0x30]
  | .litecoinTestnet => [0x6F]
  | .zcashMainnet => [0x1C, 0xB8]
  | .zcashTestnet => [0x1D, 0x25]
  | .dogecoinMainnet => [0x1E]
  | .dogecoinTestnet => [0x71]

/-- `get_script_address_prefix`. -/
def getScriptAddressPrefix : Chain → List UInt8
  | .bitcoinMainnet => [0x05]
  | .bitcoinTestnet => [0xC4]
  | .litecoinMainnet => [0x32]
  | .litecoinTestnet => [0x3A]
  | .zcashMainnet => [0x1C, 0xBD]
  | .zcashTestnet => [0x1C, 0xBA]
  | .dogecoinMainnet => [0x16]
  | .dogecoinTestnet => [0xC4]

def Chain.isZcash : Chain → Bool
  | .zcashMainnet | .zcashTestnet => true
  | _ => false

/-! ### Addresses -/

/-- `Receiver` of a unified address. -/
inductive UnifiedReceiver
  | orchard (bytes : OrchardRawAddress)
  | p2pkh (data : Hash160)
  | p2sh (data : Hash160)
  | other
deriving DecidableEq

/-- What the Zcash library reads an address as, when it is one of the expected network. -/
inductive ZcashAddress
  | p2pkh (data : Hash160)
  | p2sh (data : Hash160)
  | tex (data : Hash160)
  | unified (items : List UnifiedReceiver)
  | other
deriving DecidableEq

/-- `Address`. -/
inductive NetworkAddress
  | p2pkh (hash : Hash160) (chain : Chain)
  | p2sh (hash : Hash160) (chain : Chain)
  | segwit (program : WitnessProgram) (chain : Chain)
  | unified (items : List UnifiedReceiver) (chain : Chain)
deriving DecidableEq

/-- The codecs of the libraries: base58 with a checksum, bech32 of witness programs, and the
addresses of Zcash. -/
structure AddressCodecs where
  base58Encode : List UInt8 → String
  base58Decode : String → Option (List UInt8)
  segwitEncode : String → ℕ → List UInt8 → String
  segwitDecode : String → Option (String × ℕ × List UInt8)
  unifiedEncode : Chain → List UnifiedReceiver → String
  zcashDecode : Chain → String → Option ZcashAddress

namespace NetworkAddress

/-- The transparent script of the first receiver that has one. -/
def transparentScript : List UnifiedReceiver → Option ScriptBuf
  | [] => none
  | .p2pkh data :: _ => some (newP2pkh data)
  | .p2sh data :: _ => some (newP2sh data)
  | _ :: items => transparentScript items

/-- `script_pubkey`. -/
def scriptPubkey : NetworkAddress → Option ScriptBuf
  | p2pkh hash _ => some (newP2pkh hash)
  | p2sh hash _ => some (newP2sh hash)
  | segwit program _ => some (newWitnessProgram program)
  | unified items _ => transparentScript items

/-- `extract_orchard_receiver`. -/
def extractOrchardReceiver : NetworkAddress → Option OrchardRawAddress
  | unified items _ => items.findSome? fun
    | .orchard bytes => some bytes
    | _ => none
  | _ => none

/-- What payments read of an address. -/
def payable (address : NetworkAddress) : Address :=
  ⟨address.scriptPubkey, address.extractOrchardReceiver⟩

/-- `from_pubkey`, of the hash of the key. -/
def fromPubkey (chain : Chain) (hash : Hash160) : NetworkAddress :=
  if (getSegwitHrp chain).isSome then segwit (.p2wpkh hash) chain else p2pkh hash chain

/-- `from_script`. -/
def fromScript (script : ScriptBuf) (chain : Chain) : Option NetworkAddress :=
  if isP2pkh script then do
    let hash ← Hash160.fromSlice ((script.drop 3).take 20)
    some (p2pkh hash chain)
  else if isP2sh script then do
    let hash ← Hash160.fromSlice ((script.drop 2).take 20)
    some (p2sh hash chain)
  else if isWitnessProgram script then do
    let opcode ← script.head?
    let version ← WitnessProgram.versionOfOpcode opcode
    let program ← WitnessProgram.new version (script.drop 2)
    some (segwit program chain)
  else none

end NetworkAddress

namespace AddressCodecs

variable (codecs : AddressCodecs)

/-- The conversions of `TryFromAddress`. -/
def ofZcash (chain : Chain) : ZcashAddress → Option NetworkAddress
  | .p2pkh data | .tex data => some (.p2pkh data chain)
  | .p2sh data => some (.p2sh data chain)
  | .unified items => some (.unified items chain)
  | .other => none

/-- The base58 addresses of `parse`. -/
def parseBase58 (text : String) (chain : Chain) : Option NetworkAddress := do
  let data ← codecs.base58Decode text
  if getPubkeyAddressPrefix chain <+: data then do
    let hash ← Hash160.fromSlice (data.drop (getPubkeyAddressPrefix chain).length)
    some (.p2pkh hash chain)
  else if getScriptAddressPrefix chain <+: data then do
    let hash ← Hash160.fromSlice (data.drop (getScriptAddressPrefix chain).length)
    some (.p2sh hash chain)
  else none

/-- `parse`. -/
def parse (text : String) (chain : Chain) : Option NetworkAddress :=
  if chain.isZcash then do
    let address ← codecs.zcashDecode chain text
    ofZcash chain address
  else
    match getSegwitHrp chain, codecs.segwitDecode text with
    | some hrp, some (decodedHrp, version, data) => do
      require (hrp = decodedHrp)
      let program ← WitnessProgram.new version data
      some (.segwit program chain)
    | _, _ => codecs.parseBase58 text chain

/-- `Display`; a segwit address needs a prefix, a unified address a Zcash network. -/
def display : NetworkAddress → Option String
  | .p2pkh hash chain => some (codecs.base58Encode (getPubkeyAddressPrefix chain ++ hash.bytes))
  | .p2sh hash chain => some (codecs.base58Encode (getScriptAddressPrefix chain ++ hash.bytes))
  | .segwit program chain => do
    let hrp ← getSegwitHrp chain
    some (codecs.segwitEncode hrp program.version program.program)
  | .unified items chain => if chain.isZcash then some (codecs.unifiedEncode chain items) else none

/-- The codecs are inverses, and the transparent addresses of Zcash are base58. -/
structure Lawful : Prop where
  base58_decode_encode : ∀ bytes, codecs.base58Decode (codecs.base58Encode bytes) = some bytes
  base58_encode_decode : ∀ text bytes, codecs.base58Decode text = some bytes →
    codecs.base58Encode bytes = text
  segwit_decode_encode : ∀ chain hrp, getSegwitHrp chain = some hrp → ∀ w : WitnessProgram,
    codecs.segwitDecode (codecs.segwitEncode hrp w.version w.program) =
      some (hrp, w.version, w.program)
  zcash_p2pkh : ∀ chain, chain.isZcash = true → ∀ hash : Hash160,
    codecs.zcashDecode chain (codecs.base58Encode (getPubkeyAddressPrefix chain ++ hash.bytes)) =
      some (.p2pkh hash)
  zcash_p2sh : ∀ chain, chain.isZcash = true → ∀ hash : Hash160,
    codecs.zcashDecode chain (codecs.base58Encode (getScriptAddressPrefix chain ++ hash.bytes)) =
      some (.p2sh hash)

/-- The addresses of a host are these, and its own are derived from hashes of keys. -/
structure Describes (host : Host) : Prop where
  parseAddress : ∀ chain text,
    host.parseAddress chain text = (codecs.parse text chain).map NetworkAddress.payable
  addressOfScript : ∀ chain script,
    host.addressOfScript chain script = (NetworkAddress.fromScript script chain).bind codecs.display
  derived : ∀ chain key path, ∃ hash : Hash160,
    (NetworkAddress.fromPubkey chain hash).scriptPubkey = some (host.chainScript chain key path) ∧
    codecs.display (NetworkAddress.fromPubkey chain hash) = some (host.chainAddress chain key path)

end AddressCodecs

/-- The library computes the sighash of an input of the transaction whose coin has a P2WPKH script,
and of no other. -/
def Host.SighashesP2wpkh (host : Host) : Prop :=
  ∀ tx index coin, (host.p2wpkhSighash tx index coin).isSome ↔
    index < tx.input.length ∧ isP2wpkh coin.scriptPubkey = true

/-! ### Recognising scripts -/

namespace NetworkAddress

theorem fromScript_newP2pkh (hash : Hash160) (chain : Chain) :
    fromScript (newP2pkh hash) chain = some (p2pkh hash chain) := by
  have hbytes : ((newP2pkh hash).drop 3).take 20 = hash.bytes := by
    change (hash.bytes ++ [0x88, 0xac]).take 20 = hash.bytes
    rw [List.take_append_of_le_length (le_of_eq hash.length_bytes.symm),
      List.take_of_length_le (le_of_eq hash.length_bytes)]
  rw [fromScript, if_pos (isP2pkh_newP2pkh hash), hbytes, Hash160.fromSlice_bytes]
  rfl

theorem fromScript_newP2sh (hash : Hash160) (chain : Chain) :
    fromScript (newP2sh hash) chain = some (p2sh hash chain) := by
  have hbytes : ((newP2sh hash).drop 2).take 20 = hash.bytes := by
    change (hash.bytes ++ [0x87]).take 20 = hash.bytes
    rw [List.take_append_of_le_length (le_of_eq hash.length_bytes.symm),
      List.take_of_length_le (le_of_eq hash.length_bytes)]
  rw [fromScript, isP2pkh_newP2sh, if_neg Bool.false_ne_true, if_pos (isP2sh_newP2sh hash), hbytes,
    Hash160.fromSlice_bytes]
  rfl

theorem fromScript_newWitnessProgram (w : WitnessProgram) (chain : Chain) :
    fromScript (newWitnessProgram w) chain = some (segwit w chain) := by
  rw [fromScript, isP2pkh_newWitnessProgram, if_neg Bool.false_ne_true, isP2sh_newWitnessProgram,
    if_neg Bool.false_ne_true, if_pos (isWitnessProgram_newWitnessProgram w)]
  change (do
    let version ← WitnessProgram.versionOfOpcode (WitnessProgram.opcode w.version)
    let program ← WitnessProgram.new version w.program
    some (segwit program chain)) = some (segwit w chain)
  rw [WitnessProgram.versionOfOpcode_opcode w.version_le, Option.bind_eq_bind, Option.bind_some,
    WitnessProgram.new_self]
  rfl

/-- The script of a list of receivers is of one of the two old kinds. -/
theorem transparentScript_cases {items : List UnifiedReceiver} {script : ScriptBuf}
    (h : transparentScript items = some script) :
    (∃ hash, script = newP2pkh hash) ∨ ∃ hash, script = newP2sh hash := by
  induction items with
  | nil => cases h
  | cons item items ih =>
    cases item with
    | p2pkh data => exact Or.inl ⟨data, (Option.some.inj h).symm⟩
    | p2sh data => exact Or.inr ⟨data, (Option.some.inj h).symm⟩
    | orchard | other => exact ih h

end NetworkAddress

/-! ### Printing what was parsed -/

namespace AddressCodecs

variable {codecs : AddressCodecs} {chain : Chain} {text : String} {address : NetworkAddress}

/-- On the chains without the Zcash formats, an old address is printed as the text it was parsed
from. -/
theorem parseBase58_spec (laws : codecs.Lawful) (h : codecs.parseBase58 text chain = some address) :
    codecs.display address = some text ∧
      ((∃ hash, address = .p2pkh hash chain) ∨ ∃ hash, address = .p2sh hash chain) := by
  simp only [parseBase58, Option.bind_eq_bind, Option.bind_eq_some_iff] at h
  obtain ⟨data, hdata, h⟩ := h
  have hencode := laws.base58_encode_decode text data hdata
  have hdrop {start : List UInt8} {hash : Hash160} (hstart : start <+: data)
      (hhash : Hash160.fromSlice (data.drop start.length) = some hash) :
      start ++ hash.bytes = data := by
    obtain ⟨rest, rfl⟩ := hstart
    rw [List.drop_left, Hash160.fromSlice_eq_some] at hhash
    rw [hhash]
  split at h
  · rename_i hstart
    obtain ⟨hash, hhash, haddress⟩ := Option.bind_eq_some_iff.mp h
    rw [Option.some.injEq] at haddress
    rw [← haddress, display, hdrop hstart hhash, hencode]
    exact ⟨rfl, Or.inl ⟨hash, rfl⟩⟩
  · split at h
    · rename_i hstart
      obtain ⟨hash, hhash, haddress⟩ := Option.bind_eq_some_iff.mp h
      rw [Option.some.injEq] at haddress
      rw [← haddress, display, hdrop hstart hhash, hencode]
      exact ⟨rfl, Or.inr ⟨hash, rfl⟩⟩
    · cases h

theorem parse_segwit (laws : codecs.Lawful) (hchain : chain.isZcash = false) {hrp : String}
    (hhrp : getSegwitHrp chain = some hrp) (w : WitnessProgram) :
    codecs.parse (codecs.segwitEncode hrp w.version w.program) chain = some (.segwit w chain) := by
  simp only [parse, hchain, Bool.false_eq_true, if_false, hhrp,
    laws.segwit_decode_encode chain hrp hhrp w, WitnessProgram.new_self, Option.bind_eq_bind,
    Option.bind_some, require, if_true]

theorem parse_zcash_p2pkh (laws : codecs.Lawful) (hchain : chain.isZcash = true) (hash : Hash160) :
    codecs.parse (codecs.base58Encode (getPubkeyAddressPrefix chain ++ hash.bytes)) chain =
      some (.p2pkh hash chain) := by
  rw [parse, if_pos hchain, laws.zcash_p2pkh chain hchain]
  rfl

theorem parse_zcash_p2sh (laws : codecs.Lawful) (hchain : chain.isZcash = true) (hash : Hash160) :
    codecs.parse (codecs.base58Encode (getScriptAddressPrefix chain ++ hash.bytes)) chain =
      some (.p2sh hash chain) := by
  rw [parse, if_pos hchain, laws.zcash_p2sh chain hchain]
  rfl

/-- The address printed for the script of a parsed address is parsed to an address with that
script. -/
theorem parse_display_fromScript (laws : codecs.Lawful)
    (h : codecs.parse text chain = some address) {script : ScriptBuf}
    (hscript : address.scriptPubkey = some script) :
    ∃ shown text', NetworkAddress.fromScript script chain = some shown ∧
      codecs.display shown = some text' ∧ codecs.parse text' chain = some shown ∧
      shown.scriptPubkey = some script := by
  by_cases hchain : chain.isZcash = true
  · have hold : (∃ hash, script = newP2pkh hash) ∨ ∃ hash, script = newP2sh hash := by
      rw [parse, if_pos hchain] at h
      obtain ⟨zcash, _, haddress⟩ := Option.bind_eq_some_iff.mp h
      cases zcash with
      | p2pkh data | tex data =>
        rw [← Option.some.inj haddress] at hscript
        exact Or.inl ⟨data, (Option.some.inj hscript).symm⟩
      | p2sh data =>
        rw [← Option.some.inj haddress] at hscript
        exact Or.inr ⟨data, (Option.some.inj hscript).symm⟩
      | unified items =>
        rw [← Option.some.inj haddress] at hscript
        exact NetworkAddress.transparentScript_cases hscript
      | other => cases haddress
    rcases hold with ⟨hash, rfl⟩ | ⟨hash, rfl⟩
    · exact ⟨_, _, NetworkAddress.fromScript_newP2pkh hash chain, rfl,
        parse_zcash_p2pkh laws hchain hash, rfl⟩
    · exact ⟨_, _, NetworkAddress.fromScript_newP2sh hash chain, rfl,
        parse_zcash_p2sh laws hchain hash, rfl⟩
  · rw [Bool.not_eq_true] at hchain
    have hparse := h
    simp only [parse, hchain, Bool.false_eq_true, if_false] at h
    split at h
    · rename_i hrp decodedHrp version data hhrp hdecode
      simp only [Option.bind_eq_bind, Option.bind_eq_some_iff, Option.some.injEq] at h
      obtain ⟨_, _, w, _, rfl⟩ := h
      rw [NetworkAddress.scriptPubkey, Option.some.injEq] at hscript
      subst hscript
      refine ⟨_, _, NetworkAddress.fromScript_newWitnessProgram w chain, ?_,
        parse_segwit laws hchain hhrp w, rfl⟩
      rw [display, hhrp]
      rfl
    · obtain ⟨hdisplay, ⟨hash, rfl⟩ | ⟨hash, rfl⟩⟩ := parseBase58_spec laws h
      · rw [NetworkAddress.scriptPubkey, Option.some.injEq] at hscript
        subst hscript
        exact ⟨_, text, NetworkAddress.fromScript_newP2pkh hash chain, hdisplay, hparse, rfl⟩
      · rw [NetworkAddress.scriptPubkey, Option.some.injEq] at hscript
        subst hscript
        exact ⟨_, text, NetworkAddress.fromScript_newP2sh hash chain, hdisplay, hparse, rfl⟩

/-- The addresses derived from keys are parsed to themselves. -/
theorem parse_display_fromPubkey (laws : codecs.Lawful) {hash : Hash160}
    (h : codecs.display (NetworkAddress.fromPubkey chain hash) = some text) :
    codecs.parse text chain = some (NetworkAddress.fromPubkey chain hash) := by
  unfold NetworkAddress.fromPubkey at h ⊢
  cases hhrp : getSegwitHrp chain with
  | some hrp =>
    rw [hhrp, Option.isSome_some, if_pos rfl, display, hhrp, Option.bind_eq_bind,
      Option.bind_some, Option.some.injEq] at h
    have hchain : chain.isZcash = false := by
      cases chain <;> first | rfl | cases hhrp
    rw [Option.isSome_some, if_pos rfl, ← h]
    exact parse_segwit laws hchain hhrp _
  | none =>
    rw [hhrp, Option.isSome_none, if_neg Bool.false_ne_true, display, Option.some.injEq] at h
    rw [Option.isSome_none, if_neg Bool.false_ne_true, ← h]
    by_cases hchain : chain.isZcash = true
    · exact parse_zcash_p2pkh laws hchain hash
    · rw [Bool.not_eq_true] at hchain
      simp only [parse, hchain, Bool.false_eq_true, if_false, hhrp, parseBase58,
        laws.base58_decode_encode, Option.bind_eq_bind, Option.bind_some, List.prefix_append,
        if_true, List.drop_left, Hash160.fromSlice_bytes]

/-- A host whose addresses are those of the network module reads its addresses. -/
theorem Describes.readsAddresses {host : Host} (laws : codecs.Lawful)
    (hdescribes : codecs.Describes host) : host.ReadsAddresses where
  parse_chainAddress := by
    intro chain key path
    obtain ⟨hash, hscript, hdisplay⟩ := hdescribes.derived chain key path
    refine ⟨(NetworkAddress.fromPubkey chain hash).extractOrchardReceiver, ?_⟩
    rw [hdescribes.parseAddress, parse_display_fromPubkey laws hdisplay, Option.map_some,
      NetworkAddress.payable, hscript]
  parse_addressOfScript := by
    intro chain target address script text htarget hscript htext
    rw [hdescribes.parseAddress, Option.map_eq_some_iff] at htarget
    obtain ⟨parsed, hparsed, rfl⟩ := htarget
    obtain ⟨shown, text', hshown, hdisplay, hparse, hsame⟩ :=
      parse_display_fromScript laws hparsed hscript
    rw [hdescribes.addressOfScript, hshown, Option.bind_some, hdisplay, Option.some.injEq] at htext
    refine ⟨shown.extractOrchardReceiver, ?_⟩
    rw [hdescribes.parseAddress, ← htext, hparse, Option.map_some, NetworkAddress.payable, hsame]

end AddressCodecs

end SatoshiBridge
