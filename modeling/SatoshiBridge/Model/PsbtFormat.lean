import SatoshiBridge.Library.Hex
import SatoshiBridge.Library.PrefixCodec
import SatoshiBridge.Model.Psbt

/-!
# The bytes of a psbt

A pending transaction stores its psbt as text, which every signature reads, changes and writes
again. The Zcash build has a format of its own over the readers and writers of the libraries, first
for its wrapper field by field, then for the psbts of the bridge; the Bitcoin build uses that of its
library.
-/

set_option autoImplicit false
set_option relaxedAutoImplicit false

namespace SatoshiBridge

open PrefixCodec

/-- A transparent input on the wire. An unsigned input has the empty script. -/
structure WireTxIn where
  prevout : OutPoint
  scriptSig : List UInt8
  sequence : ℕ
deriving DecidableEq

/-- The readers and writers the libraries provide. -/
structure PsbtLibrary where
  txIn : PrefixCodec WireTxIn
  txOut : PrefixCodec TxOut
  writeV5Bundle : OrchardBundle → List UInt8
  readV5Bundle : BranchId → List UInt8 → Option (Option OrchardBundle × List UInt8)
  writeV6Bundle : OrchardBundle → List UInt8
  readV6Bundle : BranchId → List UInt8 → Option (Option OrchardBundle × List UInt8)
  serializePsbt : PsbtWrapper → List UInt8
  deserializePsbt : List UInt8 → Option PsbtWrapper

/-- `ORCHARD_RAW_ADDRESS_SIZE`. -/
def orchardRawAddressSize : ℕ := 43

/-- The version `to_bytes` writes. -/
def psbtFormatVersion : UInt8 := 4

namespace BranchId

def toByte : BranchId → UInt8
  | nu6 => 7
  | nu6_1 => 8
  | nu6_2 => 9
  | nu6_3 => 10
  | nu7 => 11

def ofByte (b : UInt8) : Option BranchId :=
  if b = 7 then some nu6
  else if b = 8 then some nu6_1
  else if b = 9 then some nu6_2
  else if b = 10 then some nu6_3
  else if b = 11 then some nu7
  else none

theorem ofByte_toByte (branchId : BranchId) : ofByte branchId.toByte = some branchId := by
  cases branchId <;> rfl

end BranchId

/-- `read_u8`. -/
def readU8 : List UInt8 → Option (UInt8 × List UInt8)
  | [] => none
  | b :: bytes => some (b, bytes)

/-- `read_string`. -/
def readString (bytes : List UInt8) : Option (String × List UInt8) := do
  let (length, bytes) ← readLe 8 bytes
  let (text, bytes) ← readExact length bytes
  let s ← String.fromUTF8? ⟨text.toArray⟩
  some (s, bytes)

/-- The bytes of a string. -/
def stringBytes (s : String) : List UInt8 := s.toByteArray.data.toList

namespace PsbtWrapper

variable (host : Host) (lib : PsbtLibrary)

def inputToWire (i : PsbtInput) : WireTxIn :=
  ⟨i.previousOutput, i.scriptSig.getD [], sequence host⟩

def inputOfWire (w : WireTxIn) : PsbtInput :=
  ⟨w.prevout, if w.scriptSig = [] then none else some w.scriptSig⟩

def writeOrchard (branchId : BranchId) : Option ParsedOrchardBundle → List UInt8
  | some orchard =>
    (if isIronwood branchId then lib.writeV6Bundle orchard.bundle
      else lib.writeV5Bundle orchard.bundle) ++
    [1] ++ leBytes 8 orchard.output.amount ++ orchard.output.recipientAddr
  | none => [0]

def writeRecipient : Option String → List UInt8
  | some recipientAddress =>
    [1] ++ leBytes 8 (stringBytes recipientAddress).length ++ stringBytes recipientAddress
  | none => [0]

def readOrchard (version : UInt8) (branchId : BranchId) (bytes : List UInt8) :
    Option (Option ParsedOrchardBundle × List UInt8) :=
  if 3 ≤ version then do
    let (bundle, bytes) ←
      if isIronwood branchId then lib.readV6Bundle branchId bytes
      else lib.readV5Bundle branchId bytes
    match bundle with
    | none => some (none, bytes)
    | some bundle => do
      let (isSome, bytes) ← readU8 bytes
      if isSome = 1 then do
        let (amount, bytes) ← readLe 8 bytes
        let (addr, bytes) ← readExact orchardRawAddressSize bytes
        some (some ⟨bundle, ⟨amount, addr⟩⟩, bytes)
      else some (none, bytes)
  else some (none, bytes)

def readRecipient (version : UInt8) (bytes : List UInt8) :
    Option (Option String × List UInt8) :=
  if 3 ≤ version then do
    let (isSome, bytes) ← readU8 bytes
    if isSome = 1 then do
      let (recipientAddress, bytes) ← readString bytes
      some (some recipientAddress, bytes)
    else some (none, bytes)
  else some (none, bytes)

/-- The branch of a psbt; formats before version 2 do not write it. -/
def readBranch (version : UInt8) (bytes : List UInt8) : Option (BranchId × List UInt8) :=
  if 2 ≤ version then do
    let (b, bytes) ← readU8 bytes
    let branchId ← BranchId.ofByte b
    some (branchId, bytes)
  else some (.nu6_1, bytes)

end PsbtWrapper

/-! ### The wrapper of the Zcash build -/

namespace Zcash

/-- `PsbtWrapper` of the Zcash build. -/
structure PsbtWrapper where
  branchId : BranchId
  expiryHeight : ℕ
  vin : List WireTxIn
  vout : List TxOut
  inputsUtxo : List TxOut
  orchard : Option ParsedOrchardBundle
  recipientAddress : Option String
deriving DecidableEq

namespace PsbtWrapper

open SatoshiBridge.PsbtWrapper (writeOrchard writeRecipient readBranch readOrchard readRecipient)

variable (lib : PsbtLibrary)

/-- `to_bytes`. -/
def toBytes (psbt : PsbtWrapper) : List UInt8 :=
  [psbtFormatVersion, psbt.branchId.toByte] ++ leBytes 4 psbt.expiryHeight ++
    lib.txIn.writeList psbt.vin ++ lib.txOut.writeList psbt.vout ++
    lib.txOut.writeList psbt.inputsUtxo ++ writeOrchard lib psbt.branchId psbt.orchard ++
    writeRecipient psbt.recipientAddress

/-- `deserialize`, of the bytes. -/
def ofBytes (bytes : List UInt8) : Option PsbtWrapper := do
  let (version, bytes) ← readU8 bytes
  let (branchId, bytes) ← readBranch version bytes
  let (expiryHeight, bytes) ← readLe 4 bytes
  let (vin, bytes) ← lib.txIn.readList bytes
  let (vout, bytes) ← lib.txOut.readList bytes
  let (inputsUtxo, bytes) ← lib.txOut.readList bytes
  let (orchard, bytes) ← readOrchard lib version branchId bytes
  let (recipientAddress, _) ← readRecipient version bytes
  some {
    branchId := branchId
    expiryHeight := expiryHeight
    vin := vin
    vout := vout
    inputsUtxo := inputsUtxo
    orchard := orchard
    recipientAddress := recipientAddress }

/-- `serialize`. -/
def serialize (psbt : PsbtWrapper) : String := Hex.encode (psbt.toBytes lib)

/-- `deserialize`. -/
def deserialize (psbtHex : String) : Option PsbtWrapper := do
  let bytes ← Hex.decode psbtHex
  ofBytes lib bytes

/-- The numbers of a wrapper are of their machine types and its parts of the types of the
libraries. -/
structure Typed (psbt : PsbtWrapper) : Prop where
  expiryHeight : psbt.expiryHeight < 256 ^ 4
  vinLength : psbt.vin.length < 256 ^ 8
  voutLength : psbt.vout.length < 256 ^ 8
  inputsLength : psbt.inputsUtxo.length < 256 ^ 8
  vin : ∀ i ∈ psbt.vin, lib.txIn.valid i
  vout : ∀ o ∈ psbt.vout, lib.txOut.valid o
  inputsUtxo : ∀ o ∈ psbt.inputsUtxo, lib.txOut.valid o
  amount : ∀ orchard ∈ psbt.orchard, orchard.output.amount < 256 ^ 8
  recipientAddr : ∀ orchard ∈ psbt.orchard,
    orchard.output.recipientAddr.length = orchardRawAddressSize
  recipientAddress : ∀ address ∈ psbt.recipientAddress, (stringBytes address).length < 256 ^ 8

end PsbtWrapper

end Zcash

namespace PsbtWrapper

/-- A psbt of the bridge as the wrapper of the Zcash build. -/
def toZcash (host : Host) (psbt : PsbtWrapper) : Option Zcash.PsbtWrapper := do
  let branchId ← psbt.branchId
  some {
    branchId := branchId
    expiryHeight := psbt.expiryHeight
    vin := psbt.vin.map (inputToWire host)
    vout := psbt.vout
    inputsUtxo := psbt.inputsUtxo.map fun o ↦ o.getD ⟨0, []⟩
    orchard := psbt.orchard
    recipientAddress := psbt.recipientAddress }

/-- What the wrapper of the Zcash build is for the bridge. -/
def ofZcash (psbt : Zcash.PsbtWrapper) : PsbtWrapper where
  branchId := some psbt.branchId
  expiryHeight := psbt.expiryHeight
  vin := psbt.vin.map inputOfWire
  vout := psbt.vout
  inputsUtxo := psbt.inputsUtxo.map some
  orchard := psbt.orchard
  recipientAddress := psbt.recipientAddress

variable (host : Host) (lib : PsbtLibrary)

/-- `to_bytes` of the Zcash build. -/
def toBytes (psbt : PsbtWrapper) : Option (List UInt8) :=
  (psbt.toZcash host).map (Zcash.PsbtWrapper.toBytes lib)

/-- `deserialize` of the Zcash build. -/
def ofBytes (bytes : List UInt8) : Option PsbtWrapper :=
  (Zcash.PsbtWrapper.ofBytes lib bytes).map ofZcash

/-- `serialize` of the two builds. -/
def serialize (psbt : PsbtWrapper) : Option (List UInt8) :=
  if host.zcash then psbt.toBytes host lib else some (lib.serializePsbt psbt)

/-- `deserialize` of the two builds. -/
def deserialize (bytes : List UInt8) : Option PsbtWrapper :=
  if host.zcash then ofBytes lib bytes else lib.deserializePsbt bytes

end PsbtWrapper

/-! ### The round trip -/

/-- The readers of the libraries invert their writers, whatever follows. -/
structure PsbtLibrary.Lawful (host : Host) (lib : PsbtLibrary) : Prop where
  v5Bundle : ∀ branchId bundle rest,
    lib.readV5Bundle branchId (lib.writeV5Bundle bundle ++ rest) = some (some bundle, rest)
  v5None : ∀ branchId rest, lib.readV5Bundle branchId (0 :: rest) = some (none, rest)
  v6Bundle : ∀ branchId bundle rest,
    lib.readV6Bundle branchId (lib.writeV6Bundle bundle ++ rest) = some (some bundle, rest)
  v6None : ∀ branchId rest, lib.readV6Bundle branchId (0 :: rest) = some (none, rest)
  psbt : host.zcash = false → ∀ psbt, lib.deserializePsbt (lib.serializePsbt psbt) = some psbt

/-- The numbers of a psbt are of their machine types, its parts are of the types of the libraries,
and an unlocking script is not empty. -/
structure PsbtWrapper.Typed (host : Host) (lib : PsbtLibrary) (psbt : PsbtWrapper) : Prop where
  branchId : psbt.branchId.isSome
  expiryHeight : psbt.expiryHeight < 256 ^ 4
  vinLength : psbt.vin.length < 256 ^ 8
  voutLength : psbt.vout.length < 256 ^ 8
  inputsLength : psbt.inputsUtxo.length < 256 ^ 8
  vin : ∀ i ∈ psbt.vin, lib.txIn.valid (PsbtWrapper.inputToWire host i)
  scripts : ∀ i ∈ psbt.vin, i.scriptSig ≠ some []
  vout : ∀ o ∈ psbt.vout, lib.txOut.valid o
  inputsUtxo : ∀ o ∈ psbt.inputsUtxo, ∃ coin, o = some coin ∧ lib.txOut.valid coin
  amount : ∀ orchard ∈ psbt.orchard, orchard.output.amount < 256 ^ 8
  recipientAddr : ∀ orchard ∈ psbt.orchard,
    orchard.output.recipientAddr.length = orchardRawAddressSize
  recipientAddress : ∀ address ∈ psbt.recipientAddress, (stringBytes address).length < 256 ^ 8

theorem readString_stringBytes {s : String} (h : (stringBytes s).length < 256 ^ 8)
    (rest : List UInt8) :
    readString (leBytes 8 (stringBytes s).length ++ stringBytes s ++ rest) = some (s, rest) := by
  have hutf8 : String.fromUTF8? ⟨(stringBytes s).toArray⟩ = some s := by
    have harray : (⟨(stringBytes s).toArray⟩ : ByteArray) = s.toByteArray := by
      rw [stringBytes, Array.toArray_toList]
    rw [harray, String.fromUTF8?, dif_pos s.isValidUTF8]
    rfl
  unfold readString
  rw [List.append_assoc, readLe_leBytes h]
  simp only [Option.bind_eq_bind, Option.bind_some, readExact_append, hutf8]

namespace PsbtWrapper

variable {host : Host} {lib : PsbtLibrary} {psbt psbt' : PsbtWrapper}

theorem inputOfWire_inputToWire {i : PsbtInput} (h : i.scriptSig ≠ some []) :
    inputOfWire (inputToWire host i) = i := by
  obtain ⟨previousOutput, scriptSig⟩ := i
  cases scriptSig with
  | none => rfl
  | some script =>
    have hne : script ≠ [] := fun heq ↦ h (by rw [heq])
    simp [inputOfWire, inputToWire, hne]

theorem readOrchard_writeOrchard (hlib : lib.Lawful host) (branchId : BranchId)
    {orchard : Option ParsedOrchardBundle}
    (hamount : ∀ parsed ∈ orchard, parsed.output.amount < 256 ^ 8)
    (haddr : ∀ parsed ∈ orchard, parsed.output.recipientAddr.length = orchardRawAddressSize)
    (rest : List UInt8) :
    readOrchard lib psbtFormatVersion branchId (writeOrchard lib branchId orchard ++ rest) =
      some (orchard, rest) := by
  have hversion : (3 : UInt8) ≤ psbtFormatVersion := by decide
  unfold readOrchard writeOrchard
  rw [if_pos hversion]
  cases orchard with
  | none =>
    by_cases hiron : isIronwood branchId = true
    · rw [if_pos hiron, List.singleton_append, hlib.v6None]
      rfl
    · rw [if_neg hiron, List.singleton_append, hlib.v5None]
      rfl
  | some parsed =>
    have hexact := readExact_append parsed.output.recipientAddr rest
    rw [haddr parsed rfl] at hexact
    by_cases hiron : isIronwood branchId = true
    · rw [if_pos hiron]
      simp only [if_pos hiron, List.append_assoc, hlib.v6Bundle, Option.bind_eq_bind,
        Option.bind_some, List.cons_append, List.nil_append, readU8, if_true,
        readLe_leBytes (hamount parsed rfl), hexact]
    · rw [if_neg hiron]
      simp only [if_neg hiron, List.append_assoc, hlib.v5Bundle, Option.bind_eq_bind,
        Option.bind_some, List.cons_append, List.nil_append, readU8, if_true,
        readLe_leBytes (hamount parsed rfl), hexact]

theorem readRecipient_writeRecipient {recipientAddress : Option String}
    (h : ∀ address ∈ recipientAddress, (stringBytes address).length < 256 ^ 8)
    (rest : List UInt8) :
    readRecipient psbtFormatVersion (writeRecipient recipientAddress ++ rest) =
      some (recipientAddress, rest) := by
  have hversion : (3 : UInt8) ≤ psbtFormatVersion := by decide
  unfold readRecipient writeRecipient
  rw [if_pos hversion]
  cases recipientAddress with
  | none => rfl
  | some address =>
    dsimp only
    rw [List.append_assoc, List.append_assoc, List.singleton_append]
    simp only [Option.bind_eq_bind, Option.bind_some, readU8, if_true]
    rw [← List.append_assoc, readString_stringBytes (h address rfl)]
    rfl

theorem ofZcash_toZcash (htyped : psbt.Typed host lib) {wrapper : Zcash.PsbtWrapper}
    (h : psbt.toZcash host = some wrapper) : ofZcash wrapper = psbt ∧ wrapper.Typed lib := by
  obtain ⟨branchId, hbranch⟩ := Option.isSome_iff_exists.mp htyped.branchId
  rw [toZcash, hbranch, Option.bind_eq_bind, Option.bind_some, Option.some.injEq] at h
  have hvin : (psbt.vin.map (inputToWire host)).map inputOfWire = psbt.vin := by
    rw [List.map_map]
    refine (List.map_congr_left fun i hi ↦ ?_).trans (List.map_id _)
    exact inputOfWire_inputToWire (htyped.scripts i hi)
  have hcoins : (psbt.inputsUtxo.map fun o ↦ o.getD ⟨0, []⟩).map some = psbt.inputsUtxo := by
    rw [List.map_map]
    refine (List.map_congr_left fun o ho ↦ ?_).trans (List.map_id _)
    obtain ⟨coin, rfl, _⟩ := htyped.inputsUtxo o ho
    rfl
  constructor
  · rw [← h]
    simp only [ofZcash, hvin, hcoins]
    rw [← hbranch]
  · rw [← h]
    refine ⟨htyped.expiryHeight, ?_, htyped.voutLength, ?_, ?_, htyped.vout, ?_, htyped.amount,
      htyped.recipientAddr, htyped.recipientAddress⟩
    · rw [List.length_map]
      exact htyped.vinLength
    · rw [List.length_map]
      exact htyped.inputsLength
    · intro w hw
      obtain ⟨i, hi, rfl⟩ := List.mem_map.mp hw
      exact htyped.vin i hi
    · intro o ho
      obtain ⟨utxo, hutxo, rfl⟩ := List.mem_map.mp ho
      obtain ⟨coin, rfl, hcoin⟩ := htyped.inputsUtxo utxo hutxo
      exact hcoin

end PsbtWrapper

/-- The bytes of a wrapper of the Zcash build can be read back. -/
theorem Zcash.PsbtWrapper.ofBytes_toBytes {host : Host} {lib : PsbtLibrary}
    {psbt : Zcash.PsbtWrapper} (hlib : lib.Lawful host) (htyped : psbt.Typed lib) :
    ofBytes lib (psbt.toBytes lib) = some psbt := by
  have hversion : (2 : UInt8) ≤ psbtFormatVersion := by decide
  have hrecipient := SatoshiBridge.PsbtWrapper.readRecipient_writeRecipient
    htyped.recipientAddress []
  rw [List.append_nil] at hrecipient
  simp only [toBytes, ofBytes, Option.bind_eq_bind, List.append_assoc, List.cons_append,
    List.nil_append, readU8, Option.bind_some, SatoshiBridge.PsbtWrapper.readBranch,
    if_pos hversion, BranchId.ofByte_toByte, readLe_leBytes htyped.expiryHeight,
    lib.txIn.readList_writeList htyped.vin htyped.vinLength,
    lib.txOut.readList_writeList htyped.vout htyped.voutLength,
    lib.txOut.readList_writeList htyped.inputsUtxo htyped.inputsLength,
    SatoshiBridge.PsbtWrapper.readOrchard_writeOrchard hlib psbt.branchId htyped.amount
      htyped.recipientAddr, hrecipient]

namespace PsbtWrapper

variable {host : Host} {lib : PsbtLibrary} {psbt psbt' : PsbtWrapper}

/-- The Zcash format can be read back. -/
theorem ofBytes_toBytes (hlib : lib.Lawful host) (htyped : psbt.Typed host lib) :
    ∃ bytes, psbt.toBytes host lib = some bytes ∧ ofBytes lib bytes = some psbt := by
  obtain ⟨branchId, hbranch⟩ := Option.isSome_iff_exists.mp htyped.branchId
  have hsome : (psbt.toZcash host).isSome := by
    rw [toZcash, hbranch]
    rfl
  obtain ⟨wrapper, hwrapper⟩ := Option.isSome_iff_exists.mp hsome
  obtain ⟨hback, hwrapperTyped⟩ := ofZcash_toZcash htyped hwrapper
  refine ⟨wrapper.toBytes lib, ?_, ?_⟩
  · rw [toBytes, hwrapper, Option.map_some]
  · rw [ofBytes, Zcash.PsbtWrapper.ofBytes_toBytes hlib hwrapperTyped, Option.map_some, hback]

/-- What is stored of a psbt is the psbt. -/
theorem deserialize_serialize (hlib : lib.Lawful host) (htyped : psbt.Typed host lib) :
    ∃ bytes, psbt.serialize host lib = some bytes ∧
      deserialize host lib bytes = some psbt := by
  unfold serialize deserialize
  cases hzcash : host.zcash with
  | true => exact ofBytes_toBytes hlib htyped
  | false => exact ⟨_, rfl, hlib.psbt hzcash psbt⟩

end PsbtWrapper

end SatoshiBridge
