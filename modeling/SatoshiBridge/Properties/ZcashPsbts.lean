import SatoshiBridge.Model.SampleHost
import SatoshiBridge.Model.ZcashTransaction

/-!
# The psbts of the Zcash build

The stored text of a psbt is read back as the psbt, and what is signed of it commits to the
transaction that is broadcast.
-/

set_option autoImplicit false
set_option relaxedAutoImplicit false

namespace SatoshiBridge

/-! ### Samples -/

namespace Sample

open Numbering PrefixCodec

/-- The consensus serialization of a signed input. -/
def txInCodec : PrefixCodec WireTxIn where
  valid i := i.prevout.txid < 256 ^ 32 ∧ i.prevout.vout < 256 ^ 4 ∧
    i.scriptSig.length < 256 ^ 8 ∧ i.sequence < 256 ^ 4
  write i := leBytes 32 i.prevout.txid ++ leBytes 4 i.prevout.vout ++ sizedBytes i.scriptSig ++
    leBytes 4 i.sequence
  read bytes := do
    let (txid, bytes) ← readLe 32 bytes
    let (vout, bytes) ← readLe 4 bytes
    let (scriptSig, bytes) ← readSizedBytes bytes
    let (sequence, bytes) ← readLe 4 bytes
    some (⟨⟨txid, vout⟩, scriptSig, sequence⟩, bytes)
  read_write := by
    rintro i ⟨htxid, hvout, hscript, hsequence⟩ rest
    simp only [List.append_assoc, readLe_leBytes htxid, readLe_leBytes hvout,
      readSizedBytes_sizedBytes hscript, readLe_leBytes hsequence, Option.bind_eq_bind,
      Option.bind_some]
  read_nil := rfl

deriving instance Countable for OrchardBundle

/-- A bundle after its number of actions, which is not zero; the bundles are numbered. -/
noncomputable def writeBundle (bundle : OrchardBundle) : List UInt8 :=
  1 :: word (number [] bundle)

open Classical in
noncomputable def readBundle (bytes : List UInt8) : Option (Option OrchardBundle × List UInt8) :=
  if bytes.head? = some 0 then some (none, bytes.tail)
  else if h : ∃ written : OrchardBundle × List UInt8,
      writeBundle written.1 ++ written.2 = bytes then
    some (some h.choose.1, h.choose.2)
  else none

theorem readBundle_zero (rest : List UInt8) : readBundle (0 :: rest) = some (none, rest) :=
  if_pos rfl

theorem readBundle_writeBundle (bundle : OrchardBundle) (rest : List UInt8) :
    readBundle (writeBundle bundle ++ rest) = some (some bundle, rest) := by
  have hex : ∃ written : OrchardBundle × List UInt8,
      writeBundle written.1 ++ written.2 = writeBundle bundle ++ rest := ⟨(bundle, rest), rfl⟩
  have hhead : (writeBundle bundle ++ rest).head? ≠ some 0 := by
    change some 1 ≠ some 0
    decide
  have hspec := hex.choose_spec
  rw [readBundle, if_neg hhead, dif_pos hex]
  generalize hex.choose = written at hspec
  simp only [writeBundle, List.cons_append, List.cons.injEq, true_and] at hspec
  obtain ⟨hbundle, hrest⟩ := word_append_inj hspec
  rw [number_injective [] hbundle, hrest]

noncomputable def psbtLibrary : PsbtLibrary where
  txIn := txInCodec
  txOut := txOutCodec
  writeV5Bundle := writeBundle
  readV5Bundle := fun _ ↦ readBundle
  writeV6Bundle := writeBundle
  readV6Bundle := fun _ ↦ readBundle
  serializePsbt := fun _ ↦ []
  deserializePsbt := fun _ ↦ none

theorem psbtLibrary_lawful : psbtLibrary.Lawful (host true) where
  v5Bundle := fun _ ↦ readBundle_writeBundle
  v5None := fun _ ↦ readBundle_zero
  v6Bundle := fun _ ↦ readBundle_writeBundle
  v6None := fun _ ↦ readBundle_zero
  psbt := fun h ↦ by cases h

/-- Digests that are what they are computed from. -/
def plainDigests : Zcash.DigestLibrary (List UInt8) (List UInt8) where
  digestHeader := fun version branchId lockTime expiryHeight ↦
    leBytes 4 version.header ++ [branchId.toByte] ++ leBytes 4 lockTime ++ leBytes 4 expiryHeight
  digestTransparent := fun transparent ↦ (transparent.getD ([], [])).1.flatMap (fun i ↦
      leBytes 32 i.previousOutput.txid ++ leBytes 4 i.previousOutput.vout ++ leBytes 4 i.sequence)
    ++ (transparent.getD ([], [])).2.flatMap txOutCodec.write
  digestSapling := fun _ bundle ↦ bundle.getD []
  digestOrchard := fun _ bundle ↦ (bundle.map OrchardBundle.bytes).getD []
  digestIronwood := fun bundle ↦ (bundle.map OrchardBundle.bytes).getD []
  signatureHash := fun _ branchId _ coins input digests ↦
    [branchId.toByte] ++ digests.header ++ digests.transparent ++ coins.flatMap txOutCodec.write ++
      leBytes 4 input.index ++ input.scriptCode ++ digests.sapling ++ digests.orchard ++
      digests.ironwood

/-- A shielded payment with change, after the sixth network upgrade's third update. -/
def zcashPsbt : Zcash.PsbtWrapper where
  branchId := .nu6_3
  expiryHeight := 3500000
  vin := [⟨⟨7, 1⟩, [], 0xFFFFFFFF⟩]
  vout := [⟨1000, [0x76, 0xa9, 0x14] ++ List.replicate 20 5 ++ [0x88, 0xac]⟩]
  inputsUtxo := [⟨9000, [0x76, 0xa9, 0x14] ++ List.replicate 20 5 ++ [0x88, 0xac]⟩]
  orchard := some ⟨⟨[1, 2, 3], 1, -7000⟩, ⟨7000, List.replicate 43 9⟩⟩
  recipientAddress := some "u-orchard"

theorem zcashPsbt_typed : zcashPsbt.Typed psbtLibrary where
  expiryHeight := by decide
  vinLength := by decide
  voutLength := by decide
  inputsLength := by decide
  vin := by
    intro i hi
    rw [List.mem_singleton.mp hi]
    exact ⟨by decide, by decide, by decide, by decide⟩
  vout := by
    intro o ho
    rw [List.mem_singleton.mp ho]
    exact ⟨by decide, by decide⟩
  inputsUtxo := by
    intro o ho
    rw [List.mem_singleton.mp ho]
    exact ⟨by decide, by decide⟩
  amount := by
    intro parsed hparsed
    rw [← Option.some.inj hparsed]
    decide
  recipientAddr := by
    intro parsed hparsed
    rw [← Option.some.inj hparsed]
    rfl
  recipientAddress := by
    intro address haddress
    rw [← Option.some.inj haddress]
    decide +kernel

end Sample

/-! ### What is signed -/

/-- What is signed for an input of a psbt commits to the version, the branch, the lock time, the
expiry height, the inputs, the outputs and the bundles of the transaction that is broadcast,
whatever the digests are. -/
theorem Zcash.PsbtWrapper.getHashToSign_commits {Digest Hash : Type}
    (lib : Zcash.DigestLibrary Digest Hash) (psbt : Zcash.PsbtWrapper) {vin : ℕ} {hash : Hash}
    (h : psbt.getHashToSign lib vin = some hash) :
    ∃ coin, psbt.inputsUtxo[vin]? = some coin ∧
      hash = lib.sighash psbt.getZcashTx.effects psbt.inputsUtxo vin coin := by
  rw [psbt.getHashToSign_eq] at h
  simp only [Option.bind_eq_bind, Option.bind_eq_some_iff, Option.some.injEq] at h
  obtain ⟨_, _, coin, hcoin, _, _, hhash⟩ := h
  exact ⟨coin, hcoin, hhash.symm⟩

/-- The shielded payment commits to the transaction that carries its bundle in the last slot. -/
theorem Zcash.PsbtWrapper.getHashToSign_commits_sample :
    ∃ hash, Sample.zcashPsbt.getHashToSign Sample.plainDigests 0 = some hash ∧
      ∃ coin, Sample.zcashPsbt.inputsUtxo[0]? = some coin ∧
        hash = Sample.plainDigests.sighash Sample.zcashPsbt.getZcashTx.effects
          Sample.zcashPsbt.inputsUtxo 0 coin := by
  have hsome : (Sample.zcashPsbt.getHashToSign Sample.plainDigests 0).isSome := by decide
  obtain ⟨hash, hhash⟩ := Option.isSome_iff_exists.mp hsome
  exact ⟨hash, hhash, Sample.zcashPsbt.getHashToSign_commits Sample.plainDigests hhash⟩

/-! ### What is stored -/

/-- The text of a psbt is read back as the psbt. -/
theorem Zcash.PsbtWrapper.serialize_roundTrip {host : Host} {lib : PsbtLibrary}
    {psbt : Zcash.PsbtWrapper} (hlib : lib.Lawful host) (htyped : psbt.Typed lib) :
    deserialize lib (psbt.serialize lib) = some psbt := by
  rw [deserialize, serialize, Hex.decode_encode, Option.bind_eq_bind, Option.bind_some]
  exact ofBytes_toBytes hlib htyped

/-- The shielded payment is read back from its text. -/
theorem Zcash.PsbtWrapper.serialize_roundTrip_sample :
    deserialize Sample.psbtLibrary (Sample.zcashPsbt.serialize Sample.psbtLibrary) =
      some Sample.zcashPsbt :=
  serialize_roundTrip Sample.psbtLibrary_lawful Sample.zcashPsbt_typed

end SatoshiBridge
