import SatoshiBridge.Model.PsbtFormat
import SatoshiBridge.Properties.DepositUses

/-!
# What a signed transaction is

The bytes of a signed transaction are looked up by an id that was fixed before the first
signature. They decode to the transaction of the stored psbt, which has that id.
-/

set_option autoImplicit false
set_option relaxedAutoImplicit false

namespace SatoshiBridge

variable {host : Host} {s : Sys}

/-- The bytes of a signed pending transaction decode to a transaction with its id, with the inputs
and the outputs of its psbt, and the psbt is what its own bytes are read back as. Assumes that the
reader of transactions inverts the writer on what is not an unlocking script. -/
theorem Sys.Reachable.signed_transaction (laws : host.ReadsAddresses) {guard : Sys.Guard}
    (h : Sys.Reachable host guard s) {encode : SignedTransaction → List UInt8}
    {decode : List UInt8 → Option Transaction}
    (hreads : ∀ signed, decode (encode signed) = some signed.tx) {id : Txid}
    {info : BTCPendingInfo} (hinfo : s.contract.btcPendingInfos.lookup id = some info)
    {signed : SignedTransaction} (hsigned : info.txBytesWithSign = some signed) :
    (∃ tx, decode (encode signed) = some tx ∧ host.computeTxid tx = id ∧
        info.btcPendingId = id ∧
        tx.input.map TxIn.previousOutput = info.psbt.getUtxoStorageKeys ∧
        tx.output = info.psbt.vout) ∧
      ∀ lib, PsbtLibrary.Lawful host lib → info.psbt.Typed host lib →
        ∃ bytes, info.psbt.serialize host lib = some bytes ∧
          PsbtWrapper.deserialize host lib bytes = some info.psbt := by
  have hidentifies := (Sys.Reachable.anytime laws h).identified id info hinfo
  have htx : signed.tx = info.psbt.transaction host := by
    refine hidentifies.signed signed.tx ?_
    rw [BTCPendingInfo.getTransaction, hsigned]
    rfl
  constructor
  · refine ⟨signed.tx, hreads signed, ?_, hidentifies.named, ?_, ?_⟩
    · rw [htx]
      exact hidentifies.txid
    · rw [htx]
      exact PsbtWrapper.transaction_input_keys host info.psbt
    · rw [htx]
      rfl
  · intro lib hlib htyped
    exact PsbtWrapper.deserialize_serialize hlib htyped

namespace Sample

/-- Writes the number of a transaction and its unlocking scripts. -/
noncomputable def writeSigned (signed : SignedTransaction) : List UInt8 :=
  Numbering.word (Numbering.number transactions signed.tx) ++
    signed.scriptSigs.flatMap fun scriptSig ↦ scriptSig.getD []

open Classical in
/-- Reads a transaction without its unlocking scripts. -/
noncomputable def readSigned (bytes : List UInt8) : Option Transaction :=
  if h : ∃ tx rest, Numbering.word (Numbering.number transactions tx) ++ rest = bytes then
    some h.choose
  else none

theorem readSigned_writeSigned (signed : SignedTransaction) :
    readSigned (writeSigned signed) = some signed.tx := by
  have hex : ∃ tx rest, Numbering.word (Numbering.number transactions tx) ++ rest =
      writeSigned signed := ⟨signed.tx, _, rfl⟩
  rw [readSigned, dif_pos hex, Option.some.injEq]
  obtain ⟨rest, hrest⟩ := hex.choose_spec
  exact Numbering.number_injective transactions (Numbering.word_append_inj hrest).1

/-- Bob's refund, signed. -/
def signedRefund : List Action :=
  sync ++ requestRefund bobMsg 2 50 ++ executeRefund ⟨0, 2⟩ ++ sign 6

end Sample

/-- The signed refund of Bob's coin. -/
theorem signed_transaction_refund :
    ∃ s info signed, Sample.after Sample.signedRefund = some s ∧
      s.contract.btcPendingInfos.lookup 6 = some info ∧ info.txBytesWithSign = some signed ∧
      ∃ tx, Sample.readSigned (Sample.writeSigned signed) = some tx ∧
        (Sample.host false).computeTxid tx = 6 ∧ info.btcPendingId = 6 ∧
        tx.input.map TxIn.previousOutput = info.psbt.getUtxoStorageKeys ∧
        tx.output = info.psbt.vout := by
  have hrun : ((Sample.after Sample.signedRefund).bind fun s ↦
      (s.contract.btcPendingInfos.lookup 6).bind fun info ↦ info.txBytesWithSign).isSome := by
    decide +kernel
  obtain ⟨signed, hsome⟩ := Option.isSome_iff_exists.mp hrun
  obtain ⟨s, hs, hsome⟩ := Option.bind_eq_some_iff.mp hsome
  obtain ⟨info, hinfo, hsigned⟩ := Option.bind_eq_some_iff.mp hsome
  have hreach : Sys.Reachable (Sample.host false) Sys.always s := Sample.reaches (by decide) hs
  have hspec := hreach.signed_transaction (Sample.host_lawful false).toReadsAddresses
    Sample.readSigned_writeSigned hinfo hsigned
  exact ⟨s, info, signed, hs, hinfo, hsigned, hspec.1⟩

end SatoshiBridge
