import Mathlib.Data.Finset.Basic
import Mathlib.Logic.Equiv.List
import Mathlib.Tactic.DeriveCountable
import SatoshiBridge.Library.Numbering
import SatoshiBridge.Model.Laws

/-!
# A host that satisfies the laws

Both builds have a lawful host: hashes and scripts number what they are computed from. A few
transactions, messages and paths are numbered by tables, so that runs over them can be evaluated.
-/

set_option autoImplicit false
set_option relaxedAutoImplicit false

namespace SatoshiBridge

instance countableUInt8 : Countable UInt8 := Function.Injective.countable (f := UInt8.toNat)
  fun _ _ h ↦ UInt8.toNat_inj.mp h

instance countableChar : Countable Char := Function.Injective.countable (f := Char.toNat)
  fun _ _ h ↦ Char.toNat_inj.mp h

instance countableString : Countable String := Function.Injective.countable (f := String.toList)
  fun _ _ h ↦ String.toList_inj.mp h

deriving instance Countable for BranchId, OutPoint, TxOut, TxIn, Transaction, SafeDepositMsg,
  PostAction, DepositMsg

namespace Sample

open Numbering

/-! ### The tables -/

/-- A deposit for Alice without further instructions. -/
def aliceMsg : DepositMsg := ⟨"alice", none, none, none, none, by decide +kernel⟩

/-- A deposit for the DAO without further instructions. -/
def daoMsg : DepositMsg := ⟨"dao", none, none, none, none, by decide +kernel⟩

/-- A deposit for Bob that names an address for refunds. -/
def bobMsg : DepositMsg :=
  ⟨"bob", none, none, none, some "bob-address", by decide +kernel⟩

/-- A safe deposit for Carol that carries an extra message too. -/
def carolMsg : DepositMsg :=
  ⟨"carol", none, some "extra", some ⟨"safe"⟩, none, by decide +kernel⟩

def messages : List DepositMsg := [aliceMsg, daoMsg, bobMsg, carolMsg]

def bridge : AccountId := "bridge"

/-- The change path, the paths of the messages and an address of a user. -/
def paths : List Path := [bridge, "h", "hm", "hmm", "bob-address", "hmmm"]

/-- The number of a path, as a script. -/
noncomputable def script (path : Path) : ScriptBuf := word (number paths path)

/-- Pays Alice, the DAO, Bob and Carol. -/
noncomputable def depositTx : Transaction where
  version := 2
  lockTime := 0
  branchId := none
  expiryHeight := 0
  input := [⟨⟨1001, 0⟩, 0xFFFFFFFD⟩]
  output := [⟨1000, word 1⟩, ⟨500, word 2⟩, ⟨700, word 3⟩, ⟨600, word 5⟩]
  shielded := none

/-- A transaction of the bridge on a list of coins. -/
def spendTx (input : List OutPoint) (output : List TxOut) : Transaction where
  version := 2
  lockTime := 0
  branchId := none
  expiryHeight := 0
  input := input.map fun o ↦ ⟨o, 0xFFFFFFFD⟩
  output := output
  shielded := none

/-- The funding transaction, a transaction that moves Alice's coin to change, a replacement of it
with more gas, and the refund of Bob's coin. -/
noncomputable def transactions : List Transaction :=
  [depositTx, spendTx [⟨0, 0⟩] [⟨990, word 0⟩], spendTx [⟨0, 0⟩] [⟨980, word 0⟩],
    spendTx [⟨0, 2⟩] [⟨650, word 4⟩]]

/-! ### The host -/

noncomputable def depositMsgToJson (msg : DepositMsg) : String :=
  String.ofList (List.replicate (number messages msg) 'm')

open Classical in
/-- Looks the text up in the table before anything else. -/
noncomputable def depositMsgFromJson (json : String) : Option DepositMsg :=
  match messages.find? fun msg ↦ depositMsgToJson msg = json with
  | some msg => some msg
  | none => if h : ∃ msg, depositMsgToJson msg = json then some h.choose else none

noncomputable def host (zcash : Bool) : Host where
  zcash := zcash
  currentAccountId := bridge
  rootPublicKey := "root"
  storageByteCost := 1
  chainScript := fun _ _ path ↦ script path
  chainAddress := fun _ _ path ↦ path
  parseAddress := fun _ address ↦ some ⟨some (script address), none⟩
  addressOfScript := fun _ s ↦ paths.find? fun path ↦ script path = s
  depositMsgToJson := depositMsgToJson
  depositMsgFromJson := depositMsgFromJson
  sha256Hex := fun s ↦ "h" ++ s
  computeTxid := fun tx ↦ 2 * number transactions tx
  decodeTransaction := fun
    | [b] => transactions[b.toNat]?
    | _ => none
  extractTxOk := fun _ ↦ true
  readBundle := fun _ _ ↦ none
  recoverOutputWithOvk := fun _ ↦ none
  zip317MinFee := fun _ _ _ _ ↦ 0
  writeTxOut := fun o ↦ word (number [] o)
  blake2b := fun personal input ↦ word (number [] (personal, input))
  p2wpkhSighash := fun _ _ _ ↦ some []
  zcashSighash := fun _ _ _ ↦ some []
  scriptSigOf := fun _ _ _ ↦ some [1]
  parseJson := fun _ ↦ none
  printJson := fun _ ↦ ""
  showTxid := fun _ ↦ ""

/-! ### The laws -/

theorem depositMsgToJson_injective : Function.Injective depositMsgToJson := by
  intro msg msg' h
  have hlist := congrArg (fun s ↦ s.toList.length) h
  simp only [depositMsgToJson, String.toList_ofList, List.length_replicate] at hlist
  exact number_injective messages hlist

theorem depositMsg_roundTrip (msg : DepositMsg) :
    depositMsgFromJson (depositMsgToJson msg) = some msg := by
  unfold depositMsgFromJson
  split
  · rename_i found hfound
    have heq := List.find?_some hfound
    rw [decide_eq_true_eq] at heq
    rw [depositMsgToJson_injective heq]
  · have hex : ∃ msg', depositMsgToJson msg' = depositMsgToJson msg := ⟨msg, rfl⟩
    rw [dif_pos hex, Option.some.injEq]
    exact depositMsgToJson_injective hex.choose_spec

/-- Digests spell odd numbers, transaction ids of the library are even. -/
theorem txidOfBytes_word (n : ℕ) : txidOfBytes (word n) % 2 = 1 := by
  cases n with
  | zero => rfl
  | succ n =>
    simp only [word, txidOfBytes]
    have h3 : (3 : UInt8).toNat = 3 := rfl
    omega

theorem host_lawful (zcash : Bool) : (host zcash).Lawful where
  txid_commits := by
    intro tx tx' h
    have heq : tx = tx' :=
      number_injective transactions (Nat.eq_of_mul_eq_mul_left (by decide) h)
    rw [heq]
    exact ⟨rfl, rfl⟩
  chainScript_injective := fun _ _ _ _ h ↦ number_injective paths (word_injective h)
  parse_chainAddress := fun _ _ _ ↦ ⟨none, rfl⟩
  depositMsg_roundTrip := depositMsg_roundTrip
  sha256Hex_injective := by
    intro s s' h
    have hlist := congrArg String.toList h
    simp only [host, String.toList_append] at hlist
    exact String.toList_inj.mp (List.append_cancel_left hlist)
  sha256Hex_ne_account := by
    intro s h
    have hlist := congrArg String.toList h
    simp only [host, bridge, String.toList_append] at hlist
    cases hlist
  parse_addressOfScript := by
    intro _ _ _ s address _ _ h
    have heq := List.find?_some h
    rw [decide_eq_true_eq] at heq
    exact ⟨none, by rw [← heq]; rfl⟩
  blake2b_prefix := fun _ _ _ _ _ _ _ h ↦ congrArg word (word_append_inj h).1
  blake2b_injective := by
    intro _ personal input personal' input' h
    have heq := number_injective [] (word_injective h)
    exact ⟨congrArg Prod.fst heq, congrArg Prod.snd heq⟩
  writeTxOut_injective := fun _ _ _ h ↦ flatMap_word_injective (number_injective []) h
  zip244 := by
    intro _ tx
    right
    intro branch header prevouts sequence outputs sapling orchard ironwood h
    have hodd := txidOfBytes_word (number [] (asciiBytes "ZcashTxHash_" ++ toLeBytes branch,
      header ++ (host zcash).blake2b (asciiBytes "ZTxIdTranspaHash")
        (prevouts ++ sequence ++ outputs) ++ sapling ++ orchard ++ ironwood.flatten))
    have heven : (host zcash).computeTxid tx % 2 = 0 := Nat.mul_mod_right 2 _
    rw [h] at heven
    exact absurd (hodd.symm.trans heven) (by decide)

end Sample

end SatoshiBridge
