import SatoshiBridge.Invariants.Grounds
import SatoshiBridge.Invariants.Tiers
import SatoshiBridge.Model.DepositMsgJson
import SatoshiBridge.Model.SampleRun

/-!
# Deposit messages survive their JSON

A refund request keeps its message as JSON only, and the path its coin is signed with is derived
from the message that is read back. Every message is read back as itself, so the path is the one
that was verified against the output.
-/

set_option autoImplicit false
set_option relaxedAutoImplicit false

namespace SatoshiBridge

variable {host : Host}

/-! ### Fields -/

namespace Serde

theorem readAccountId_string {s : String} (h : isAccountId s = true) :
    readAccountId (.string s) = some ⟨s, h⟩ := by
  simp only [readAccountId, readText, Option.bind_eq_bind, Option.bind_some, checked, h, dite_true]

theorem readU128_writeNumber {n : ℕ} (h : n < 2 ^ 128) :
    readU128 (writeNumber n) = some ⟨n, h⟩ := by
  change (parseU128 (toString n)).bind (checked _) = _
  rw [parseU128_toString_eq, if_pos h, Option.bind_some, checked, dif_pos h]

theorem readGas_writeNumber (gas : { n : ℕ // n < 2 ^ 64 }) :
    readGas (writeNumber gas.val) = some gas := by
  have hlt : gas.val < 2 ^ 128 := by have := gas.property; omega
  rw [readGas, readU128_writeNumber hlt, Option.bind_eq_bind, Option.bind_some, checked,
    dif_pos gas.property]

variable {α : Type} {fields : List (String × Option Json)}

/-- An option is read as itself when every value is. -/
theorem optionalField_written (h : (fields.map Prod.fst).Nodup) {read : Json → Option α}
    {name : String} {write : α → Json} {a : Option α} (hnull : ∀ a, write a ≠ .null)
    (hread : ∀ a, read (write a) = some a) (hfield : fields.lookup name = some (a.map write)) :
    optionalField read name (present fields) = some a := by
  rw [optionalField_present h hnull hfield]
  cases a with
  | none => rfl
  | some a => rw [Option.elim_some, hread, Option.map_some]

/-- A list is read as itself when every element is. -/
theorem readVec_array {read : Json → Option α} {write : α → Json}
    (hread : ∀ a, read (write a) = some a) (as : List α) :
    readVec read (.array (as.map write)) = some as := by
  change (as.map write).mapM read = some as
  induction as with
  | nil => rfl
  | cons a as ih =>
    rw [List.map_cons, List.mapM_cons, hread, ih]
    rfl

end Serde

open Serde

/-! ### Messages -/

/-- A post action is read back as itself. -/
theorem PostAction.ofJson_toJson (action : PostAction) : ofJson action.toJson = some action := by
  have hnodup : (action.fields.map Prod.fst).Nodup := by
    change ["receiver_id", "amount", "memo", "msg", "gas"].Nodup
    decide
  have hmemo : optionalField readText "memo" (present action.fields) = some action.memo :=
    optionalField_written hnodup (fun _ ↦ Json.noConfusion) (fun _ ↦ rfl) rfl
  have hvalues : (action.gas.attachWith _ action.gas_lt).map Subtype.val = action.gas :=
    Option.attachWith_map_subtype_val action.gas action.gas_lt
  have hgas : optionalField readGas "gas" (present action.fields) =
      some (action.gas.attachWith _ action.gas_lt) := by
    refine optionalField_written hnodup (fun _ ↦ Json.noConfusion) readGas_writeNumber ?_
    change some (action.gas.map writeNumber) =
      some ((action.gas.attachWith _ action.gas_lt).map (writeNumber ∘ Subtype.val))
    rw [← Option.map_map, hvalues]
  rw [ofJson, toJson, structMembers_present hnodup, Option.bind_eq_bind, Option.bind_some,
    requiredField_present hnodup rfl, requiredField_present hnodup rfl,
    requiredField_present hnodup rfl, readAccountId_string action.receiverId_valid,
    readU128_writeNumber action.amount_lt, hmemo, hgas]
  simp only [Option.bind_eq_bind, Option.bind_some, readText, hvalues]

theorem SafeDepositMsg.ofJson_toJson (safeDeposit : SafeDepositMsg) :
    ofJson safeDeposit.toJson = some safeDeposit := by
  have hnodup : (safeDeposit.fields.map Prod.fst).Nodup := List.nodup_singleton "msg"
  rw [ofJson, toJson, structMembers_present hnodup, Option.bind_eq_bind, Option.bind_some,
    requiredField_present hnodup rfl]
  rfl

/-- A message is read back as itself. -/
theorem DepositMsg.ofJson_toJson (msg : DepositMsg) : ofJson msg.toJson = some msg := by
  have hnodup : (msg.fields.map Prod.fst).Nodup := by
    change ["recipient_id", "post_actions", "extra_msg", "safe_deposit", "refund_address"].Nodup
    decide
  have hactions : optionalField (readVec PostAction.ofJson) "post_actions" (present msg.fields) =
      some msg.postActions :=
    optionalField_written hnodup (fun _ ↦ Json.noConfusion)
      (readVec_array PostAction.ofJson_toJson) rfl
  have hextra : optionalField readText "extra_msg" (present msg.fields) = some msg.extraMsg :=
    optionalField_written hnodup (fun _ ↦ Json.noConfusion) (fun _ ↦ rfl) rfl
  have hsafe : optionalField SafeDepositMsg.ofJson "safe_deposit" (present msg.fields) =
      some msg.safeDeposit :=
    optionalField_written hnodup (fun _ ↦ Json.noConfusion) SafeDepositMsg.ofJson_toJson rfl
  have hrefund : optionalField readText "refund_address" (present msg.fields) =
      some msg.refundAddress :=
    optionalField_written hnodup (fun _ ↦ Json.noConfusion) (fun _ ↦ rfl) rfl
  rw [ofJson, toJson, structMembers_present hnodup, Option.bind_eq_bind, Option.bind_some,
    requiredField_present hnodup rfl, readAccountId_string msg.recipientId_valid, hactions, hextra,
    hsafe, hrefund]
  rfl

/-! ### Texts -/

theorem Serde.forall_present {P : Json → Prop} {fields : List (String × Option Json)}
    (h : ∀ field ∈ fields, ∀ value ∈ field.2, P value) : ∀ member ∈ present fields, P member.2 := by
  intro member hmember
  obtain ⟨field, hfield, hmap⟩ := List.mem_filterMap.mp hmember
  obtain ⟨value, hvalue, rfl⟩ := Option.map_eq_some_iff.mp hmap
  exact h field hfield value hvalue

theorem Json.fits_string (depth : ℕ) (s : String) : Fits depth (.string s) := by
  cases depth <;> exact trivial

theorem PostAction.fits (depth : ℕ) (action : PostAction) :
    Json.Fits (depth + 1) action.toJson := by
  change ∀ member ∈ present action.fields, Json.Fits depth member.2
  refine forall_present ?_
  simp only [fields, writeNumber, List.forall_mem_cons, Option.mem_some_iff, forall_eq',
    Option.mem_map, forall_exists_index, and_imp, forall_apply_eq_imp_iff₂, Json.fits_string,
    implies_true, List.not_mem_nil, false_imp_iff, and_self]

theorem DepositMsg.fits (depth : ℕ) (msg : DepositMsg) : Json.Fits (depth + 3) msg.toJson := by
  change ∀ member ∈ present msg.fields, Json.Fits (depth + 2) member.2
  have hactions (actions : List PostAction) :
      Json.Fits (depth + 2) (.array (actions.map PostAction.toJson)) := by
    intro element helement
    obtain ⟨action, _, rfl⟩ := List.mem_map.mp helement
    exact action.fits depth
  have hsafe (safeDeposit : SafeDepositMsg) : Json.Fits (depth + 2) safeDeposit.toJson := by
    change ∀ member ∈ present safeDeposit.fields, Json.Fits (depth + 1) member.2
    refine forall_present ?_
    simp only [SafeDepositMsg.fields, List.forall_mem_cons, Option.mem_some_iff, forall_eq',
      Json.fits_string, List.not_mem_nil, false_imp_iff, implies_true, and_self]
  refine forall_present ?_
  simp only [fields, List.forall_mem_cons, Option.mem_some_iff, forall_eq', Option.mem_map,
    forall_exists_index, and_imp, forall_apply_eq_imp_iff₂, Json.fits_string, hactions, hsafe,
    implies_true, List.not_mem_nil, false_imp_iff, and_self]

/-- The text of a message is read back as that message. -/
theorem DepositMsg.ofText_toText (msg : DepositMsg) : ofText msg.toText = some msg := by
  have htext : Json.ofText msg.toText = some msg.toJson := Json.ofText_text (msg.fits 124)
  rw [ofText, htext, Option.bind_eq_bind, Option.bind_some, ofJson_toJson]

theorem DepositMsg.toText_injective : Function.Injective toText := by
  intro msg msg' h
  have hread := ofText_toText msg
  rw [h, ofText_toText] at hread
  exact (Option.some.inj hread).symm

/-! ### Requests -/

/-- The message of a stored request: its JSON was stored, and its path was verified against the
output the request is for. -/
structure RefundRequest.Verified (host : Host) (chain : Chain) (key : OutPoint)
    (request : RefundRequest) (msg : DepositMsg) : Prop where
  written : request.depositMsgJson = host.depositMsgToJson msg
  pays : PaysAt host key ⟨request.amount, host.pathScript chain (getDepositPath host msg)⟩

/-- The requests are for verified messages, and so are the promises to store one. -/
structure Ledger.Recorded (host : Host) (l : Ledger) : Prop where
  promises : ∀ p ∈ l.inflight, p.Grounded host l.chain
  requests : ∀ key request, l.requests.lookup key = some request →
    ∃ msg, request.Verified host l.chain key msg

variable {Completes : Ledger → OutPoint → Prop}

theorem Ledger.Recorded.initial {l : Ledger} (h : l.Initial) : l.Recorded host where
  promises := by
    intro p hp
    rw [h.inflight] at hp
    exact absurd hp (Multiset.notMem_zero p)
  requests := by
    intro key request hkey
    rw [h.requests] at hkey
    cases hkey

theorem Ledger.Recorded.step {cause : Cause} {l l' : Ledger} (hl : (cause.before l).Recorded host)
    (h : Effect host Completes cause l l') : l'.Recorded host := by
  refine ⟨h.promises_grounded hl.promises, fun key request hkey ↦ ?_⟩
  rw [h.chain]
  cases h.requested hkey with
  | kept hkey => exact hl.requests key request hkey
  | executed old call info nowSec hcall hcreates hrequest =>
    obtain ⟨msg, hmsg⟩ := hl.requests call.utxoStorageKey old hcreates.stored
    rw [hrequest, hcall]
    exact ⟨msg, hmsg.written, hmsg.pays⟩
  | new env msg refundAddress txId output vout gasFee result hcause hkey hnew hscript hrequest =>
    have hp := hl.promises (.requestRefund msg refundAddress txId output vout gasFee) (by
      rw [hcause]
      exact Multiset.mem_add.mpr (Or.inl (Multiset.mem_singleton_self _)))
    rw [hkey, hrequest]
    refine ⟨msg, rfl, ?_⟩
    change PaysAt host ⟨txId, vout⟩ ⟨output.value, host.depositScript l.chain msg⟩
    rw [← hscript]
    exact hp.1

theorem Ledger.Reached.recorded {l : Ledger} (h : Ledger.Reached host Completes l) :
    l.Recorded host :=
  Ledger.Reached.induct (fun _ h₀ ↦ .initial h₀) (fun _ _ _ _ hl heffect ↦ hl.step heffect) l h

/-- Parsing the JSON of a message gives back that message, distinct messages have distinct JSON and
distinct paths, and the message of a refund request has the path that was verified when it was
requested. -/
theorem Sys.Reachable.deposit_messages (laws : host.ReadsAddresses) (hserde : host.UsesSerde)
    (hhash : Function.Injective host.sha256Hex) {guard : Sys.Guard} {s : Sys}
    (h : Sys.Reachable host guard s) :
    (∀ msg : DepositMsg, host.depositMsgFromJson (host.depositMsgToJson msg) = some msg) ∧
    (∀ msg msg' : DepositMsg, msg ≠ msg' →
      host.depositMsgToJson msg ≠ host.depositMsgToJson msg' ∧
        getDepositPath host msg ≠ getDepositPath host msg') ∧
    ∀ key request, s.contract.refundRequests.lookup key = some request →
      ∃ msg, request.Verified host s.contract.config.chain key msg ∧
        request.depositMsg host = some msg := by
  have hread (msg : DepositMsg) :
      host.depositMsgFromJson (host.depositMsgToJson msg) = some msg := by
    rw [hserde.toJson, hserde.fromJson]
    exact msg.ofText_toText
  have hjson (msg msg' : DepositMsg)
      (heq : host.depositMsgToJson msg = host.depositMsgToJson msg') : msg = msg' := by
    rw [hserde.toJson, hserde.toJson] at heq
    exact DepositMsg.toText_injective heq
  refine ⟨hread, fun msg msg' hne ↦ ⟨fun heq ↦ hne (hjson msg msg' heq),
    fun heq ↦ hne (hjson msg msg' (hhash heq))⟩, fun key request hkey ↦ ?_⟩
  obtain ⟨msg, hmsg⟩ := (Sys.Reachable.anytime laws h).recorded.requests key request hkey
  refine ⟨msg, hmsg, ?_⟩
  rw [RefundRequest.depositMsg, hmsg.written]
  exact hread msg

namespace Sample

/-! ### A message with escapes -/

/-- A deposit for Bob with a post action whose message is JSON again. -/
def bobAppMsg : DepositMsg where
  recipientId := "bob.near"
  postActions := some [{
    receiverId := "app.near"
    amount := 5
    memo := none
    msg := "\x7b\"note\":\"first\\nsecond\"\x7d\n"
    gas := some (10 ^ 13)
    receiverId_valid := by decide +kernel
    amount_lt := by decide
    gas_lt := by decide }]
  extraMsg := none
  safeDeposit := none
  refundAddress := some "bob-address"
  recipientId_valid := by decide +kernel

/-- The script of the message's path, and a script of all other addresses. -/
def messageScript (path : Path) : ScriptBuf :=
  Numbering.word (if path = "h" ++ bobAppMsg.toText then 3 else 0)

/-- The sample host with the derived codec. -/
noncomputable def serdeHost : Host :=
  { Sample.host false with
    chainScript := fun _ _ path ↦ messageScript path
    parseAddress := fun _ address ↦ some ⟨some (messageScript address), none⟩
    addressOfScript := fun _ _ ↦ none
    depositMsgToJson := DepositMsg.toText
    depositMsgFromJson := DepositMsg.ofText }

theorem serdeHost_readsAddresses : serdeHost.ReadsAddresses where
  parse_chainAddress := fun _ _ _ ↦ ⟨none, rfl⟩
  parse_addressOfScript := fun _ _ _ _ _ _ _ h ↦ by cases h

theorem serdeHost_usesSerde : serdeHost.UsesSerde := ⟨fun _ ↦ rfl, fun _ ↦ rfl⟩

end Sample

/-- Bob's request is for the path of his message. -/
theorem deposit_messages_sample :
    ∃ s request, Sample.afterIn Sample.serdeHost
        (Sample.sync ++ Sample.requestRefund Sample.bobAppMsg 2 50) = some s ∧
      s.contract.refundRequests.lookup ⟨0, 2⟩ = some request ∧
      request.Verified Sample.serdeHost s.contract.config.chain ⟨0, 2⟩ Sample.bobAppMsg ∧
      request.depositMsg Sample.serdeHost = some Sample.bobAppMsg := by
  have hrun : ((Sample.afterIn Sample.serdeHost
      (Sample.sync ++ Sample.requestRefund Sample.bobAppMsg 2 50)).bind fun s ↦
        (s.contract.refundRequests.lookup ⟨0, 2⟩).map fun request ↦ request.depositMsgJson) =
      some Sample.bobAppMsg.toText := by
    decide +kernel
  obtain ⟨s, hs, hlookup⟩ := Option.bind_eq_some_iff.mp hrun
  obtain ⟨request, hrequest, hjson⟩ := Option.map_eq_some_iff.mp hlookup
  have hreach : Sys.Reachable Sample.serdeHost Sys.always s := Sample.reachesIn (by decide) hs
  obtain ⟨hroundTrip, _, hrequests⟩ := hreach.deposit_messages Sample.serdeHost_readsAddresses
    Sample.serdeHost_usesSerde (Sample.host_lawful false).sha256Hex_injective
  obtain ⟨msg, hmsg, hread⟩ := hrequests ⟨0, 2⟩ request hrequest
  have hown : request.depositMsg Sample.serdeHost = some Sample.bobAppMsg := by
    rw [RefundRequest.depositMsg, hjson]
    exact hroundTrip Sample.bobAppMsg
  rw [hown, Option.some.injEq] at hread
  rw [← hread] at hmsg
  exact ⟨s, request, hs, hrequest, hmsg, hown⟩

end SatoshiBridge
