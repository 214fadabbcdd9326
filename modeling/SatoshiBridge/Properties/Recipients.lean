import SatoshiBridge.Invariants.Payments
import SatoshiBridge.Model.SampleNetwork

/-!
# The recipient of a replaced withdrawal

A replacement by the user pays who the withdrawal pays. The Bitcoin build finds the recipient in the
signed withdrawal, through the script of its first output that is not change; the address printed
for that script has the script again.
-/

set_option autoImplicit false
set_option relaxedAutoImplicit false

namespace SatoshiBridge

variable {host : Host} {s : Sys}

/-- The script of the first output that is not change, when one output pays the recipient. -/
theorem find_recipient {change script : ScriptBuf} {amount : ℕ} {before after : List TxOut}
    (hne : script ≠ change) (hothers : ∀ o ∈ before ++ after, o.scriptPubkey = change) :
    (before ++ ⟨amount, script⟩ :: after).find? (fun o ↦ o.scriptPubkey ≠ change) =
      some ⟨amount, script⟩ := by
  have hbefore : before.find? (fun o ↦ o.scriptPubkey ≠ change) = none := by
    rw [List.find?_eq_none]
    intro o ho
    simpa using hothers o (List.mem_append_left after ho)
  rw [List.find?_append, hbefore, Option.none_or, List.find?_cons_of_pos]
  simpa using hne

/-- The withdrawal `o` pays the recipient at `target`. -/
structure PaysRecipient (host : Host) (chain : Chain) (target : String) (address : Address)
    (info : BTCPendingInfo) : Prop where
  parsed : host.parseAddress chain target = some address
  pays : Pays (IsChangeBeside host chain address) address info.actualReceivedAmount info.psbt

theorem Payment.recipient {chain : Chain} {payee : Option String} {info : BTCPendingInfo}
    (h : Payment host chain payee info)
    (hkind : info.state.kind = .withdrawOriginal ∨
      ∃ root, info.state.kind = .withdrawUserRbf root) :
    ∃ target ∈ payee, ∃ address, PaysRecipient host chain target address info := by
  obtain ⟨_, hpaid⟩ := h
  have hpaid' : info.burnAmount + info.withdrawFee = info.transferAmount ∧
      info.burnAmount = info.actualReceivedAmount + info.gasFee ∧
      ∃ target ∈ payee, ∃ address, host.parseAddress chain target = some address ∧
        Pays (IsChangeBeside host chain address) address info.actualReceivedAmount info.psbt := by
    rcases hkind with hkind | ⟨root, hkind⟩ <;> rw [hkind] at hpaid <;> exact hpaid
  obtain ⟨_, _, target, htarget, address, haddress, hpays⟩ := hpaid'
  exact ⟨target, htarget, address, haddress, hpays⟩

/-- A withdrawal without an original is one itself. -/
theorem withdrawOriginal_of {state : PendingInfoState} (horiginal : state.originalTxId = none)
    (hrelated : state.isWithdrawRelated = true) : state.kind = .withdrawOriginal := by
  cases state with
  | withdrawOriginal => rfl
  | withdrawUserRbf | withdrawCancelRbf => cases horiginal
  | activeUtxoManagementOriginal | activeUtxoManagementRbf | activeUtxoManagementCancelRbf
  | refund => cases hrelated

/-- The withdrawal named for a transaction pays its recipient. -/
theorem Ledger.Named.recipient {l : Ledger} {id : Txid} {payee : Option String}
    (h : l.Named host id true payee) :
    ∃ o, Mark.created o payee ∈ l.log ∧ o.btcPendingId = id ∧
      o.state.kind = .withdrawOriginal ∧ ∃ target ∈ payee, ∃ address,
        PaysRecipient host l.chain target address o := by
  obtain ⟨o, hmem, hid, horiginal, hrelated, hpayment⟩ := h
  have hkind := withdrawOriginal_of horiginal hrelated
  exact ⟨o, hmem, hid, hkind, hpayment.recipient (Or.inl hkind)⟩

/-- Every replacement by the user ever created pays the recipient of the withdrawal it replaces,
and the recipient extracted from a signed withdrawal is its recipient: on the Zcash build the
recorded address, on the Bitcoin build an address with the script of the output that pays, when that
is not the change script. -/
theorem Sys.Reachable.replacement_recipient {codecs : AddressCodecs} (laws : codecs.Lawful)
    (hnetwork : codecs.Describes host) {guard : Sys.Guard} (h : Sys.Reachable host guard s) :
    (∀ child payee root, Mark.created child payee ∈ s.log →
      child.state.kind = .withdrawUserRbf root →
      ∃ o target address, Mark.created o (some target) ∈ s.log ∧ o.btcPendingId = root ∧
        o.state.kind = .withdrawOriginal ∧
        PaysRecipient host s.contract.config.chain target address o ∧
        PaysRecipient host s.contract.config.chain target address child) ∧
    ∀ id o, s.contract.btcPendingInfos.lookup id = some o → o.state.kind = .withdrawOriginal →
      ∃ target address, (∃ o', Mark.created o' (some target) ∈ s.log ∧ o'.btcPendingId = id) ∧
        PaysRecipient host s.contract.config.chain target address o ∧
        (host.zcash = true → s.contract.extractRecipientAddress host o = some target) ∧
        (host.zcash = false → o.getTransaction.isSome = true →
          address.scriptPubkey ≠ some (host.changeScript s.contract.config.chain) →
          ∃ script text receiver, ⟨o.actualReceivedAmount, script⟩ ∈ o.psbt.vout ∧
            script ≠ host.changeScript s.contract.config.chain ∧
            s.contract.extractRecipientAddress host o = some text ∧
            host.parseAddress s.contract.config.chain text = some ⟨some script, receiver⟩) := by
  have hreads := hnetwork.readsAddresses laws
  have hreached : Ledger.Reached host Ledger.Anytime s.ledger :=
    h.ledger hreads fun _ _ _ ↦ trivial
  constructor
  · intro child payee root hmem hkind
    obtain ⟨payee', hnamed, hpayment⟩ := hreached.paid hreads child payee hmem
    obtain ⟨target', htarget', address', hpays'⟩ := hpayment.recipient (Or.inr ⟨root, hkind⟩)
    have hroot : child.root child.btcPendingId = root := by
      rw [BTCPendingInfo.root, BTCPendingInfo.getOriginalTxId, ← PendingInfoState.originalTxId_kind,
        hkind]
      rfl
    have hrelated : child.state.isWithdrawRelated = true := by
      rw [← PendingInfoState.isWithdrawRelated_kind, hkind]
      rfl
    rw [hroot, hrelated] at hnamed
    obtain ⟨o, hcreated, hid, horiginal, target, htarget, address, hpays⟩ := hnamed.recipient
    have hpayee : payee' = some target := htarget
    have hsame : target = target' := by
      rw [hpayee, Option.mem_some_iff] at htarget'
      exact htarget'
    have haddress : address' = address := by
      have hparsed := hpays'.parsed
      rw [← hsame, hpays.parsed, Option.some.injEq] at hparsed
      exact hparsed.symm
    rw [hpayee] at hcreated
    refine ⟨o, target, address, hcreated, hid, horiginal, hpays, ?_⟩
    rw [← haddress]
    exact ⟨by rw [hsame]; exact hpays'.parsed, hpays'.pays⟩
  · intro id o ho hkind
    obtain ⟨payee, ⟨hnamed, hpayment⟩, hrecipient⟩ := hreached.paying hreads id o ho
    obtain ⟨hrecorded, hnoNote, hready⟩ := hrecipient hkind
    change Payment host s.contract.config.chain payee o at hpayment
    obtain ⟨target, htarget, address, hpays⟩ := hpayment.recipient (Or.inl hkind)
    have hpayee : payee = some target := htarget
    have hroot : o.root id = id := by
      rw [BTCPendingInfo.root, BTCPendingInfo.getOriginalTxId, ← PendingInfoState.originalTxId_kind,
        hkind]
      rfl
    obtain ⟨o', hcreated, hid, _⟩ := hnamed
    rw [hpayee] at hcreated
    rw [hroot] at hid
    refine ⟨target, address, ⟨o', hcreated, hid⟩, hpays, ?_, ?_⟩
    · intro hzcash
      rw [hzcash, if_pos rfl, hpayee] at hrecorded
      rw [Contract.extractRecipientAddress, PsbtWrapper.getRecipientAddress, hrecorded]
    · intro hzcash hsigned hother
      rw [hzcash, if_neg Bool.false_ne_true] at hrecorded
      obtain ⟨tx, htx⟩ := Option.isSome_iff_exists.mp hsigned
      have hvout : tx.output = o.psbt.vout := by
        rw [(hreached.identified id o ho).signed tx htx]
        rfl
      have hchange := (Reachable.wellShaped hreads h).keyed.getChangeScriptPubkey_of_ready hreads
        hready
      have hpaid := hpays.pays
      cases hpaid with
      | note parsed horchard =>
        rw [hnoNote hzcash] at horchard
        cases horchard
      | output before after script hout hscript hothers hnone =>
        have hne : script ≠ host.changeScript s.contract.config.chain := by
          intro heq
          rw [heq] at hscript
          exact hother hscript
        have hfind : (before ++ ⟨o.actualReceivedAmount, script⟩ :: after).find? (fun out ↦
            out.scriptPubkey ≠ host.changeScript s.contract.config.chain) =
              some ⟨o.actualReceivedAmount, script⟩ :=
          find_recipient hne fun out hmem ↦ (hothers out hmem).1
        have hparsed := hpays.parsed
        rw [hnetwork.parseAddress, Option.map_eq_some_iff] at hparsed
        obtain ⟨parsed, hparse, rfl⟩ := hparsed
        obtain ⟨shown, text, hshown, hdisplay, hreparse, hsame⟩ :=
          AddressCodecs.parse_display_fromScript laws hparse hscript
        refine ⟨script, text, shown.extractOrchardReceiver, ?_, hne, ?_, ?_⟩
        · rw [hout]
          exact List.mem_append_right before List.mem_cons_self
        · rw [Contract.extractRecipientAddress, PsbtWrapper.getRecipientAddress, hrecorded]
          simp only [Option.bind_eq_bind, hchange, Option.bind_some, htx, hvout, hout, hfind,
            hnetwork.addressOfScript, hshown, hdisplay]
        · rw [hnetwork.parseAddress, hreparse, Option.map_some, NetworkAddress.payable, hsame]

namespace Sample

/-- Alice withdraws and replaces the signed withdrawal. -/
noncomputable def replacedWithdrawal : List Action :=
  sync ++ deposit aliceMsg 0 ++
    [.call (env "nbtc" 2 0) (.ftOnTransfer "alice" 900
      (.withdraw recipientText [⟨0, 0⟩] (withdrawalOutputs 890) none none))] ++ sign 2 ++
    [.call (env "alice" 3 10000) (.withdrawRbf 2 (withdrawalOutputs 870) none)]

/-- The replacement a mark creates for a withdrawal. -/
def userRbf (root : Txid) : Mark → Option (BTCPendingInfo × Option String)
  | .created info payee =>
    if info.state = .withdrawUserRbf ⟨.pendingSign, root⟩ then some (info, payee) else none
  | _ => none

end Sample

/-- The replacement of Alice's withdrawal. -/
theorem replacement_recipient_alice :
    ∃ s child payee, Sample.afterIn Sample.networkHost Sample.replacedWithdrawal = some s ∧
      Mark.created child payee ∈ s.log ∧ child.state.kind = .withdrawUserRbf 2 ∧
      ∃ o target address, Mark.created o (some target) ∈ s.log ∧ o.btcPendingId = 2 ∧
        o.state.kind = .withdrawOriginal ∧
        PaysRecipient Sample.networkHost s.contract.config.chain target address o ∧
        PaysRecipient Sample.networkHost s.contract.config.chain target address child := by
  have hrun : ((Sample.afterIn Sample.networkHost Sample.replacedWithdrawal).bind fun s ↦
      s.log.findSome? (Sample.userRbf 2)).isSome := by decide +kernel
  obtain ⟨⟨child, payee⟩, hfound⟩ := Option.isSome_iff_exists.mp hrun
  obtain ⟨s, hs, hfound⟩ := Option.bind_eq_some_iff.mp hfound
  obtain ⟨mark, hmem, hmark⟩ := List.exists_of_findSome?_eq_some hfound
  have hreach : Sys.Reachable Sample.networkHost Sys.always s := Sample.reachesIn (by decide) hs
  have hspec := (hreach.replacement_recipient Sample.codecs_lawful Sample.codecs_describe).1
  unfold Sample.userRbf at hmark
  split at hmark
  · rename_i info payee'
    split at hmark
    · rename_i hstate
      rw [Option.some.injEq, Prod.mk.injEq] at hmark
      rw [hmark.1] at hstate
      rw [hmark.1, hmark.2] at hmem
      have hkind : child.state.kind = .withdrawUserRbf 2 := by
        rw [hstate]
        rfl
      exact ⟨s, child, payee, hs, hmem, hkind, hspec child payee 2 hmem hkind⟩
    · cases hmark
  · cases hmark

end SatoshiBridge
