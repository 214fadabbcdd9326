import SatoshiBridge.Origins.Creations
import SatoshiBridge.Origins.Transfers
import SatoshiBridge.Properties.Commissions
import SatoshiBridge.Properties.Solvency

/-!
# Who pays for withdrawals

Nobody withdraws the tokens of somebody else: the owner of a withdrawal has sent its amount to the
bridge, with a message that asks for this withdrawal. The bridge is told of a transfer by the token
alone, and the token tells it of nothing but transfers that their senders have made.
-/

set_option autoImplicit false
set_option relaxedAutoImplicit false

namespace SatoshiBridge.World

open Transition (Once)

variable {σ : Setting} {w : World σ} {steps : Steps σ} {guard : Sys.Guard}

/-- A call that tells the bridge of a transfer is made by the token, for a transfer in flight. -/
theorem sends_of_asks {senderId : AccountId} {amount : ℕ} {target : String} {input : List OutPoint}
    {output : List TxOut} {maxGasFee : Option ℕ} {data : Option ChainSpecificData}
    (laws : σ.host.ReadsAddresses) (h : History guard steps w)
    (hasked : Once (Lifts (Sys.Asks σ.host
      (.ftOnTransfer senderId amount target input output maxGasFee data))) steps) :
    ∃ text, σ.readMessage text = some (.withdraw target input output maxGasFee data) ∧
      Once (SendsTransfer ⟨senderId, σ.host.currentAccountId, amount, text⟩) steps := by
  obtain ⟨⟨before, action, after⟩, hmem, a, hacts, env, method, rfl, hmethod, hpredecessor, _⟩ :=
    hasked
  obtain ⟨earlier, hearlier, _, _, hsuffix⟩ := h.taken hmem
  have htoken := reachable_token laws before hearlier.reachable
  cases hacts with
  | call _ _ hother => exact absurd (hpredecessor.trans htoken) hother
  | onTransfer index _ t msg hflow hreceiver henv hmsg =>
    cases hmethod
    have hsent := History.sends hearlier hreceiver (List.mem_of_getElem? hflow)
    rw [← hreceiver]
    exact ⟨t.msg, hmsg, hsent.suffix ((List.suffix_cons _ earlier).trans hsuffix)⟩

/-- The promise behind a withdrawal tells of the transfer that pays for it. -/
theorem transfer_of_withdrawal {p : Promise} {info : BTCPendingInfo} {payee : Option String}
    {s : OriginalState} (hkind : info.state = .withdrawOriginal s)
    (hcontinues : Once (Lifts (Sys.Continues σ.host p info payee)) steps)
    (hasked : Once (Lifts (Sys.Asks σ.host p)) steps) :
    ∃ target maxGasFee data, payee = some target ∧ (∀ m ∈ maxGasFee, info.gasFee ≤ m) ∧
      p = .ftOnTransfer info.accountId info.transferAmount target info.inputs info.psbt.vout
        maxGasFee data := by
  obtain ⟨step, _, a, _, hcontinues⟩ := hcontinues
  obtain ⟨env, height, receipt, _, hbuild, hresume, hmark⟩ := hcontinues.resumed
  cases p with
  | ftOnTransfer senderId amount target input output maxGasFee data =>
    have hnew := resume_withdrawal hbuild hresume hmark
    refine ⟨target, maxGasFee, data, hnew.payee, hnew.maxGas, ?_⟩
    rw [hnew.owner, hnew.transfer, hnew.inputs, hnew.outputs]
  | activeUtxoManagement accountId input output =>
    obtain ⟨s', hother⟩ := (resume_management hbuild hresume hmark).kind
    rw [hkind] at hother
    cases hother
  | rbf method accountId id output data predecessor =>
    obtain ⟨_, _, _, _, _, _, _, hasks, _, _⟩ := hasked
    obtain ⟨o, hnew⟩ := resume_replacement hbuild hasks.data hresume hmark
    cases hnew.rules with
    | withdrawRbf _ _ _ hstate | cancelWithdraw _ _ hstate | activeUtxoManagementRbf _ _ hstate
    | cancelActiveUtxoManagement _ _ hstate =>
      rw [hkind] at hstate
      cases hstate
  | executeRefund call data =>
    obtain ⟨request, hnew⟩ := resume_refund hbuild hresume hmark
    obtain ⟨s', hother⟩ := hnew.kind
    rw [hkind] at hother
    cases hother
  | _ => cases hresume

/-- In every run, the owner of a withdrawal that the bridge has created has sent its amount to the
bridge with a message that asks for its target, inputs and outputs, and for no less gas than it
pays. -/
theorem History.paid_by_owner (laws : σ.host.ReadsAddresses) (h : History guard steps w)
    {info : BTCPendingInfo} {payee : Option String} {s : OriginalState}
    (hcreated : Mark.created info payee ∈ w.log) (hkind : info.state = .withdrawOriginal s) :
    ∃ target text maxGasFee data, payee = some target ∧ (∀ m ∈ maxGasFee, info.gasFee ≤ m) ∧
      σ.readMessage text = some (.withdraw target info.inputs info.psbt.vout maxGasFee data) ∧
      Once (SendsTransfer
        ⟨info.accountId, σ.host.currentAccountId, info.transferAmount, text⟩) steps := by
  obtain ⟨p, hcontinues, hasked⟩ := h.created hcreated
  obtain ⟨target, maxGasFee, data, hpayee, hmax, rfl⟩ :=
    transfer_of_withdrawal hkind hcontinues hasked
  obtain ⟨text, htext, hsent⟩ := sends_of_asks laws h hasked
  exact ⟨target, text, maxGasFee, data, hpayee, hmax, htext, hsent⟩

/-- Alice has sent the tokens of her withdrawal. -/
theorem paid_sent :
    ∃ (w : World Sample.setting) (steps : Steps Sample.setting) (info : BTCPendingInfo)
      (target text : String) (maxGasFee : Option ℕ) (data : Option ChainSpecificData),
      Sample.worldAfter Sample.sent = some w ∧ History Sys.always steps w ∧
      Mark.created info (some target) ∈ w.log ∧ (∀ m ∈ maxGasFee, info.gasFee ≤ m) ∧
      Sample.setting.readMessage text =
        some (.withdraw target info.inputs info.psbt.vout maxGasFee data) ∧
      Once (SendsTransfer ⟨"alice", Sample.bridge, 1000, text⟩) steps := by
  have hrun : (Sample.worldAfter Sample.sent).map (fun w ↦ (Sys.createdIn w.log).map fun x ↦
      (x.1.accountId, x.1.transferAmount, x.1.state)) =
      some [("alice", 1000, .withdrawOriginal ⟨.pendingSign, 10, none, none⟩)] := by
    decide +kernel
  obtain ⟨w, hw, hfacts⟩ := Option.map_eq_some_iff.mp hrun
  have hmem : ("alice", 1000, PendingInfoState.withdrawOriginal ⟨.pendingSign, 10, none, none⟩) ∈
      (Sys.createdIn w.log).map fun x ↦ (x.1.accountId, x.1.transferAmount, x.1.state) := by
    rw [hfacts]
    exact List.mem_singleton_self _
  obtain ⟨info, payee, hcreated, hinfo⟩ := Sys.created_of_map hmem
  rw [Prod.mk.injEq, Prod.mk.injEq] at hinfo
  obtain ⟨haccount, hamount, hkind⟩ := hinfo
  have hreach : w.Reachable Sys.always := Sample.reachesWorld (by decide) hw
  obtain ⟨steps, hsteps⟩ := Transition.Reachable.history w hreach
  obtain ⟨target, text, maxGasFee, data, rfl, hmax, htext, hsent⟩ :=
    History.paid_by_owner (Sample.host_lawful false).toReadsAddresses hsteps hcreated hkind
  rw [haccount, hamount] at hsent
  exact ⟨w, steps, info, target, text, maxGasFee, data, hw, hsteps, hcreated, hmax, htext, hsent⟩

end SatoshiBridge.World
