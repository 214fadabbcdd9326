import SatoshiBridge.Invariants.Grounds

/-!
# What every pending transaction pays

A transaction pays what was checked when it was created, and signing does not change it. A
replacement by the user pays the address of its original: the Zcash build has recorded it, the
Bitcoin build reads it back from the only output of the signed original that is not change.
-/

set_option autoImplicit false
set_option relaxedAutoImplicit false

namespace SatoshiBridge

variable {host : Host} {Completes : Ledger → OutPoint → Prop}

/-! ### Payments along the life of a transaction -/

theorem Pays.of_psbt {others : TxOut → Prop} {address : Address} {amount : ℕ}
    {psbt psbt' : PsbtWrapper} (h : Pays others address amount psbt)
    (hvout : psbt'.vout = psbt.vout) (horchard : psbt'.orchard = psbt.orchard) :
    Pays others address amount psbt' := by
  cases h with
  | output before after script hout hscript hothers hnone =>
    exact .output before after script (hvout.trans hout) hscript hothers (horchard.trans hnone)
  | note parsed hparsed hamount hrecipient hothers =>
    exact .note parsed (horchard.trans hparsed) hamount hrecipient (hvout ▸ hothers)

/-- Another stage or more signatures change no amount and no output. -/
theorem Payment.carries {chain : Chain} {payee : Option String} {old info : BTCPendingInfo}
    (h : Payment host chain payee old) (hc : Carries host old info) :
    Payment host chain payee info := by
  obtain ⟨hbalanced, hkind⟩ := h
  have horchard : info.psbt.orchardAmount = old.psbt.orchardAmount := by
    unfold PsbtWrapper.orchardAmount PsbtWrapper.extraOutputs
    rw [hc.orchard]
  refine ⟨?_, ?_⟩
  · unfold BTCPendingInfo.Balanced
    rw [hc.vutxos, hc.vout, horchard, hc.gasFee]
    exact hbalanced
  · rw [hc.kind, hc.burnAmount, hc.withdrawFee, hc.transferAmount, hc.actualReceivedAmount,
      hc.gasFee, hc.vutxos]
    cases hold : old.state.kind <;> rw [hold] at hkind
    case withdrawOriginal | withdrawUserRbf =>
      obtain ⟨hfee, hburn, target, htarget, address, haddress, hpays⟩ := hkind
      exact ⟨hfee, hburn, target, htarget, address, haddress, hpays.of_psbt hc.vout hc.orchard⟩
    case withdrawCancelRbf | activeUtxoManagementOriginal | activeUtxoManagementRbf
        | activeUtxoManagementCancelRbf =>
      obtain ⟨hburn, hnone, hchange⟩ := hkind
      exact ⟨hburn, hc.orchard.trans hnone, hc.vout ▸ hchange⟩
    case refund =>
      obtain ⟨hburn, hamount, target, htarget, address, haddress, hpays⟩ := hkind
      exact ⟨hburn, hamount, target, htarget, address, haddress,
        hpays.of_psbt hc.vout hc.orchard⟩

/-- The first output that is not change is the one that pays the user. -/
theorem find_payment {change script : ScriptBuf} {amount : ℕ} {before after : List TxOut}
    {output : TxOut} (hothers : ∀ o ∈ before ++ after, o.scriptPubkey = change)
    (hfind : (before ++ ⟨amount, script⟩ :: after).find? (fun o ↦ o.scriptPubkey ≠ change)
      = some output) : output.scriptPubkey = script := by
  have hne : output.scriptPubkey ≠ change := by simpa using List.find?_some hfind
  have hmem : output ∈ before ++ ⟨amount, script⟩ :: after := List.mem_of_find?_eq_some hfind
  rw [List.mem_append, List.mem_cons] at hmem
  rcases hmem with hmem | rfl | hmem
  · exact absurd (hothers output (List.mem_append_left after hmem)) hne
  · rfl
  · exact absurd (hothers output (List.mem_append_right before hmem)) hne

/-- What is known of a withdrawal its owner may replace. -/
structure Replaceable (host : Host) (chain : Chain) (payee : Option String)
    (o : BTCPendingInfo) : Prop where
  payment : Payment host chain payee o
  kind : o.state.kind = .withdrawOriginal
  recipient : o.psbt.recipientAddress = if host.zcash then payee else none
  noNote : host.zcash = false → o.psbt.orchard = none
  signed : ∀ tx, o.getTransaction = some tx → tx = o.psbt.transaction host

/-- A replacement that pays the recipient of its original pays the original's payee. -/
theorem Payment.of_recipient {chain : Chain} {payee payee' : Option String} {id : Txid}
    {o info : BTCPendingInfo} (laws : host.ReadsAddresses) (ho : Replaceable host chain payee o)
    (hrecipient : ∀ target ∈ payee', Recipient host chain o target)
    (hnote : host.zcash = false → info.psbt.orchard = none)
    (hkind : info.state.kind = .withdrawUserRbf id) (h : Payment host chain payee' info) :
    Payment host chain payee info := by
  obtain ⟨_, horiginal⟩ := ho.payment
  rw [ho.kind] at horiginal
  obtain ⟨_, _, target, htarget, address, haddress, hpays⟩ := horiginal
  obtain ⟨hbalanced, hpaid⟩ := h
  rw [hkind] at hpaid
  obtain ⟨hfee, hburn, target', htarget', address', haddress', hpays'⟩ := hpaid
  refine ⟨hbalanced, ?_⟩
  rw [hkind]
  have hrecorded := ho.recipient
  rcases hrecipient target' htarget' with hsome | ⟨hnone, tx, output, htx, hfind, hof⟩
  · cases hzcash : host.zcash with
    | false => rw [hzcash, hsome] at hrecorded; cases hrecorded
    | true =>
      rw [hzcash, hsome] at hrecorded
      exact ⟨hfee, hburn, target', hrecorded.symm, address', haddress', hpays'⟩
  · have hzcash : host.zcash = false := by
      cases hz : host.zcash with
      | false => rfl
      | true =>
        rw [hz, hnone] at hrecorded
        rw [Option.mem_def, ← show none = payee from hrecorded] at htarget
        cases htarget
    rw [ho.signed tx htx] at hfind
    cases hpays with
    | note parsed horchard => rw [ho.noNote hzcash] at horchard; cases horchard
    | output before after script hvout hscript hothers _ =>
      have hfirst : (before ++ ⟨o.actualReceivedAmount, script⟩ :: after).find?
          (fun out ↦ out.scriptPubkey ≠ host.changeScript chain) = some output := by
        rw [← hvout]
        exact hfind
      have houtput : output.scriptPubkey = script :=
        find_payment (fun out hmem ↦ (hothers out hmem).1) hfirst
      rw [houtput] at hof
      obtain ⟨receiver, hparse⟩ :=
        laws.parse_addressOfScript chain target address script target' haddress hscript hof
      rw [haddress', Option.some.injEq] at hparse
      have hsame : address'.scriptPubkey = address.scriptPubkey := by
        rw [hparse, hscript]
      refine ⟨hfee, hburn, target, htarget, address, haddress, ?_⟩
      cases hpays' with
      | note parsed horchard => rw [hnote hzcash] at horchard; cases horchard
      | output before' after' script' hvout' hscript' hothers' hnone' =>
        refine .output before' after' script' hvout' (hsame ▸ hscript') ?_ hnone'
        intro o hmem
        exact ⟨(hothers' o hmem).1, hsame ▸ (hothers' o hmem).2⟩

/-! ### The invariants -/

/-- A pending transaction stored under the id of the transaction its psbt will become, which is
also what has been signed. -/
structure Identifies (host : Host) (id : Txid) (info : BTCPendingInfo) : Prop where
  named : info.btcPendingId = id
  txid : host.computeTxid (info.psbt.transaction host) = id
  signed : ∀ tx, info.getTransaction = some tx → tx = info.psbt.transaction host

theorem Unsigned.identifies {info : BTCPendingInfo} (h : Unsigned host info) :
    Identifies host info.btcPendingId info where
  named := rfl
  txid := h.named.symm
  signed := by
    intro tx htx
    rw [BTCPendingInfo.getTransaction, h.txBytes] at htx
    cases htx

theorem Identifies.of_state {id : Txid} {info : BTCPendingInfo} (h : Identifies host id info)
    (state : PendingInfoState) : Identifies host id { info with state := state } :=
  ⟨h.named, h.txid, h.signed⟩

/-- Every pending transaction is stored under its id. -/
def Ledger.Identified (host : Host) (l : Ledger) : Prop :=
  ∀ id info, l.pendings.lookup id = some info → Identifies host id info

theorem Ledger.Identified.step {cause : Cause} {l l' : Ledger} (hl : l.Identified host)
    (h : Effect host Completes cause l l') : l'.Identified host := by
  intro id info hinfo
  cases h.arises hinfo with
  | kept hold => exact hl id info hold
  | created payee rest hid hcreates => exact hid ▸ hcreates.toUnsigned.identifies
  | replaced root o o' payee extra hid hreplaces => exact hid ▸ hreplaces.toUnsigned.identifies
  | refunded call request nowSec hid hcreates => exact hid ▸ hcreates.toUnsigned.identifies
  | original o child payee extra hreplaces =>
    obtain ⟨s, s', _, _, rfl⟩ := hreplaces.updated
    exact (hl id o hreplaces.original).of_state _
  | attested old hold hstage hrefund heq => subst heq; exact (hl id old hold).of_state _
  | unburnt old hold heq => subst heq; exact (hl id old hold).of_state _
  | signed old hold hsigns =>
    have hold := hl id old hold
    refine ⟨hsigns.carries.btcPendingId.trans hold.named, ?_, ?_⟩
    · rw [hsigns.transaction]
      exact hold.txid
    · intro tx htx
      rw [hsigns.transaction]
      obtain ⟨psbt, signatures, nowSec, ⟨_, rfl⟩ | ⟨_, signed, hsigned, rfl⟩⟩ := hsigns.same
      · exact hold.signed tx htx
      · rw [BTCPendingInfo.getTransaction, Option.bind_eq_bind, Option.bind_some,
          Option.some.injEq] at htx
        rw [← htx, hsigned]

theorem Ledger.Reached.identified {l : Ledger} (h : Ledger.Reached host Completes l) :
    l.Identified host := by
  refine Ledger.Reached.induct (fun l h₀ id info hinfo ↦ ?_) (fun cause l l' _ hl heffect ↦ ?_) l h
  · rw [h₀.pendings] at hinfo
    cases hinfo
  · exact Ledger.Identified.step (l := l) hl heffect

/-- An original, or a refund, that was created with this id, and the address named for it. -/
def Ledger.Named (host : Host) (l : Ledger) (id : Txid) (withdraw : Bool)
    (payee : Option String) : Prop :=
  ∃ info, Mark.created info payee ∈ l.log ∧ info.btcPendingId = id ∧
    info.state.originalTxId = none ∧ info.state.isWithdrawRelated = withdraw ∧
    Payment host l.chain payee info

/-- The transaction pays the address named for its original, or for itself. -/
def Ledger.PaysNamed (host : Host) (l : Ledger) (id : Txid) (info : BTCPendingInfo)
    (payee : Option String) : Prop :=
  l.Named host (info.root id) info.state.isWithdrawRelated payee ∧ Payment host l.chain payee info

/-- Every pending transaction pays the address named for its original, or for itself, and a
withdrawal records its address where the build does. -/
def Ledger.Paying (host : Host) (l : Ledger) : Prop :=
  ∀ id info, l.pendings.lookup id = some info → ∃ payee, l.PaysNamed host id info payee ∧
    (info.state.kind = .withdrawOriginal →
      info.psbt.recipientAddress = (if host.zcash then payee else none) ∧
      (host.zcash = false → info.psbt.orchard = none) ∧ l.ready = true)

theorem Effect.named {cause : Cause} {l l' : Ledger} (h : Effect host Completes cause l l')
    {id : Txid} {withdraw : Bool} {payee : Option String}
    (hnamed : l.Named host id withdraw payee) :
    l'.Named host id withdraw payee := by
  obtain ⟨info, hmem, hid, horiginal, hwithdraw, hpayment⟩ := hnamed
  rw [← h.chain] at hpayment
  exact ⟨info, h.mem_log hmem, hid, horiginal, hwithdraw, hpayment⟩

theorem Ledger.Paying.step {cause : Cause} {l l' : Ledger} (laws : host.ReadsAddresses)
    (hl : l.Paying host) (hidentified : l.Identified host) (h : Effect host Completes cause l l') :
    l'.Paying host := by
  have hown {id : Txid} {info : BTCPendingInfo} {payee : Option String}
      (hid : id = info.btcPendingId) (hkind : info.state.originalTxId = none)
      (hmem : Mark.created info payee ∈ l'.log) (hpayment : Payment host l.chain payee info) :
      l'.PaysNamed host id info payee := by
    rw [← h.chain] at hpayment
    refine ⟨?_, hpayment⟩
    rw [BTCPendingInfo.root, BTCPendingInfo.getOriginalTxId, hkind, Option.getD_none]
    exact ⟨info, hmem, hid.symm, hkind, rfl, hpayment⟩
  intro id info hinfo
  cases h.enters hinfo with
  | carried old hold hcarries =>
    obtain ⟨payee, ⟨hnamed, hpayment⟩, hrecipient⟩ := hl id old hold
    refine ⟨payee, ⟨?_, ?_⟩, ?_⟩
    · rw [hcarries.root, hcarries.isWithdrawRelated]
      exact h.named hnamed
    · rw [h.chain]
      exact hpayment.carries hcarries
    · rw [hcarries.kind, hcarries.recipient, hcarries.orchard]
      intro hkind
      obtain ⟨hrecorded, hnoNote, hready⟩ := hrecipient hkind
      exact ⟨hrecorded, hnoNote, h.ready hready⟩
  | created payee rest hid hcreates hlog =>
    have hkind : info.state.originalTxId = none := by
      rcases hcreates.kind with hstate | hstate <;> rw [hstate] <;> rfl
    have hmem : Mark.created info payee ∈ l'.log := by
      rw [hlog]
      simp
    refine ⟨payee, hown hid hkind hmem hcreates.payment, fun hwithdraw ↦ ⟨?_, hcreates.noNote, ?_⟩⟩
    · refine hcreates.recipient ?_
      rw [← PendingInfoState.isWithdrawRelated_kind, hwithdraw]
      rfl
    · exact h.ready hcreates.ready
  | refunded call request nowSec hid hcreates hlog =>
    have hkind : info.state.originalTxId = none := by
      rw [hcreates.kind]
      rfl
    have hmem : Mark.created info (some request.refundAddress) ∈ l'.log := by
      rw [hlog]
      simp
    refine ⟨some request.refundAddress, hown hid hkind hmem hcreates.payment, ?_⟩
    intro hwithdraw
    rw [hcreates.kind] at hwithdraw
    cases hwithdraw
  | replaced root o o' payee' extra hid hreplaces hlog =>
    obtain ⟨payee, ⟨hnamed, hpayment⟩, hrecipient⟩ := hl root o hreplaces.original
    have hkind := hreplaces.kind
    have hpaid := hreplaces.payment
    obtain ⟨horiginal, _, hchild, _, hrelated⟩ := hreplaces.states
    have hnot : info.state.kind ≠ .withdrawOriginal := by
      intro heq
      rw [← PendingInfoState.originalTxId_kind, heq] at hchild
      cases hchild
    obtain ⟨ostate, hos⟩ : ∃ state, o.state = state := ⟨_, rfl⟩
    obtain ⟨istate, his⟩ : ∃ state, info.state = state := ⟨_, rfl⟩
    rw [hos, his] at hkind
    rw [BTCPendingInfo.root_of_original horiginal] at hnamed
    have hpays : Payment host l.chain payee info := by
      cases hkind with
      | user s hnone =>
        have hwithdraw : o.state.kind = .withdrawOriginal := by rw [hos]; rfl
        obtain ⟨hrecorded, hnoNote, _⟩ := hrecipient hwithdraw
        exact hpaid.of_recipient laws
          ⟨hpayment, hwithdraw, hrecorded, hnoNote,
            (hidentified root o hreplaces.original).signed⟩
          hreplaces.recipient hreplaces.noNote (show info.state.kind = .withdrawUserRbf root by
            rw [his]
            rfl)
      | cancel | activeRbf | activeCancel =>
        obtain ⟨hbalanced, hpaid⟩ := hpaid
        rw [his] at hpaid
        exact ⟨hbalanced, by rw [his]; exact hpaid⟩
    refine ⟨payee, ⟨?_, ?_⟩, fun hwithdraw ↦ absurd hwithdraw hnot⟩
    · rw [BTCPendingInfo.root_of_child hchild, hrelated]
      exact h.named hnamed
    · rw [h.chain]
      exact hpays

theorem Ledger.Reached.paying (laws : host.ReadsAddresses) {l : Ledger}
    (h : Ledger.Reached host Completes l) : l.Paying host := by
  refine Ledger.Reached.induct (fun l h₀ id info hinfo ↦ ?_)
    (fun cause l l' hreached hl heffect ↦ ?_) l h
  · rw [h₀.pendings] at hinfo
    cases hinfo
  · have hidentified := hreached.identified
    exact Ledger.Paying.step (l := l) laws hl hidentified heffect

/-! ### Transactions of the past -/

/-- Whatever was created paid the address named for its original, or for itself. -/
def Ledger.Paid (host : Host) (l : Ledger) : Prop :=
  ∀ info payee, Mark.created info payee ∈ l.log →
    ∃ payee', l.PaysNamed host info.btcPendingId info payee'

theorem Ledger.Reached.paid (laws : host.ReadsAddresses) {l : Ledger}
    (h : Ledger.Reached host Completes l) : l.Paid host := by
  refine Ledger.Reached.induct (fun l h₀ info payee hmem ↦ ?_)
    (fun cause l l' hreached hl heffect info payee hmem ↦ ?_) l h
  · rw [h₀.log] at hmem
    exact absurd hmem List.not_mem_nil
  · rcases heffect.created hmem with hold | hpending
    · obtain ⟨payee', hnamed, hpayment⟩ := hl info payee hold
      refine ⟨payee', heffect.named hnamed, ?_⟩
      rw [heffect.chain]
      exact hpayment
    · have hpaying : l'.Paying host :=
        Ledger.Paying.step (l := l) laws (hreached.paying laws) hreached.identified heffect
      obtain ⟨payee', hpays, _⟩ := hpaying info.btcPendingId info hpending
      exact ⟨payee', hpays⟩

end SatoshiBridge
