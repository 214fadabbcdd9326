import SatoshiBridge.Invariants.Reserves

/-!
# What a burn callback finds

While its burn is in flight a transaction waits in the burn stage with its original, the account of
the owner and what the family reserved, unless the light client attested another transaction of the
family too.
-/

set_option autoImplicit false
set_option relaxedAutoImplicit false

namespace SatoshiBridge

variable {host : Host} {Completes : Ledger → OutPoint → Prop} {cause : Cause} {l l' : Ledger}

/-! ### Attestations -/

/-- The transactions the light client attested, each with the root of its family. -/
def attestations (log : List Mark) : List (Txid × Txid) :=
  log.filterMap fun
    | .attested txId root => some (txId, root)
    | _ => none

theorem mem_attestations {txId root : Txid} {log : List Mark} :
    (txId, root) ∈ attestations log ↔ Mark.attested txId root ∈ log := by
  rw [attestations, List.mem_filterMap]
  constructor
  · rintro ⟨m, hm, hattested⟩
    cases m with
    | attested txId' root' =>
      rw [Option.some.injEq, Prod.mk.injEq] at hattested
      rw [← hattested.1, ← hattested.2]
      exact hm
    | _ => cases hattested
  · intro hm
    exact ⟨_, hm, rfl⟩

/-- The light client never attested two transactions of one family. -/
def AttestsOnce (log : List Mark) : Prop :=
  ∀ root txId txId', (txId, root) ∈ attestations log → (txId', root) ∈ attestations log →
    txId = txId'

/-! ### The invariant -/

/-- What burn callbacks rely on. Keys and reservations are there from the start, a replacement
loses its original only to a confirmation, and what is confirmed was attested and has no burn in
flight any more. -/
structure Ledger.Prepared (host : Host) (l : Ledger) : Prop where
  ready : ∀ id info, l.pendings.lookup id = some info → info.state.isRefund = false →
    l.ready = true
  usage : ∀ id info, l.pendings.lookup id = some info → info.state.originalTxId = none →
    info.usage ≤ info.reservation
  orphan : ∀ id info root, l.pendings.lookup id = some info → info.state.originalTxId = some root →
    l.pendings.lookup root = none → ∃ txId, Mark.committed txId root ∈ l.log
  attested : ∀ id root, Mark.committed id root ∈ l.log → Mark.attested id root ∈ l.log
  inputs : ∀ id root, Mark.attested id root ∈ l.log →
    ∃ tx, host.computeTxid tx = id ∧ tx.input.map TxIn.previousOutput ≠ []
  uncommitted : ∀ p ∈ l.inflight, ∀ id, p.burns = some id →
    ∀ root, Mark.committed id root ∉ l.log

theorem Ledger.Prepared.initial (h : l.Initial) : l.Prepared host where
  ready := by
    intro id info hinfo
    rw [h.pendings] at hinfo
    cases hinfo
  usage := by
    intro id info hinfo
    rw [h.pendings] at hinfo
    cases hinfo
  orphan := by
    intro id info root hinfo
    rw [h.pendings] at hinfo
    cases hinfo
  attested := by
    intro id root hm
    rw [h.log] at hm
    cases hm
  inputs := by
    intro id root hm
    rw [h.log] at hm
    cases hm
  uncommitted := by
    intro p hp
    rw [h.inflight] at hp
    exact absurd hp (Multiset.notMem_zero p)

/-- A new original uses no more than it reserves. -/
theorem CreatesOriginal.usage_le {info : BTCPendingInfo} {payee : Option String}
    {rest : FiniteMap OutPoint UTXO} (h : CreatesOriginal host l info payee rest) :
    info.usage ≤ info.reservation := by
  have hpayment := h.payment.2
  rcases h.kind with hstate | hstate
  · have hnone : info.usage = 0 := by
      rw [BTCPendingInfo.usage, hstate]
    rw [hnone]
    exact Nat.zero_le _
  · rw [hstate] at hpayment
    rw [BTCPendingInfo.usage, BTCPendingInfo.reservation, hstate]
    exact hpayment.1.le

theorem BTCPendingInfo.usage_of_refund {info : BTCPendingInfo}
    (h : info.state.isRefund = true) : info.usage = 0 := by
  unfold usage
  cases hstate : info.state with
  | withdrawOriginal | withdrawUserRbf | refund => rfl
  | withdrawCancelRbf | activeUtxoManagementOriginal | activeUtxoManagementRbf
  | activeUtxoManagementCancelRbf =>
    rw [hstate] at h
    cases h

/-- Active management uses what it burns. -/
theorem BTCPendingInfo.usage_of_active {info : BTCPendingInfo}
    (hrelated : info.state.isWithdrawRelated = false) (hrefund : info.state.isRefund = false) :
    info.usage = info.burnAmount := by
  unfold usage
  cases hstate : info.state with
  | withdrawOriginal | withdrawUserRbf | withdrawCancelRbf =>
    rw [hstate] at hrelated
    cases hrelated
  | refund =>
    rw [hstate] at hrefund
    cases hrefund
  | _ => rfl

/-! ### One step -/

section Step

variable (laws : host.Lawful) (hreached : Ledger.Reached host Ledger.Unfinished (cause.before l))
  (hl : (cause.before l).Prepared host) (h : Effect host Ledger.Unfinished cause l l')

include hl h

theorem Ledger.Prepared.step_ready {id : Txid} {info : BTCPendingInfo}
    (hinfo : l'.pendings.lookup id = some info) (hrefund : info.state.isRefund = false) :
    l'.ready = true := by
  refine h.ready ?_
  cases h.enters hinfo with
  | carried old hold hcarries => exact hl.ready id old hold (hcarries.isRefund ▸ hrefund)
  | created payee rest hid hcreates => exact hcreates.ready
  | replaced root o o' payee extra hid hreplaces => exact hreplaces.ready
  | refunded call request nowSec hid hcreates =>
    rw [hcreates.kind] at hrefund
    cases hrefund

theorem Ledger.Prepared.step_usage {id : Txid} {info : BTCPendingInfo}
    (hinfo : l'.pendings.lookup id = some info) (horiginal : info.state.originalTxId = none) :
    info.usage ≤ info.reservation := by
  cases h.enters hinfo with
  | carried old hold hcarries =>
    rw [hcarries.usage]
    exact (hl.usage id old hold (hcarries.originalTxId ▸ horiginal)).trans
      (h.reservation_le hold hinfo)
  | created payee rest hid hcreates => exact hcreates.usage_le
  | replaced root o o' payee extra hid hreplaces =>
    rw [hreplaces.states.2.2.1] at horiginal
    cases horiginal
  | refunded call request nowSec hid hcreates =>
    have hrefund : info.state.isRefund = true := by
      rw [hcreates.kind]
      rfl
    rw [BTCPendingInfo.usage_of_refund hrefund]
    exact Nat.zero_le _

include laws hreached

/-- An original that goes was confirmed, or a replacement of it was. -/
theorem Ledger.Prepared.step_orphan {id root : Txid} {info : BTCPendingInfo}
    (hinfo : l'.pendings.lookup id = some info) (hchild : info.state.originalTxId = some root)
    (hnone : l'.pendings.lookup root = none) : ∃ txId, Mark.committed txId root ∈ l'.log := by
  have hstaged : (cause.before l).Staged := hreached.staged laws
  cases h.enters hinfo with
  | carried old hold hcarries =>
    have hchild' : old.state.originalTxId = some root := hcarries.originalTxId ▸ hchild
    cases ho : l.pendings.lookup root with
    | none =>
      obtain ⟨txId, hm⟩ := hl.orphan id old root hold hchild' ho
      exact ⟨txId, h.mem_log hm⟩
    | some o =>
      have hof : OriginalOf o old := hstaged.family id old root o hold hchild' ho
      rcases h.departs ho with ⟨o', ho'⟩ | hdeparts
      · rw [hnone] at ho'
        cases ho'
      · cases hdeparts with
        | confirmed hburns hm =>
          rw [BTCPendingInfo.root_of_original hof.original] at hm
          exact ⟨root, hm⟩
        | family txId hm => exact ⟨txId, hm⟩
        | dropped hdroppable =>
          rcases hdroppable with ⟨hreplacement, _⟩ | hrefund
          · exact absurd hof.original hreplacement
          · rw [hof.notRefund] at hrefund
            cases hrefund
        | finalised hrefund =>
          rw [hof.notRefund] at hrefund
          cases hrefund
  | created payee rest hid hcreates =>
    rw [hcreates.originalTxId] at hchild
    cases hchild
  | replaced root' o o' payee extra hid hreplaces hlog horiginal =>
    rw [hreplaces.states.2.2.1, Option.some.injEq] at hchild
    rw [← hchild, horiginal] at hnone
    cases hnone
  | refunded call request nowSec hid hcreates =>
    rw [hcreates.kind] at hchild
    cases hchild

theorem Ledger.Prepared.step_attested {id root : Txid} (hm : Mark.committed id root ∈ l'.log) :
    Mark.attested id root ∈ l'.log := by
  have hstaged : (cause.before l).Staged := hreached.staged laws
  have hspending : l.Spending host := (hreached.spending laws).of_before
  have hidentified : l.Identified host := hreached.identified
  rcases h.committedMark hm with hold | ⟨info, o, tx, s, hcommits, hroot, hstate, _, p, hp, hid⟩
  · exact h.mem_log (hl.attested id root hold)
  · obtain ⟨⟨root', hattested⟩, _⟩ := hstaged.burning p (Multiset.mem_add.mpr (Or.inl hp)) id hid
    have hsame := hspending.root_eq hidentified hcommits.pending (hcommits.isRefund hstate)
      (hspending.attested id root' hattested).1
    rw [hroot, hsame]
    exact h.mem_log hattested

theorem Ledger.Prepared.step_inputs {id root : Txid} (hm : Mark.attested id root ∈ l'.log) :
    ∃ tx, host.computeTxid tx = id ∧ tx.input.map TxIn.previousOutput ≠ [] := by
  have hspending : l.Spending host := (hreached.spending laws).of_before
  have hidentified : l.Identified host := hreached.identified
  rcases h.attestedMark hm with hold | ⟨info, hpending, hroot, hrefund⟩
  · exact hl.inputs id root hold
  · refine ⟨info.psbt.transaction host, (hidentified id info hpending).txid, ?_⟩
    rw [PsbtWrapper.transaction_input_keys]
    exact (hspending.pending id info hpending hrefund).1

/-- The burn that confirms a transaction was the only one in flight for it. -/
theorem Ledger.Prepared.step_uncommitted {p : Promise} (hp : p ∈ l'.inflight) {id : Txid}
    (hid : p.burns = some id) (root : Txid) : Mark.committed id root ∉ l'.log := by
  have hstaged : (cause.before l).Staged := hreached.staged laws
  have hspending : l.Spending host := (hreached.spending laws).of_before
  have hcases : p ∈ l.inflight ∨ ∃ info, l.pendings.lookup id = some info ∧
      info.state.stage = .pendingVerify := by
    rcases h.burnsSent with ⟨sent, hinflight, hsent⟩ | ⟨txId, info, hattests⟩
    · rw [hinflight] at hp
      rcases Multiset.mem_add.mp hp with hnew | hold
      · rw [hsent p hnew] at hid
        cases hid
      · exact Or.inl hold
    · obtain ⟨burn, hburn, hinflight⟩ := hattests.burn
      rw [hinflight] at hp
      rcases Multiset.mem_cons.mp hp with heq | hold
      · rw [heq, hburn, Option.some.injEq] at hid
        rw [← hid]
        exact Or.inr ⟨info, hattests.pending, hattests.stage⟩
      · exact Or.inl hold
  intro hm
  rcases h.committedMark hm with hold | ⟨info, o, tx, s, hcommits, _, hstate, _, q, hq, hburns⟩
  · rcases hcases with hp' | ⟨info, hinfo, _⟩
    · exact hl.uncommitted p (Multiset.mem_add.mpr (Or.inr hp')) id hid root hold
    · rw [(hspending.committed id root hold).2.2.1] at hinfo
      cases hinfo
  · rcases hcases with hp' | ⟨info', hinfo', hverify⟩
    · have htwo := Ledger.burns_taken hq hp' hburns hid
      have hone := hstaged.single id
      omega
    · have hburn := (hstaged.answered laws hreached ⟨q, hq, hburns⟩ hinfo').1
      rw [hverify] at hburn
      cases hburn

theorem Ledger.Prepared.step : l'.Prepared host where
  ready := fun _ _ hinfo hrefund ↦ hl.step_ready h hinfo hrefund
  usage := fun _ _ hinfo horiginal ↦ hl.step_usage h hinfo horiginal
  orphan := fun _ _ _ hinfo hchild hnone ↦ hl.step_orphan laws hreached h hinfo hchild hnone
  attested := fun _ _ hm ↦ hl.step_attested laws hreached h hm
  inputs := fun _ _ hm ↦ hl.step_inputs laws hreached h hm
  uncommitted := fun _ hp _ hid root ↦ hl.step_uncommitted laws hreached h hp hid root

end Step

theorem Ledger.Reached.prepared (laws : host.Lawful)
    (h : Ledger.Reached host Ledger.Unfinished l) : l.Prepared host :=
  Ledger.Reached.induct (fun _ h₀ ↦ .initial h₀)
    (fun _ _ _ hreached hl heffect ↦ hl.step laws hreached heffect) l h

/-! ### The callback -/

/-- A pending transaction and its original, ready to be settled as a withdrawal or as active
management. -/
structure Ledger.Settleable (l : Ledger) (txId : Txid) (withdraw : Bool) (info o : BTCPendingInfo) :
    Prop where
  pending : l.pendings.lookup txId = some info
  original : l.pendings.lookup (info.root txId) = some o
  signed : info.txBytesWithSign ≠ none
  ready : l.ready = true
  owner : o.accountId = info.accountId
  account : info.accountId ∈ l.accounts
  related : info.state.isWithdrawRelated = withdraw
  originalRelated : o.state.isWithdrawRelated = withdraw
  originalTxId : o.state.originalTxId = none
  originalNotRefund : o.state.isRefund = false
  usage : info.usage ≤ o.reservation
  reserved : o.reservation ≤ l.fees.reserved
  fee : withdraw = true → info.withdrawFee ≤ info.transferAmount

/-- The fee of a withdrawal is part of what the user sent. -/
theorem Ledger.Paying.withdrawFee_le (h : l.Paying host) {id : Txid} {o : BTCPendingInfo}
    (ho : l.pendings.lookup id = some o) (hrelated : o.state.isWithdrawRelated = true)
    (horiginal : o.state.originalTxId = none) : o.withdrawFee ≤ o.transferAmount := by
  obtain ⟨payee, ⟨_, _, hpayment⟩, _⟩ := h id o ho
  have hkind : o.state.kind = .withdrawOriginal := by
    cases hstate : o.state with
    | withdrawOriginal => rfl
    | withdrawUserRbf | withdrawCancelRbf =>
      rw [hstate] at horiginal
      cases horiginal
    | activeUtxoManagementOriginal | activeUtxoManagementRbf | activeUtxoManagementCancelRbf
    | refund =>
      rw [hstate] at hrelated
      cases hrelated
  rw [hkind] at hpayment
  rw [← hpayment.1]
  exact Nat.le_add_left _ _

/-- A transaction that waits for its burn and was not confirmed. -/
structure Ledger.Unsettled (l : Ledger) (id : Txid) : Prop where
  burning : l.Burning id
  uncommitted : ∀ root, Mark.committed id root ∉ l.log

/-- A transaction with a burn in flight waits for it. -/
theorem Ledger.Reached.unsettled (laws : host.Lawful)
    (h : Ledger.Reached host Ledger.Unfinished l) {p : Promise} (hp : p ∈ l.inflight) {id : Txid}
    (hid : p.burns = some id) : l.Unsettled id :=
  ⟨(h.staged laws).burning p hp id hid, (h.prepared laws).uncommitted p hp id hid⟩

section Answer

variable (laws : host.Lawful) (hreached : Ledger.Reached host Ledger.Unfinished l)
  (honce : AttestsOnce l.log)

include laws hreached honce

/-- A transaction that waits for its burn is pending, and so is its original. -/
theorem Ledger.Unsettled.pending {id : Txid} (h : l.Unsettled id) :
    ∃ info o, l.pendings.lookup id = some info ∧ info.state.stage = .pendingBurn ∧
      info.state.isRefund = false ∧ l.pendings.lookup (info.root id) = some o := by
  have hl : l.Prepared host := hreached.prepared laws
  have hspending : l.Spending host := hreached.spending laws
  have honce' {root txId txId' : Txid} (hm : Mark.attested txId root ∈ l.log)
      (hm' : Mark.attested txId' root ∈ l.log) : txId = txId' :=
    honce root txId txId' (mem_attestations.mpr hm) (mem_attestations.mpr hm')
  obtain ⟨⟨⟨root, hattested⟩, hburning⟩, huncommitted⟩ := h
  rcases hburning with ⟨info, hinfo, hstage, hrefund⟩ | ⟨txId, hcommitted⟩
  · have hroot := hspending.root_eq hreached.identified hinfo hrefund
      (hspending.attested id root hattested).1
    cases ho : l.pendings.lookup (info.root id) with
    | some o => exact ⟨info, o, hinfo, hstage, hrefund, ho⟩
    | none =>
      cases hchild : info.state.originalTxId with
      | none =>
        rw [BTCPendingInfo.root_of_original hchild, hinfo] at ho
        cases ho
      | some root' =>
        -- The original went with a member of the family that was attested, which is this one.
        rw [hroot] at ho
        rw [BTCPendingInfo.root_of_child hchild] at hroot
        rw [hroot] at hchild
        obtain ⟨txId, hcommitted⟩ := hl.orphan id info root hinfo hchild ho
        have hsame := honce' (hl.attested txId root hcommitted) hattested
        rw [hsame] at hcommitted
        exact absurd hcommitted (huncommitted root)
  · -- The transaction is the original of the family that was settled.
    have hown := hl.attested txId id hcommitted
    obtain ⟨tx, htx, hinputs⟩ := hl.inputs id root hattested
    obtain ⟨key, hkey⟩ := List.exists_mem_of_ne_nil _ hinputs
    have hroot : root = id := hspending.once key _ _
      ((hspending.attested id root hattested).1 tx htx key hkey)
      ((hspending.attested txId id hown).2 tx htx key hkey)
    rw [hroot] at hattested
    have hsame := honce' hown hattested
    rw [hsame] at hcommitted
    exact absurd hcommitted (huncommitted id)

/-- A transaction with a burn in flight is pending, and so is its original. -/
theorem Ledger.Prepared.answers {p : Promise} (hp : p ∈ l.inflight) {id : Txid}
    (hid : p.burns = some id) :
    ∃ info o, l.pendings.lookup id = some info ∧ info.state.stage = .pendingBurn ∧
      info.state.isRefund = false ∧ l.pendings.lookup (info.root id) = some o :=
  (hreached.unsettled laws hp hid).pending laws hreached honce

theorem Ledger.Reached.settleable {p : Promise} (hp : p ∈ l.inflight) {id : Txid}
    (hid : p.burns = some id) {withdraw : Bool} (hsettles : p.settles = some (id, withdraw)) :
    ∃ info o, info.state.isRefund = false ∧ l.Settleable id withdraw info o := by
  have hspending : l.Spending host := hreached.spending laws
  have hstaged : l.Staged := hreached.staged laws
  have hcovered : l.Covered := hreached.covered laws
  have hprepared : l.Prepared host := hreached.prepared laws
  obtain ⟨info, o, hinfo, hstage, hrefund, ho⟩ :=
    Ledger.Prepared.answers laws hreached honce hp hid
  have hsorted : l.SettlesAs host id withdraw := hreached.sorted laws p hp id withdraw hsettles
  have horiginalRelated := hsorted.original hspending hreached.identified hinfo hrefund ho
  obtain ⟨_, _, _, hrelated, _⟩ := hsorted
  have hsigned : info.txBytesWithSign ≠ none := by
    rw [Ne, ← (hstaged.pending id info hinfo).txBytes, hstage]
    exact nofun
  have hreserved : o.reservation ≤ l.fees.reserved := by
    rw [hreached.reserving laws]
    exact FiniteMap.le_total (f := fun _ info ↦ BTCPendingInfo.reservation info) ho
  have hready := hprepared.ready id info hinfo hrefund
  have haccount := hreached.owners id info hinfo
  have hpaying : l.Paying host := hreached.paying laws.toReadsAddresses
  refine ⟨info, o, hrefund, ?_⟩
  cases hchild : info.state.originalTxId with
  | none =>
    have hsame := ho
    rw [BTCPendingInfo.root_of_original hchild, hinfo, Option.some.injEq] at hsame
    rw [← hsame] at hreserved horiginalRelated ho ⊢
    exact {
      pending := hinfo
      original := ho
      signed := hsigned
      ready := hready
      owner := rfl
      account := haccount
      related := hrelated info hinfo
      originalRelated := horiginalRelated
      originalTxId := hchild
      originalNotRefund := hrefund
      usage := hprepared.usage id info hinfo hchild
      reserved := hreserved
      fee := fun hwithdraw ↦
        hpaying.withdrawFee_le hinfo ((hrelated info hinfo).trans hwithdraw) hchild }
  | some root =>
    have ho' := ho
    rw [BTCPendingInfo.root_of_child hchild] at ho'
    have hof := hstaged.family id info root o hinfo hchild ho'
    have hcovers := hcovered id info root o hinfo hchild ho'
    exact {
      pending := hinfo
      original := ho
      signed := hsigned
      ready := hready
      owner := hof.account.symm
      account := haccount
      related := hrelated info hinfo
      originalRelated := horiginalRelated
      originalTxId := hof.original
      originalNotRefund := hof.notRefund
      usage := hcovers.usage
      reserved := hreserved
      fee := by
        intro hwithdraw
        rw [hcovers.withdrawFee, hcovers.transferAmount]
        exact hpaying.withdrawFee_le ho' (horiginalRelated.trans hwithdraw) hof.original }

end Answer

end SatoshiBridge
