import SatoshiBridge.Invariants.Spending

/-!
# The stages of pending transactions

A pending transaction is in the sign stage exactly while a signature is missing, and it never goes
back there. While its burn is in flight it waits in the burn stage, unless another member of its
family was confirmed. A replacement whose original is pending has the owner of the original, which
is signed.
-/

set_option autoImplicit false
set_option relaxedAutoImplicit false

namespace SatoshiBridge

variable {host : Host} {Completes : Ledger → OutPoint → Prop} {cause : Cause} {l l' : Ledger}

/-! ### What becomes of a pending transaction -/

/-- How the stage of a pending transaction changes in a step. -/
inductive StageStep (cause : Cause) (id : Txid) (old info : BTCPendingInfo) : Prop
  | same (hstage : info.state.stage = old.state.stage)
      (hsignatures : info.signatures = old.signatures)
      (htxBytes : info.txBytesWithSign = old.txBytesWithSign)
  | signed (hmissing : ∃ signature ∈ old.signatures, signature = none)
      (hstill : ∃ signature ∈ info.signatures, signature = none)
      (hstage : info.state.stage = old.state.stage)
      (htxBytes : info.txBytesWithSign = old.txBytesWithSign)
  | completed (hmissing : ∃ signature ∈ old.signatures, signature = none)
      (hall : ∀ signature ∈ info.signatures, signature ≠ none)
      (hstage : info.state.stage = .pendingVerify) (htxBytes : info.txBytesWithSign ≠ none)
  | attested (hold : old.state.stage = .pendingVerify) (hstage : info.state.stage = .pendingBurn)
      (hsignatures : info.signatures = old.signatures)
      (htxBytes : info.txBytesWithSign = old.txBytesWithSign)
  | unburnt (hburns : ∃ p ∈ cause.taken, p.burns = some id)
      (hstage : info.state.stage = .pendingVerify) (hsignatures : info.signatures = old.signatures)
      (htxBytes : info.txBytesWithSign = old.txBytesWithSign)

theorem PendingInfoState.stage_setOriginalState {state : PendingInfoState} {s s' : OriginalState}
    (hs : state.originalState = some s) (hstage : s'.stage = s.stage) :
    (state.setOriginalState s').stage = state.stage := by
  cases state <;> cases hs <;> exact hstage

/-- A transaction that stays pending is carried on, in a stage that follows. -/
theorem Effect.kept (h : Effect host Completes cause l l') {id : Txid} {old info : BTCPendingInfo}
    (hold : l.pendings.lookup id = some old) (hinfo : l'.pendings.lookup id = some info) :
    Carries host old info ∧ StageStep cause id old info := by
  have hsame {old' : BTCPendingInfo} (hold' : l.pendings.lookup id = some old') : old' = old :=
    Option.some.inj (hold'.symm.trans hold)
  have hnew (hid : id = info.btcPendingId) (hfresh : l.pendings.lookup info.btcPendingId = none) :
      False := by
    rw [← hid, hold] at hfresh
    cases hfresh
  cases h.arises hinfo with
  | kept hold' =>
    rw [hsame hold']
    exact ⟨.refl host old, .same rfl rfl rfl⟩
  | created payee rest hid hcreates => exact (hnew hid hcreates.fresh).elim
  | replaced root o o' payee extra hid hreplaces => exact (hnew hid hreplaces.fresh).elim
  | refunded call request nowSec hid hcreates => exact (hnew hid hcreates.fresh).elim
  | original o child payee extra hreplaces =>
    have ho := hsame hreplaces.original
    subst ho
    obtain ⟨s, s', hs, hstage, hupdated⟩ := hreplaces.updated
    refine ⟨hreplaces.carries, .same ?_ ?_ ?_⟩
    · rw [hupdated]
      exact PendingInfoState.stage_setOriginalState hs hstage
    · rw [hupdated]
    · rw [hupdated]
  | signed old' hold' hsigns =>
    have ho := hsame hold'
    subst ho
    refine ⟨hsigns.carries, ?_⟩
    have hmissing := hsigns.missing
    obtain ⟨psbt, signatures, nowSec, ⟨hstill, rfl⟩ | ⟨hall, signed, _, rfl⟩⟩ := hsigns.same
    · exact .signed hmissing hstill rfl rfl
    · exact .completed hmissing hall (PendingInfoState.stage_setStage _ _) nofun
  | attested old' hold' hstage hrefund heq =>
    have ho := hsame hold'
    subst ho heq
    exact ⟨.of_state _ (PendingInfoState.kind_setStage _ _),
      .attested hstage (PendingInfoState.stage_setStage _ _) rfl rfl⟩
  | unburnt old' hold' heq hburns =>
    have ho := hsame hold'
    subst ho heq
    exact ⟨.of_state _ (PendingInfoState.kind_setStage _ _),
      .unburnt hburns (PendingInfoState.stage_setStage _ _) rfl rfl⟩

/-- How a pending transaction goes: it is confirmed, or another member of its family is, or it is
dropped, or it is a refund that is finalised. -/
inductive Departs (cause : Cause) (l' : Ledger) (id : Txid) (info : BTCPendingInfo) : Prop
  | confirmed (hburns : ∃ p ∈ cause.taken, p.burns = some id)
      (hm : Mark.committed id (info.root id) ∈ l'.log)
  | family (txId : Txid) (hm : Mark.committed txId id ∈ l'.log)
  | dropped (hdroppable : Droppable info)
  | finalised (hrefund : info.state.isRefund = true)

theorem Effect.departs (h : Effect host Completes cause l l') {id : Txid} {old : BTCPendingInfo}
    (hold : l.pendings.lookup id = some old) :
    (∃ info, l'.pendings.lookup id = some info) ∨ Departs cause l' id old := by
  have hinsert (k : Txid) (v : BTCPendingInfo) :
      ∃ info, (l.pendings.insert k v).lookup id = some info := by
    rw [FiniteMap.lookup_insert_eq]
    split
    · exact ⟨v, rfl⟩
    · exact ⟨old, hold⟩
  have hsettled {txId : Txid} {new : BTCPendingInfo} {p : Promise} (htaken : p ∈ cause.taken)
      (hburns : p.burns = some txId) (hnew : l.pendings.lookup txId = some new)
      (hm : Mark.committed txId (new.root txId) ∈ l'.log) :
      (∃ info, ((l.pendings.erase (new.root txId)).erase txId).lookup id = some info) ∨
        Departs cause l' id old := by
    by_cases hid : id = txId
    · subst hid
      rw [hold, Option.some.injEq] at hnew
      rw [← hnew] at hm
      exact Or.inr (.confirmed ⟨p, htaken, hburns⟩ hm)
    · by_cases hroot : id = new.root txId
      · rw [← hroot] at hm
        exact Or.inr (.family txId hm)
      · rw [AList.lookup_erase_ne hid, AList.lookup_erase_ne hroot]
        exact Or.inl ⟨old, hold⟩
  cases h with
  | create | sign | attest | burnFailed | refund => exact Or.inl (hinsert _ _)
  | replace cause root o o' new =>
    left
    rw [FiniteMap.lookup_insert_eq]
    split
    · exact ⟨new, rfl⟩
    · exact hinsert root o'
  | commitWithdraw env token account relayer amount relayerFee txId protocolFee result new o tx s
      fees hsuccess hcommits =>
    exact hsettled (Multiset.mem_singleton_self _) rfl hcommits.pending (by simp [Ledger.settle])
  | commitActive env token account relayer amount txId result new o tx s fees hsuccess hcommits =>
    exact hsettled (Multiset.mem_singleton_self _) rfl hcommits.pending (by simp [Ledger.settle])
  | discard env method ids rest infos hbrings htakes hdroppable =>
    obtain ⟨_, hlookups, hrest⟩ := FiniteMap.takeAll_spec htakes
    by_cases hid : id ∈ ids
    · right
      have hmem : l.pendings.lookup id ∈ infos.map some := by
        rw [← hlookups]
        exact List.mem_map_of_mem hid
      rw [hold] at hmem
      obtain ⟨info, hinfo, heq⟩ := List.mem_map.mp hmem
      rw [Option.some.injEq] at heq
      exact .dropped (hdroppable old (heq ▸ hinfo))
    · left
      rw [hrest id, if_neg hid]
      exact ⟨old, hold⟩
  | finalizeRefund env txId confirmations result info key hpending hrefund =>
    by_cases hid : id = txId
    · subst hid
      rw [hpending, Option.some.injEq] at hold
      exact Or.inr (.finalised (hold ▸ hrefund))
    · left
      rw [AList.lookup_erase_ne hid]
      exact ⟨old, hold⟩
  | configure | ignore | lose | setKey | issue | begin | finish | revert | complete | collectFee
  | claim | transferFailed | withdrawFee | feeFailed | request | reject => exact Or.inl ⟨old, hold⟩

/-! ### Burns in flight -/

/-- The burns in flight for a transaction. -/
def Ledger.burns (l : Ledger) (id : Txid) : ℕ := l.inflight.countP fun p ↦ p.burns = some id

/-- What sends a burn: the attestation of a transaction in the verify stage. -/
structure Attests (l l' : Ledger) (id : Txid) (info : BTCPendingInfo) : Prop where
  pending : l.pendings.lookup id = some info
  stage : info.state.stage = .pendingVerify
  notRefund : info.state.isRefund = false
  after : l'.pendings.lookup id = some { info with state := info.state.setStage .pendingBurn }
  mark : Mark.attested id (info.root id) ∈ l'.log
  burn : ∃ burn, burn.burns = some id ∧ l'.inflight = burn ::ₘ l.inflight

/-- A step sends no burn, or the burn of a transaction it attests. -/
theorem Effect.burnsSent (h : Effect host Completes cause l l') :
    (∃ sent, l'.inflight = sent + l.inflight ∧ ∀ p ∈ sent, p.burns = none) ∨
      ∃ id info, Attests l l' id info := by
  have hone {p : Promise} (hp : p.burns = none) (hinflight : l'.inflight = p ::ₘ l.inflight) :
      ∃ sent, l'.inflight = sent + l.inflight ∧ ∀ p ∈ sent, p.burns = none := by
    refine ⟨{p}, hinflight, fun q hq ↦ ?_⟩
    rw [Multiset.mem_singleton.mp hq]
    exact hp
  cases h with
  | issue env method p hissued =>
    refine Or.inl (hone ?_ rfl)
    cases p with
    | withdrawBurn | activeUtxoManagementBurn => exact hissued.elim
    | _ => rfl
  | begin env p m result info hmints =>
    refine Or.inl (hone ?_ rfl)
    cases hmints <;> rfl
  | revert env m result info =>
    refine Or.inl ⟨_, rfl, fun p hp ↦ ?_⟩
    unfold Promise.mintRevert at hp
    split at hp
    · rw [Multiset.mem_singleton.mp hp]
      rfl
    · exact absurd hp (Multiset.notMem_zero p)
  | attest env p burn result id withdraw info hverifies hpending hstage hrefund hburn =>
    refine Or.inr ⟨id, info, hpending, hstage, hrefund, AList.lookup_insert _, by simp, burn, ?_,
      rfl⟩
    cases hburn <;> rfl
  | commitWithdraw =>
    refine Or.inl ⟨_, rfl, fun p hp ↦ ?_⟩
    unfold refundTransfer at hp
    split at hp
    · rw [Multiset.mem_singleton.mp hp]
      rfl
    · exact absurd hp (Multiset.notMem_zero p)
  | claim => exact Or.inl (hone rfl rfl)
  | withdrawFee => exact Or.inl (hone rfl rfl)
  | configure | ignore | lose | setKey | finish | complete | collectFee | create | replace | sign
  | burnFailed | commitActive | discard | transferFailed | feeFailed | request | reject | refund
  | finalizeRefund =>
    exact Or.inl ⟨0, (zero_add _).symm, fun p hp ↦ absurd hp (Multiset.notMem_zero p)⟩

/-- A burn in flight is the only one of its transaction. -/
theorem Ledger.burns_taken {id : Txid} {p q : Promise} (hp : p ∈ cause.taken)
    (hq : q ∈ l.inflight) (hp' : p.burns = some id) (hq' : q.burns = some id) :
    2 ≤ (cause.before l).burns id := by
  unfold Ledger.burns Cause.before
  rw [Multiset.countP_add]
  have hfirst : 0 < cause.taken.countP fun p ↦ p.burns = some id :=
    Multiset.countP_pos.mpr ⟨p, hp, hp'⟩
  have hsecond : 0 < l.inflight.countP fun p ↦ p.burns = some id :=
    Multiset.countP_pos.mpr ⟨q, hq, hq'⟩
  omega

/-! ### The invariant -/

/-- A pending transaction is in the sign stage while a signature is missing. -/
structure BTCPendingInfo.Staged (info : BTCPendingInfo) : Prop where
  signatures : info.signatures ≠ []
  missing : info.state.stage = .pendingSign ↔ ∃ signature ∈ info.signatures, signature = none
  txBytes : info.state.stage = .pendingSign ↔ info.txBytesWithSign = none

/-- The transaction was attested and waits for its burn, or a member of the family of which it is
the original was confirmed. -/
def Ledger.Burning (l : Ledger) (id : Txid) : Prop :=
  (∃ root, Mark.attested id root ∈ l.log) ∧
    ((∃ info, l.pendings.lookup id = some info ∧ info.state.stage = .pendingBurn ∧
      info.state.isRefund = false) ∨ ∃ txId, Mark.committed txId id ∈ l.log)

/-- What a pending original has to do with a pending replacement of it. -/
structure OriginalOf (o info : BTCPendingInfo) : Prop where
  original : o.state.originalTxId = none
  notRefund : o.state.isRefund = false
  signed : o.state.stage ≠ .pendingSign
  account : info.accountId = o.accountId

structure Ledger.Staged (l : Ledger) : Prop where
  pending : ∀ id info, l.pendings.lookup id = some info → info.Staged
  burning : ∀ p ∈ l.inflight, ∀ id, p.burns = some id → l.Burning id
  single : ∀ id, l.burns id ≤ 1
  family : ∀ id info root o, l.pendings.lookup id = some info →
    info.state.originalTxId = some root → l.pendings.lookup root = some o → OriginalOf o info

theorem Ledger.Staged.initial (h : l.Initial) : l.Staged where
  pending := by
    intro id info hinfo
    rw [h.pendings] at hinfo
    cases hinfo
  burning := by
    intro p hp
    rw [h.inflight] at hp
    exact absurd hp (Multiset.notMem_zero p)
  single := by
    intro id
    rw [Ledger.burns, h.inflight, Multiset.countP_zero]
    exact Nat.zero_le 1
  family := by
    intro id info root o hinfo
    rw [h.pendings] at hinfo
    cases hinfo

/-! ### One step -/

theorem Unsigned.staged {info : BTCPendingInfo} (h : Unsigned host info)
    (hne : info.signatures ≠ []) : info.Staged := by
  obtain ⟨signature, hsignature⟩ := List.exists_mem_of_ne_nil _ hne
  have hmissing : ∃ signature ∈ info.signatures, signature = none :=
    ⟨signature, hsignature, h.signatures signature hsignature⟩
  exact ⟨hne, ⟨fun _ ↦ hmissing, fun _ ↦ h.stage⟩, ⟨fun _ ↦ h.txBytes, fun _ ↦ h.stage⟩⟩

/-- A transaction that is attested and not gone with its family is in the burn stage. -/
theorem Ledger.Burning.stage (hspending : l.Spending host) {id : Txid} {info : BTCPendingInfo}
    (h : l.Burning id) (hinfo : l.pendings.lookup id = some info) :
    info.state.stage = .pendingBurn ∧ info.state.isRefund = false := by
  rcases h.2 with ⟨info', hinfo', hstage⟩ | ⟨txId, hcommitted⟩
  · rw [hinfo, Option.some.injEq] at hinfo'
    rw [hinfo']
    exact hstage
  · have hnone := (hspending.committed txId id hcommitted).2.2.2
    rw [hinfo] at hnone
    cases hnone

theorem StageStep.staged {id : Txid} {old info : BTCPendingInfo} (h : StageStep cause id old info)
    (hcount : info.signatures.length = old.signatures.length) (hold : old.Staged)
    (hburning : (∃ p ∈ cause.taken, p.burns = some id) → old.state.stage = .pendingBurn) :
    info.Staged := by
  have hne : info.signatures ≠ [] := by
    rw [← List.length_pos_iff, hcount, List.length_pos_iff]
    exact hold.signatures
  cases h with
  | same hstage hsignatures htxBytes =>
    refine ⟨hne, ?_, ?_⟩
    · rw [hstage, hsignatures]
      exact hold.missing
    · rw [hstage, htxBytes]
      exact hold.txBytes
  | signed hmissing hstill hstage htxBytes =>
    have hsign : info.state.stage = .pendingSign := hstage.trans (hold.missing.mpr hmissing)
    refine ⟨hne, ⟨fun _ ↦ hstill, fun _ ↦ hsign⟩, ?_⟩
    rw [hstage, htxBytes]
    exact hold.txBytes
  | completed hmissing hall hstage htxBytes =>
    refine ⟨hne, ⟨fun hsign ↦ ?_, fun hstill ↦ ?_⟩, ⟨fun hsign ↦ ?_, fun hnone ↦ ?_⟩⟩
    · rw [hstage] at hsign
      cases hsign
    · obtain ⟨signature, hsignature, hnone⟩ := hstill
      exact absurd hnone (hall signature hsignature)
    · rw [hstage] at hsign
      cases hsign
    · exact absurd hnone htxBytes
  | attested hverify hstage hsignatures htxBytes =>
    refine ⟨hne, ?_, ?_⟩
    · rw [hstage, hsignatures, ← hold.missing, hverify]
      exact ⟨nofun, nofun⟩
    · rw [hstage, htxBytes, ← hold.txBytes, hverify]
      exact ⟨nofun, nofun⟩
  | unburnt hburns hstage hsignatures htxBytes =>
    refine ⟨hne, ?_, ?_⟩
    · rw [hstage, hsignatures, ← hold.missing, hburning hburns]
      exact ⟨nofun, nofun⟩
    · rw [hstage, htxBytes, ← hold.txBytes, hburning hburns]
      exact ⟨nofun, nofun⟩

/-- Nothing goes back to the sign stage. -/
theorem StageStep.signed_kept {id : Txid} {old info : BTCPendingInfo}
    (h : StageStep cause id old info) (hold : old.state.stage ≠ .pendingSign) :
    info.state.stage ≠ .pendingSign := by
  cases h with
  | same hstage | signed _ _ hstage =>
    rw [hstage]
    exact hold
  | completed _ _ hstage | attested _ hstage | unburnt _ hstage =>
    rw [hstage]
    exact nofun

/-- A transaction that waits for its burn waits for it still, unless the burn is answered. -/
theorem Ledger.Staged.keeps_burning (hl : (cause.before l).Staged)
    (h : Effect host Completes cause l l') {id : Txid} (hburning : l.Burning id)
    (hnotTaken : ¬∃ q ∈ cause.taken, q.burns = some id) : l'.Burning id := by
  obtain ⟨⟨root, hattested⟩, hwaits⟩ := hburning
  refine ⟨⟨root, h.mem_log hattested⟩, ?_⟩
  rcases hwaits with ⟨old, hold, hstage, hrefund⟩ | ⟨txId, hcommitted⟩
  · rcases h.departs hold with ⟨info, hinfo⟩ | hdeparts
    · left
      obtain ⟨hcarries, hstep⟩ := h.kept hold hinfo
      refine ⟨info, hinfo, ?_, hcarries.isRefund.trans hrefund⟩
      cases hstep with
      | same hsame => exact hsame.trans hstage
      | signed hmissing | completed hmissing =>
        have hsign := (hl.pending id old hold).missing.mpr hmissing
        rw [hstage] at hsign
        cases hsign
      | attested hverify =>
        rw [hstage] at hverify
        cases hverify
      | unburnt hburns => exact absurd hburns hnotTaken
    · cases hdeparts with
      | confirmed hburns hm => exact absurd hburns hnotTaken
      | family txId hm => exact Or.inr ⟨txId, hm⟩
      | dropped hdroppable =>
        rcases hdroppable with ⟨_, hnotBurn⟩ | hisRefund
        · exact absurd hstage hnotBurn
        · rw [hrefund] at hisRefund
          cases hisRefund
      | finalised hisRefund =>
        rw [hrefund] at hisRefund
        cases hisRefund
  · exact Or.inr ⟨txId, h.mem_log hcommitted⟩

section Step

variable (laws : host.Lawful) (hreached : Ledger.Reached host Ledger.Unfinished (cause.before l))
  (hl : (cause.before l).Staged) (h : Effect host Ledger.Unfinished cause l l')

include laws hreached hl h

omit h in
/-- The transaction whose burn is answered was in the burn stage. -/
theorem Ledger.Staged.answered {id : Txid} {info : BTCPendingInfo}
    (hburns : ∃ p ∈ cause.taken, p.burns = some id) (hinfo : l.pendings.lookup id = some info) :
    info.state.stage = .pendingBurn ∧ info.state.isRefund = false := by
  obtain ⟨p, hp, hid⟩ := hburns
  have hburning := hl.burning p (Multiset.mem_add.mpr (Or.inl hp)) id hid
  exact hburning.stage (hreached.spending laws) hinfo

theorem Ledger.Staged.step_pending {id : Txid} {info : BTCPendingInfo}
    (hinfo : l'.pendings.lookup id = some info) : info.Staged := by
  cases h.enters hinfo with
  | carried old hold hcarries =>
    refine (h.kept hold hinfo).2.staged hcarries.count (hl.pending id old hold) fun hburns ↦ ?_
    exact (hl.answered laws hreached hburns hold).1
  | created payee rest hid hcreates =>
    refine hcreates.toUnsigned.staged ?_
    rw [← List.length_pos_iff, hcreates.signatureCount, List.length_pos_iff]
    exact hcreates.nonempty
  | replaced root o o' payee extra hid hreplaces =>
    refine hreplaces.toUnsigned.staged ?_
    rw [← List.length_pos_iff, hreplaces.signatureCount, List.length_pos_iff]
    exact (hl.pending root o hreplaces.original).signatures
  | refunded call request nowSec hid hcreates =>
    refine hcreates.toUnsigned.staged ?_
    rw [← List.length_pos_iff, hcreates.signatureCount]
    exact Nat.one_pos

omit laws hreached in
/-- A burn that stays in flight: its transaction waits for it still. -/
theorem Ledger.Staged.still_burning {p : Promise} (hp : p ∈ l.inflight) {id : Txid}
    (hid : p.burns = some id) : l'.Burning id := by
  refine hl.keeps_burning h (hl.burning p (Multiset.mem_add.mpr (Or.inr hp)) id hid) ?_
  rintro ⟨q, hq, hq'⟩
  have htwo := Ledger.burns_taken hq hp hq' hid
  have hone := hl.single id
  omega

/-- An original whose replacement is pending after a step was pending before, as the same. -/
theorem Ledger.Staged.step_family {id root : Txid} {info o : BTCPendingInfo}
    (hinfo : l'.pendings.lookup id = some info) (hchild : info.state.originalTxId = some root)
    (ho : l'.pendings.lookup root = some o) : OriginalOf o info := by
  have hspending : l.Spending host := (hreached.spending laws).of_before
  have hfollows {o₀ : BTCPendingInfo} (ho₀ : l.pendings.lookup root = some o₀)
      (hof : OriginalOf o₀ info) : OriginalOf o info := by
    obtain ⟨hcarries, hstep⟩ := h.kept ho₀ ho
    exact ⟨hcarries.originalTxId.trans hof.original, hcarries.isRefund.trans hof.notRefund,
      hstep.signed_kept hof.signed, hof.account.trans hcarries.accountId.symm⟩
  cases h.enters hinfo with
  | carried old hold hcarries =>
    have hchild' : old.state.originalTxId = some root := hcarries.originalTxId ▸ hchild
    have hrefund : old.state.isRefund = false := by
      cases hstate : old.state <;> rw [hstate] at hchild' <;> first | rfl | cases hchild'
    have htaken := (hspending.pending id old hold hrefund).2.2
    rw [BTCPendingInfo.root_of_child hchild'] at htaken
    have hbefore : ∃ o₀, l.pendings.lookup root = some o₀ :=
      (hspending.arrives laws hreached h htaken ho).elim (fun hex ↦ hex) (fun hex ↦ hex)
    obtain ⟨o₀, ho₀⟩ := hbefore
    have hof := hl.family id old root o₀ hold hchild' ho₀
    exact hfollows ho₀ ⟨hof.original, hof.notRefund, hof.signed,
      hcarries.accountId.trans hof.account⟩
  | created payee rest hid hcreates =>
    rcases hcreates.kind with hstate | hstate <;> rw [hstate] at hchild <;> cases hchild
  | refunded call request nowSec hid hcreates =>
    rw [hcreates.kind] at hchild
    cases hchild
  | replaced root' o₀ o' payee extra hid hreplaces =>
    obtain ⟨horiginal, hrefund, hchild', _, _⟩ := hreplaces.states
    rw [hchild', Option.some.injEq] at hchild
    subst hchild
    refine hfollows hreplaces.original ⟨horiginal, hrefund, ?_, hreplaces.account⟩
    rw [hreplaces.originalStage]
    exact nofun

theorem Ledger.Staged.step : l'.Staged where
  pending := fun _ _ hinfo ↦ hl.step_pending laws hreached h hinfo
  burning := by
    intro p hp id hid
    rcases h.burnsSent with ⟨sent, hinflight, hsent⟩ | ⟨txId, info, hattests⟩
    · rw [hinflight] at hp
      rcases Multiset.mem_add.mp hp with hnew | hold
      · rw [hsent p hnew] at hid
        cases hid
      · exact hl.still_burning h hold hid
    · obtain ⟨burn, hburn, hinflight⟩ := hattests.burn
      rw [hinflight] at hp
      rcases Multiset.mem_cons.mp hp with heq | hold
      · rw [heq, hburn, Option.some.injEq] at hid
        subst hid
        exact ⟨⟨_, hattests.mark⟩, Or.inl ⟨_, hattests.after, PendingInfoState.stage_setStage _ _,
          (PendingInfoState.isRefund_setStage _ _).trans hattests.notRefund⟩⟩
      · exact hl.still_burning h hold hid
  single := by
    intro id
    have hbefore : l.burns id ≤ 1 := by
      refine le_trans ?_ (hl.single id)
      unfold Ledger.burns Cause.before
      rw [Multiset.countP_add]
      exact Nat.le_add_left _ _
    rcases h.burnsSent with ⟨sent, hinflight, hsent⟩ | ⟨txId, info, hattests⟩
    · have hnone : (sent.countP fun p ↦ p.burns = some id) = 0 := by
        rw [Multiset.countP_eq_zero]
        intro p hp hid
        rw [hsent p hp] at hid
        cases hid
      unfold Ledger.burns at hbefore ⊢
      rw [hinflight, Multiset.countP_add, hnone, zero_add]
      exact hbefore
    · obtain ⟨burn, hburn, hinflight⟩ := hattests.burn
      unfold Ledger.burns at hbefore ⊢
      rw [hinflight, Multiset.countP_cons, hburn]
      by_cases heq : txId = id
      · subst heq
        -- A transaction in the verify stage has no burn in flight.
        have hnone : (l.inflight.countP fun p ↦ p.burns = some txId) = 0 := by
          rw [Multiset.countP_eq_zero]
          intro p hp hid
          have hburning := hl.burning p (Multiset.mem_add.mpr (Or.inr hp)) txId hid
          have hstage := (hburning.stage (hreached.spending laws) hattests.pending).1
          rw [hattests.stage] at hstage
          cases hstage
        rw [hnone, if_pos rfl]
      · rw [if_neg fun hsome ↦ heq (Option.some.inj hsome)]
        exact hbefore
  family := fun _ _ _ _ hinfo hchild ho ↦ hl.step_family laws hreached h hinfo hchild ho

end Step

theorem Ledger.Reached.staged (laws : host.Lawful)
    (h : Ledger.Reached host Ledger.Unfinished l) : l.Staged :=
  Ledger.Reached.induct (fun _ h₀ ↦ .initial h₀)
    (fun _ _ _ hreached hl heffect ↦ hl.step laws hreached heffect) l h

/-! ### Cancellations that wait for the block height -/

/-- The family a promise will cancel, and the account it takes for the owner. -/
def Promise.cancels : Promise → Option (AccountId × Txid)
  | rbf .cancelWithdraw accountId id _ _ _ | rbf .cancelActiveUtxoManagement accountId id _ _ _ =>
    some (accountId, id)
  | _ => none

/-- A coin that every transaction with this id spends is spent already, or refunded. -/
def Ledger.Claimed (host : Host) (l : Ledger) (id : Txid) : Prop :=
  ∃ key, (∀ tx, host.computeTxid tx = id → key ∈ tx.input.map TxIn.previousOutput) ∧
    ((∃ root, (key, root) ∈ spentBy l.log) ∨ l.Refunded key)

theorem Effect.claimed (h : Effect host Completes cause l l') {id : Txid}
    (hclaimed : l.Claimed host id) : l'.Claimed host id := by
  obtain ⟨key, hkey, hwhy⟩ := hclaimed
  exact ⟨key, hkey, hwhy.imp (fun ⟨root, hspent⟩ ↦ ⟨root, h.mem_spentBy hspent⟩) h.refunded⟩

/-- The coins of a pending transaction are spent, or refunded. -/
theorem Ledger.Reached.claimed (laws : host.Lawful)
    (h : Ledger.Reached host Ledger.Unfinished l) {id : Txid} {info : BTCPendingInfo}
    (hinfo : l.pendings.lookup id = some info) : l.Claimed host id := by
  have hidentifies : Identifies host id info := h.identified id info hinfo
  cases hrefund : info.state.isRefund with
  | true =>
    obtain ⟨key, hinputs, hrefunded⟩ := (h.traced laws).pending id info hinfo hrefund
    refine ⟨key, fun tx htx ↦ ?_, Or.inr hrefunded⟩
    rw [hidentifies.inputs laws htx, hinputs]
    exact List.mem_singleton_self key
  | false =>
    obtain ⟨hnonempty, htaken, _⟩ := (h.spending laws).pending id info hinfo hrefund
    obtain ⟨key, hkey⟩ := List.exists_mem_of_ne_nil _ hnonempty
    refine ⟨key, fun tx htx ↦ ?_, Or.inl ⟨_, hidentifies.spent htaken key hkey⟩⟩
    rw [hidentifies.inputs laws htx]
    exact hkey

/-- No original is created from coins that are spent or refunded. -/
theorem CreatesOriginal.not_claimed {info : BTCPendingInfo} {payee : Option String}
    {rest : FiniteMap OutPoint UTXO} (hspending : l.Spending host)
    (hlife : ∀ key, l.Refunded key → key ∉ registered l.log)
    (h : CreatesOriginal host l info payee rest) : ¬l.Claimed host info.btcPendingId := by
  rintro ⟨key, hkey, hwhy⟩
  have hinput : key ∈ info.inputs := by
    rw [BTCPendingInfo.inputs, ← PsbtWrapper.transaction_input_keys host info.psbt]
    exact hkey _ h.named.symm
  rcases hwhy with ⟨root, hspent⟩ | hrefunded
  · exact hspending.unspent key (h.stored hinput) root hspent
  · exact hlife key hrefunded (hspending.stored key (h.stored hinput))

/-- A cancellation in flight knows the owner of its original. -/
def Ledger.Owned (host : Host) (l : Ledger) : Prop :=
  ∀ p ∈ l.inflight, ∀ accountId id, p.cancels = some (accountId, id) → l.Claimed host id ∧
    ∀ o, l.pendings.lookup id = some o → o.state.originalTxId = none →
      o.state.isRefund = false → o.accountId = accountId

theorem Ledger.Owned.step (laws : host.Lawful)
    (hreached : Ledger.Reached host Ledger.Unfinished (cause.before l))
    (hl : (cause.before l).Owned host) (h : Effect host Ledger.Unfinished cause l l') :
    l'.Owned host := by
  intro p hp accountId id hid
  have hbefore : l.Claimed host id ∧ ∀ old, l.pendings.lookup id = some old →
      old.state.originalTxId = none → old.state.isRefund = false →
        old.accountId = accountId := by
    rcases h.sent hp with hold | hsent
    · exact hl p (Multiset.mem_add.mpr (Or.inr hold)) accountId id hid
    · cases hsent with
      | issued env method hcause hissued =>
        cases p with
        | rbf method' accountId' id' output data predecessor =>
          obtain ⟨_, _, howner⟩ := hissued
          have hcancel : (method' = .cancelWithdraw ∨ method' = .cancelActiveUtxoManagement) ∧
              accountId' = accountId ∧ id' = id := by
            cases method' <;> cases hid <;> simp
          obtain ⟨hmethod, rfl, rfl⟩ := hcancel
          obtain ⟨o, ho, haccount⟩ := howner hmethod
          refine ⟨hreached.claimed laws ho, fun old hold _ _ ↦ ?_⟩
          rw [ho, Option.some.injEq] at hold
          rw [← hold]
          exact haccount
        | _ => cases hid
      | minted env q result info hcause hmints => cases hmints <;> cases hid
      | burning env q result txId withdraw info hcause hverifies hpending hrefund hburn =>
        cases hburn <;> cases hid
      | detached _ _ _ _ _ heq | transferred _ _ _ heq | claimed _ _ _ heq =>
        subst heq
        cases hid
  obtain ⟨hclaimed, howner⟩ := hbefore
  refine ⟨h.claimed hclaimed, fun o ho horiginal hrefund ↦ ?_⟩
  cases h.enters ho with
  | carried old hold hcarries =>
    rw [hcarries.originalTxId] at horiginal
    rw [hcarries.isRefund] at hrefund
    exact hcarries.accountId.trans (howner old hold horiginal hrefund)
  | created payee rest hid' hcreates =>
    have hlives := hreached.lives laws
    rw [hid'] at hclaimed
    exact (hcreates.not_claimed (hreached.spending laws).of_before
      (fun key hkey ↦ ((hlives.life key).refunded hkey).2) hclaimed).elim
  | replaced root o₀ o' payee extra hid' hreplaces =>
    rw [hreplaces.states.2.2.1] at horiginal
    cases horiginal
  | refunded call request nowSec hid' hcreates =>
    rw [hcreates.kind] at hrefund
    cases hrefund

theorem Ledger.Reached.owned (laws : host.Lawful)
    (h : Ledger.Reached host Ledger.Unfinished l) : l.Owned host := by
  refine Ledger.Reached.induct (fun l h₀ p hp ↦ ?_)
    (fun _ _ _ hreached hl heffect ↦ hl.step laws hreached heffect) l h
  rw [h₀.inflight] at hp
  exact absurd hp (Multiset.notMem_zero p)

/-! ### Owners -/

/-- The owners of the pending transactions have accounts. -/
def Ledger.Owners (l : Ledger) : Prop :=
  ∀ id info, l.pendings.lookup id = some info → info.accountId ∈ l.accounts

theorem Ledger.Owners.step (hl : (cause.before l).Owners) (h : Effect host Completes cause l l') :
    l'.Owners := by
  intro id info hinfo
  cases h.enters hinfo with
  | carried old hold hcarries =>
    rw [hcarries.accountId]
    exact h.accounts (hl id old hold)
  | created payee rest hid hcreates hlog howner => exact howner
  | replaced root o o' payee extra hid hreplaces =>
    rw [hreplaces.account]
    exact h.accounts (hl root o hreplaces.original)
  | refunded call request nowSec hid hcreates hlog howner => exact howner

theorem Ledger.Reached.owners (h : Ledger.Reached host Completes l) : l.Owners := by
  have hinit : ∀ l : Ledger, l.Initial → l.Owners := by
    intro l h₀ id info hinfo
    rw [h₀.pendings] at hinfo
    cases hinfo
  exact Ledger.Reached.induct hinit (fun _ _ _ _ hl heffect ↦ hl.step heffect) l h

end SatoshiBridge
