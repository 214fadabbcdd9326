import Mathlib.Algebra.Order.BigOperators.Group.Finset
import SatoshiBridge.Treasury.Tokens

/-!
# Burns on their way

A burn in flight is for what its transaction says. The transactions whose burns are executed and not
settled stay pending with their originals, which are all different, so that their costs are in the
escrow and in the reserved fees together.
-/

set_option autoImplicit false
set_option relaxedAutoImplicit false

namespace SatoshiBridge

variable {host : Host} {Completes : Ledger → OutPoint → Prop} {cause : Cause} {l l' : Ledger}

/-! ### What a burn is for -/

theorem BurnOf.carries {token : AccountId} {old info : BTCPendingInfo} {txId : Txid}
    {withdraw : Bool} {p : Promise} (h : BurnOf token old txId withdraw p)
    (hcarries : Carries host old info) : BurnOf token info txId withdraw p := by
  cases h with
  | withdraw relayer relayerFee protocolFee hfee =>
    rw [← hcarries.accountId, ← hcarries.burnAmount]
    exact .withdraw relayer relayerFee protocolFee (hfee.trans hcarries.withdrawFee.symm)
  | active relayer =>
    rw [← hcarries.accountId, ← hcarries.burnAmount]
    exact .active relayer

/-- Every burn in flight is what its transaction says. -/
def Ledger.Priced (l : Ledger) : Prop :=
  ∀ p ∈ l.inflight, ∀ id info, p.burns = some id → l.pendings.lookup id = some info →
    ∃ token withdraw, BurnOf token info id withdraw p

theorem Ledger.Priced.step (laws : host.Lawful)
    (hreached : Ledger.Reached host Ledger.Unfinished (cause.before l))
    (hl : (cause.before l).Priced) (h : Effect host Ledger.Unfinished cause l l') :
    l'.Priced := by
  intro p hp id info hid hinfo
  have hkept {old : BTCPendingInfo} (hold : l.pendings.lookup id = some old)
      (hburn : ∃ token withdraw, BurnOf token old id withdraw p) :
      ∃ token withdraw, BurnOf token info id withdraw p := by
    obtain ⟨token, withdraw, hburn⟩ := hburn
    exact ⟨token, withdraw, hburn.carries (h.kept hold hinfo).1⟩
  rcases h.sent hp with hold | hsent
  · have hbefore : p ∈ (cause.before l).inflight := Multiset.mem_add.mpr (Or.inr hold)
    obtain ⟨_, ⟨old, hpending, _⟩ | ⟨txId, hcommitted⟩⟩ :=
      (hreached.staged laws).burning p hbefore id hid
    · exact hkept hpending (hl p hbefore id old hid hpending)
    · -- The transaction went with its family, and does not come back.
      have hspending' := (hreached.step h).spending laws
      have hnone := (hspending'.committed txId id (h.mem_log hcommitted)).2.2.2
      rw [hinfo] at hnone
      cases hnone
  · cases hsent with
    | issued env method hcause hissued =>
      cases p with
      | withdrawBurn | activeUtxoManagementBurn => exact hissued.elim
      | _ => cases hid
    | minted env q result info' hcause hmints => cases hmints <;> cases hid
    | burning env q result txId withdraw old hcause hverifies hpending hrefund hburn =>
      have htxId : txId = id := by
        cases hburn <;> exact Option.some.inj hid
      rw [htxId] at hpending hburn
      exact hkept hpending ⟨_, _, hburn⟩
    | detached _ _ _ _ _ heq | transferred _ _ _ heq | claimed _ _ _ heq =>
      rw [heq] at hid
      cases hid

/-- A burn in flight is what its transaction says, of its kind. -/
theorem Ledger.Reached.burnOf (laws : host.Lawful) (h : Ledger.Reached host Ledger.Unfinished l)
    {p : Promise} (hp : p ∈ l.inflight) {id : Txid} (hid : p.burns = some id)
    {info : BTCPendingInfo} (hinfo : l.pendings.lookup id = some info) :
    ∃ token withdraw, BurnOf token info id withdraw p ∧
      info.state.isWithdrawRelated = withdraw := by
  have hinit : ∀ l : Ledger, l.Initial → l.Priced := by
    intro l h₀ p hp
    rw [h₀.inflight] at hp
    exact absurd hp (Multiset.notMem_zero p)
  have hpriced : l.Priced := Ledger.Reached.induct hinit
    (fun _ _ _ hreached hl heffect ↦ hl.step laws hreached heffect) l h
  obtain ⟨token, withdraw, hburn⟩ := hpriced p hp id info hid hinfo
  obtain ⟨_, _, _, hkind, _⟩ := h.sorted laws p hp id withdraw hburn.settles
  exact ⟨token, withdraw, hburn, hkind info hinfo⟩

/-! ### Tokens the promises go to -/

/-- What a burn nobody awaits pays a relayer. -/
def Promise.detachedFee : Promise → ℕ
  | burnDetached _ _ _ _ relayerFee => relayerFee
  | _ => 0

/-- A promise goes to this token, if to any, and pays no relayer unless it is awaited. -/
structure Promise.GoesTo (token : AccountId) (p : Promise) : Prop where
  token : ∀ call ∈ p.nbtcCall, call.token = token
  detached : p.detachedFee = 0

theorem Issued.goesTo {env : Env} {method : Method} {p : Promise} (h : Issued host env method l p)
    (token : AccountId) : p.GoesTo token := by
  cases p with
  | mint | safeMint | burnDetached | withdrawBurn | activeUtxoManagementBurn | transferNbtc
  | withdrawProtocolFee => exact h.elim
  | _ => exact ⟨fun call hcall ↦ (by cases hcall), rfl⟩

theorem Mints.goesTo {token signer : AccountId} {info : PendingUTXOInfo} {p m : Promise}
    (h : Mints token signer info p m) : m.GoesTo token := by
  cases h with
  | standard | safe => exact ⟨fun call hcall ↦ (by cases hcall; rfl), rfl⟩

theorem BurnOf.goesTo {token : AccountId} {info : BTCPendingInfo} {txId : Txid} {withdraw : Bool}
    {p : Promise} (h : BurnOf token info txId withdraw p) : p.GoesTo token := by
  cases h with
  | withdraw | active => exact ⟨fun call hcall ↦ (by cases hcall; rfl), rfl⟩

/-- Every promise goes to the token of the bridge. -/
def Ledger.PromisesTo (token : AccountId) (l : Ledger) : Prop := ∀ p ∈ l.inflight, p.GoesTo token

theorem Ledger.PromisesTo.step {token : AccountId} (hl : l.PromisesTo token)
    (htoken : l.token = token) (h : Effect host Completes cause l l') : l'.PromisesTo token := by
  subst htoken
  have hsent (sent : Multiset Promise) (hnew : ∀ p ∈ sent, p.GoesTo l.token)
      (hinflight : l'.inflight = sent + l.inflight) : l'.PromisesTo l.token := by
    intro q hq
    rw [hinflight] at hq
    exact (Multiset.mem_add.mp hq).elim (hnew q) (hl q)
  have hone {p : Promise} (hp : p.GoesTo l.token) (hinflight : l'.inflight = p ::ₘ l.inflight) :
      l'.PromisesTo l.token := by
    refine hsent {p} (fun q hq ↦ ?_) hinflight
    rw [Multiset.mem_singleton.mp hq]
    exact hp
  cases h with
  | issue env method p hissued => exact hone (hissued.goesTo _) rfl
  | begin env p m result info hmints => exact hone hmints.goesTo rfl
  | attest env p burn result txId withdraw info hverifies hpending hstage hrefund hburn =>
    exact hone hburn.goesTo rfl
  | claim | withdrawFee => exact hone ⟨fun call hcall ↦ (by cases hcall; rfl), rfl⟩ rfl
  | revert env m result info hinfo =>
    refine hsent _ (fun q hq ↦ ?_) rfl
    unfold Promise.mintRevert at hq
    split at hq
    · rw [Multiset.mem_singleton.mp hq]
      exact ⟨fun call hcall ↦ (by cases hcall; rfl), rfl⟩
    · exact absurd hq (Multiset.notMem_zero q)
  | commitWithdraw =>
    refine hsent _ (fun q hq ↦ ?_) rfl
    unfold refundTransfer at hq
    split at hq
    · rw [Multiset.mem_singleton.mp hq]
      exact ⟨fun call hcall ↦ (by cases hcall; rfl), rfl⟩
    · exact absurd hq (Multiset.notMem_zero q)
  | configure | ignore | lose | setKey | finish | complete | collectFee | create | replace | sign
  | burnFailed | commitActive | discard | transferFailed | feeFailed | request | reject | refund
  | finalizeRefund => exact hl

/-! ### Executed burns -/

/-- A reading of a pending transaction, zero when it is not pending. -/
def Ledger.read (l : Ledger) (g : BTCPendingInfo → ℕ) (id : Txid) : ℕ :=
  ((l.pendings.lookup id).map g).getD 0

theorem Ledger.read_of_lookup {g : BTCPendingInfo → ℕ} {id : Txid} {info : BTCPendingInfo}
    (h : l.pendings.lookup id = some info) : l.read g id = g info := by
  rw [Ledger.read, h]
  rfl

/-- The sum of a reading over some pending transactions. -/
def Ledger.amount (l : Ledger) (g : BTCPendingInfo → ℕ) (ids : Finset Txid) : ℕ :=
  ∑ id ∈ ids, l.read g id

/-- The transactions that wait for their burns after a step, of those that did before. -/
def Cause.leaves (cause : Cause) (ids : Finset Txid) : Finset Txid :=
  match cause.confirms with
  | some id => ids.erase id
  | none => ids

theorem Cause.mem_leaves {ids : Finset Txid} {id : Txid} :
    id ∈ cause.leaves ids ↔ cause.confirms ≠ some id ∧ id ∈ ids := by
  unfold leaves
  split
  · rename_i id' hconfirms
    rw [Finset.mem_erase, hconfirms, Ne, Ne, Option.some.injEq, eq_comm]
  · rename_i hconfirms
    rw [hconfirms]
    simp

theorem AttestsOnce.of_append {log marks : List Mark} (h : AttestsOnce (log ++ marks)) :
    AttestsOnce log := by
  intro root txId txId' hm hm'
  refine h root txId txId' ?_ ?_
  · exact mem_attestations.mpr (List.mem_append_left _ (mem_attestations.mp hm))
  · exact mem_attestations.mpr (List.mem_append_left _ (mem_attestations.mp hm'))

/-- What a transaction that waits for its burn costs is in the escrow and the reservation of its
original. -/
theorem Ledger.Unsettled.debit_le (laws : host.Lawful)
    (hreached : Ledger.Reached host Ledger.Unfinished l) (honce : AttestsOnce l.log) {id : Txid}
    (h : l.Unsettled id) : ∃ root info o, Mark.attested id root ∈ l.log ∧
      l.pendings.lookup id = some info ∧ l.pendings.lookup root = some o ∧
      info.debit ≤ o.escrow + o.reservation := by
  obtain ⟨info, o, hinfo, _, hrefund, ho⟩ := h.pending laws hreached honce
  obtain ⟨⟨root, hattested⟩, _⟩ := h.burning
  have hspending := hreached.spending laws
  have hroot := hspending.root_eq hreached.identified hinfo hrefund
    (hspending.attested id root hattested).1
  obtain ⟨hdebit, husage⟩ := hreached.debit_le laws hinfo hrefund ho
  rw [hroot] at ho
  exact ⟨root, info, o, hattested, hinfo, ho, by omega⟩

/-- The costs of executed burns are in the escrow and the reserved fees of the bridge. -/
theorem Ledger.Reached.amount_debit_le (laws : host.Lawful)
    (h : Ledger.Reached host Ledger.Unfinished l) (honce : AttestsOnce l.log) {ids : Finset Txid}
    (hids : ∀ id ∈ ids, l.Unsettled id) :
    l.amount BTCPendingInfo.debit ids ≤
      pendingTotal BTCPendingInfo.escrow l.pendings + l.fees.reserved := by
  have hfamilies : ∀ id ∈ ids, ∃ root, Mark.attested id root ∈ l.log ∧
      l.read BTCPendingInfo.debit id ≤ l.read (fun o ↦ o.escrow + o.reservation) root := by
    intro id hid
    obtain ⟨root, info, o, hattested, hinfo, ho, hdebit⟩ := (hids id hid).debit_le laws h honce
    refine ⟨root, hattested, ?_⟩
    rw [Ledger.read_of_lookup hinfo, Ledger.read_of_lookup ho]
    exact hdebit
  choose! root hattested hdebit using hfamilies
  have hinjective : Set.InjOn root ids := by
    intro id hid id' hid' heq
    have hm := hattested id hid
    rw [heq] at hm
    exact honce _ id id' (mem_attestations.mpr hm) (mem_attestations.mpr (hattested id' hid'))
  have htotal : FiniteMap.total (fun _ o ↦ BTCPendingInfo.escrow o + o.reservation) l.pendings =
      pendingTotal BTCPendingInfo.escrow l.pendings + l.fees.reserved := by
    rw [h.reserving laws]
    exact List.sum_map_add
  calc l.amount BTCPendingInfo.debit ids
      ≤ ∑ id ∈ ids, l.read (fun o ↦ o.escrow + o.reservation) (root id) :=
        Finset.sum_le_sum hdebit
    _ = ∑ r ∈ ids.image root, l.read (fun o ↦ o.escrow + o.reservation) r :=
        (Finset.sum_image (f := l.read fun o ↦ o.escrow + o.reservation) hinjective).symm
    _ ≤ FiniteMap.total (fun _ o ↦ BTCPendingInfo.escrow o + o.reservation) l.pendings :=
        FiniteMap.sum_lookup_le_total _ _ _
    _ = pendingTotal BTCPendingInfo.escrow l.pendings + l.fees.reserved := htotal

section Step

variable (hl : (cause.before l).Staged) (h : Effect host Completes cause l l') {ids : Finset Txid}
  (hids : ∀ id ∈ ids, l.Unsettled id)
  (hanswers : ∀ p ∈ cause.taken, ∀ id ∈ ids, p.burns = some id → cause.confirms = some id)

include hl h hids hanswers

/-- A transaction waits for its burn until that is settled. -/
theorem Effect.unsettled {id : Txid} (hid : id ∈ cause.leaves ids) : l'.Unsettled id := by
  obtain ⟨hnot, hmem⟩ := Cause.mem_leaves.mp hid
  have hnotTaken : ¬∃ q ∈ cause.taken, q.burns = some id := by
    rintro ⟨q, hq, hburns⟩
    exact hnot (hanswers q hq id hmem hburns)
  refine ⟨hl.keeps_burning h (hids id hmem).burning hnotTaken, fun root hm ↦ ?_⟩
  rcases h.committedMark hm with hold | ⟨_, _, _, _, _, _, _, _, hburns⟩
  · exact (hids id hmem).uncommitted root hold
  · exact hnotTaken hburns

/-- What is confirmed is taken off the transactions that wait for their burns. -/
theorem Effect.amount_leaves (laws : host.Lawful)
    (hreached : Ledger.Reached host Ledger.Unfinished (cause.before l))
    (hreached' : Ledger.Reached host Ledger.Unfinished l') (honce : AttestsOnce l'.log)
    (hconfirms : ∀ id ∈ cause.confirms, id ∈ ids) {g : BTCPendingInfo → ℕ}
    (hg : ∀ {old info}, Carries host old info → g info = g old) :
    l'.amount g (cause.leaves ids) + cause.confirmed g l = l.amount g ids := by
  have honce₀ : AttestsOnce (cause.before l).log := by
    obtain ⟨marks, hlog⟩ := h.log
    rw [hlog] at honce
    exact honce.of_append
  have hsame : l'.amount g (cause.leaves ids) = l.amount g (cause.leaves ids) := by
    refine Finset.sum_congr rfl fun id hid ↦ ?_
    have hwaits := hids id (Cause.mem_leaves.mp hid).2
    have hbefore : (cause.before l).Unsettled id := ⟨hwaits.burning, hwaits.uncommitted⟩
    have hafter := Effect.unsettled hl h hids hanswers hid
    obtain ⟨old, _, hold, _⟩ := hbefore.pending laws hreached honce₀
    obtain ⟨info, _, hinfo, _⟩ := hafter.pending laws hreached' honce
    have hcarries := (h.kept hold hinfo).1
    rw [Ledger.read_of_lookup hinfo, hg hcarries]
    exact (Ledger.read_of_lookup (l := l) hold).symm
  rw [hsame]
  unfold Cause.confirmed Cause.leaves Ledger.amount
  cases hcase : cause.confirms with
  | none => rfl
  | some id => exact Finset.sum_erase_add _ _ (hconfirms id hcase)

end Step

end SatoshiBridge
