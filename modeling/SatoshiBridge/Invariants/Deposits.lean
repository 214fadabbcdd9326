import Mathlib.Data.List.Count
import SatoshiBridge.Invariants.Payments

/-!
# The life of a deposit

What the marks of a deposit outpoint, the promises in flight for it and the collections that guard
it have to do with each other. A deposit has at most one mint in flight, and then it is in progress;
while it is in progress it is neither registered nor refunded; once it is registered or refunded it
stays verified, and it is never registered again. This holds as long as deposits are completed by
hand only while they are in progress with no mint callback to come.
-/

set_option autoImplicit false
set_option relaxedAutoImplicit false

namespace SatoshiBridge

variable {host : Host}

/-! ### Change outputs -/

/-- The coins of a confirmed transaction are its outputs to the change script. -/
theorem mem_changeUtxos {script : ScriptBuf} {txId : Txid} {outputs : List TxOut} {key : OutPoint}
    {utxo : UTXO} : (key, utxo) ∈ Contract.changeUtxos host script txId outputs ↔
      ∃ index output, outputs[index]? = some output ∧ output.scriptPubkey = script ∧
        key = ⟨txId, index⟩ ∧ utxo = ⟨host.currentAccountId, [], index, output.value⟩ := by
  unfold Contract.changeUtxos
  rw [List.mem_filterMap]
  constructor
  · rintro ⟨⟨output, index⟩, hmem, h⟩
    rw [List.mk_mem_zipIdx_iff_getElem?] at hmem
    dsimp only at h
    split at h
    · rename_i hscript
      cases h
      exact ⟨index, output, hmem, hscript, rfl, rfl⟩
    · cases h
  · rintro ⟨index, output, hmem, hscript, rfl, rfl⟩
    refine ⟨(output, index), List.mk_mem_zipIdx_iff_getElem?.mpr hmem, ?_⟩
    dsimp only
    rw [if_pos hscript]

/-- A coin of a confirmed transaction is change. -/
theorem Ledger.mem_change {l : Ledger} {txId : Txid} {info : BTCPendingInfo} {tx : Transaction}
    {key : OutPoint} {utxo : UTXO} (hid : Identifies host txId info)
    (htx : info.getTransaction = some tx) (h : (key, utxo) ∈ l.change host txId tx) :
    key.txid = txId ∧ IsChange host l.chain key utxo := by
  obtain ⟨index, output, houtput, hscript, rfl, rfl⟩ := mem_changeUtxos.mp h
  have htxid : host.computeTxid tx = txId := by
    rw [hid.signed tx htx]
    exact hid.txid
  refine ⟨rfl, ⟨rfl, rfl, tx.output, .transaction tx htxid rfl, ?_⟩, rfl⟩
  have hout : output = ⟨output.value, host.pathScript l.chain host.currentAccountId⟩ := by
    rw [← show output.scriptPubkey = host.pathScript l.chain host.currentAccountId from hscript]
  rw [← hout]
  exact houtput

/-- No outpoint is both a deposit and change. -/
theorem IsDeposit.not_change (laws : host.Lawful) {chain : Chain} {key : OutPoint}
    {utxo utxo' : UTXO} (h : IsDeposit host chain key utxo) (h' : IsChange host chain key utxo') :
    False := by
  obtain ⟨hholds, msg, hpath⟩ := h
  obtain ⟨hholds', hpath'⟩ := h'
  have heq := hholds.pays.unique laws hholds'.pays
  have hscript : host.depositScript chain msg = host.changeScript chain := by
    have hscripts := congrArg TxOut.scriptPubkey heq
    dsimp only at hscripts
    rw [hpath, hpath'] at hscripts
    exact hscripts
  exact laws.depositScript_ne_changeScript chain msg hscript

/-- The deposit of a refund request is no change either. -/
theorem RequestFor.isDeposit {chain : Chain} {key : OutPoint} {request : RefundRequest}
    (h : RequestFor host chain key request) : ∃ utxo, IsDeposit host chain key utxo := by
  obtain ⟨msg, _, hpays, _⟩ := h.pays
  exact ⟨⟨getDepositPath host msg, [], key.vout, request.amount⟩, ⟨rfl, rfl, hpays⟩, msg, rfl⟩

/-! ### What there is about an outpoint -/

/-- The outpoints a mark is about. -/
def Mark.about : Mark → List OutPoint
  | depositStarted key | depositFinalised key | mintCallbackLost key _ | depositCompleted key =>
    [key]
  | utxoAdded keys => keys
  | refundCreated call _ _ _ => [call.utxoStorageKey]
  | _ => []

namespace Ledger

/-- The mints in flight for a deposit. -/
def mints (l : Ledger) (key : OutPoint) : ℕ :=
  l.inflight.countP fun p ↦ p.mintInfo.map PendingUTXOInfo.utxoStorageKey = some key

/-- A mint callback for the deposit was lost. -/
def Lost (l : Ledger) (key : OutPoint) : Prop := ∃ minted, Mark.mintCallbackLost key minted ∈ l.log

/-- The deposit was registered. -/
def Deposited (l : Ledger) (key : OutPoint) : Prop :=
  Mark.depositFinalised key ∈ l.log ∨ Mark.depositCompleted key ∈ l.log

/-- A refund of the deposit was created. -/
def Refunded (l : Ledger) (key : OutPoint) : Prop :=
  ∃ call request info nowSec, Mark.refundCreated call request info nowSec ∈ l.log ∧
    call.utxoStorageKey = key

/-- The deposit may be completed by hand: it is in progress and no mint callback is to come. -/
def Unfinished (l : Ledger) (key : OutPoint) : Prop :=
  key ∈ l.inProgress ∧ (l.mints key = 0 ∨ l.Lost key)

/-- The life of the deposit at an outpoint. -/
structure Life (l : Ledger) (key : OutPoint) : Prop where
  mints_le : l.mints key ≤ 1
  minting : 0 < l.mints key → key ∈ l.inProgress
  lost : l.Lost key → l.mints key = 0 ∧ key ∈ l.verified
  inProgress : key ∈ l.inProgress → key ∈ l.verified ∧ key ∉ registered l.log ∧
    ¬l.Refunded key ∧ Mark.depositStarted key ∈ l.log ∧ (l.mints key = 1 ∨ l.Lost key)
  deposited : l.Deposited key → key ∈ l.verified ∧ key ∈ registered l.log
  refunded : l.Refunded key → key ∈ l.verified ∧ key ∉ registered l.log
  executed : ∀ request, l.requests.lookup key = some request → request.executed = true →
    l.Refunded key
  once : l.log.count (.depositFinalised key) ≤ 1

/-- Nothing about the deposit at an outpoint differs. -/
structure Same (key : OutPoint) (l l' : Ledger) : Prop where
  mints : l'.mints key = l.mints key
  inProgress : key ∈ l'.inProgress ↔ key ∈ l.inProgress
  verified : key ∈ l'.verified ↔ key ∈ l.verified
  requests : ∀ request, l'.requests.lookup key = some request → request.executed = true →
    ∃ old, l.requests.lookup key = some old ∧ old.executed = true
  log : ∃ marks, l'.log = l.log ++ marks ∧ ∀ m ∈ marks, key ∉ m.about

namespace Same

variable {key : OutPoint} {l l' : Ledger}

theorem mem_log (h : Same key l l') {m : Mark} (hm : key ∈ m.about) : m ∈ l'.log ↔ m ∈ l.log := by
  obtain ⟨marks, hlog, habout⟩ := h.log
  rw [hlog, List.mem_append]
  constructor
  · rintro (hold | hnew)
    · exact hold
    · exact absurd hm (habout m hnew)
  · exact Or.inl

theorem lost (h : Same key l l') : l'.Lost key ↔ l.Lost key :=
  exists_congr fun _ ↦ h.mem_log (List.mem_singleton_self key)

theorem deposited (h : Same key l l') : l'.Deposited key ↔ l.Deposited key :=
  or_congr (h.mem_log (List.mem_singleton_self key)) (h.mem_log (List.mem_singleton_self key))

theorem refunded (h : Same key l l') : l'.Refunded key ↔ l.Refunded key := by
  unfold Refunded
  constructor
  · rintro ⟨call, request, info, nowSec, hm, rfl⟩
    exact ⟨call, request, info, nowSec, (h.mem_log (List.mem_singleton_self _)).mp hm, rfl⟩
  · rintro ⟨call, request, info, nowSec, hm, rfl⟩
    exact ⟨call, request, info, nowSec, (h.mem_log (List.mem_singleton_self _)).mpr hm, rfl⟩

theorem registered (h : Same key l l') : key ∈ registered l'.log ↔ key ∈ registered l.log := by
  obtain ⟨marks, hlog, habout⟩ := h.log
  rw [hlog, registered_append, List.mem_append]
  constructor
  · rintro (hold | hnew)
    · exact hold
    · obtain ⟨m, hm, hkey⟩ := List.mem_flatMap.mp hnew
      refine absurd ?_ (habout m hm)
      cases m with
      | utxoAdded keys => exact hkey
      | _ => exact absurd hkey List.not_mem_nil
  · exact Or.inl

theorem count (h : Same key l l') :
    l'.log.count (.depositFinalised key) = l.log.count (.depositFinalised key) := by
  obtain ⟨marks, hlog, habout⟩ := h.log
  rw [hlog, List.count_append, Nat.add_eq_left, List.count_eq_zero]
  exact fun hm ↦ habout _ hm (List.mem_singleton_self key)

/-- The life of a deposit goes on. -/
theorem life (h : Same key l l') (hl : l.Life key) : l'.Life key where
  mints_le := h.mints ▸ hl.mints_le
  minting := by
    rw [h.mints, h.inProgress]
    exact hl.minting
  lost := by
    rw [h.lost, h.mints, h.verified]
    exact hl.lost
  inProgress := by
    have hstarted : Mark.depositStarted key ∈ l'.log ↔ Mark.depositStarted key ∈ l.log :=
      h.mem_log (List.mem_singleton_self key)
    rw [h.inProgress, h.verified, h.registered, h.refunded, hstarted, h.mints, h.lost]
    exact hl.inProgress
  deposited := by
    rw [h.deposited, h.verified, h.registered]
    exact hl.deposited
  refunded := by
    rw [h.refunded, h.verified, h.registered]
    exact hl.refunded
  executed := by
    intro request hrequest hexecuted
    obtain ⟨old, hold, hold'⟩ := h.requests request hrequest hexecuted
    exact h.refunded.mpr (hl.executed old hold hold')
  once := h.count ▸ hl.once

end Same

/-! ### Mints in flight -/

theorem mints_before {cause : Cause} (l : Ledger) (key : OutPoint)
    (htaken : ∀ p ∈ cause.taken, p.mintInfo = none) :
    (cause.before l).mints key = l.mints key := by
  unfold mints Cause.before
  rw [Multiset.countP_add, Nat.add_eq_right, Multiset.countP_eq_zero]
  intro p hp
  rw [htaken p hp]
  exact fun h ↦ by cases h

theorem mints_sent {l l' : Ledger} {sent : Multiset Promise} {key : OutPoint}
    (hsent : ∀ p ∈ sent, p.mintInfo = none) (h : l'.inflight = sent + l.inflight) :
    l'.mints key = l.mints key := by
  unfold mints
  rw [h, Multiset.countP_add, Nat.add_eq_right, Multiset.countP_eq_zero]
  intro p hp
  rw [hsent p hp]
  exact fun h ↦ by cases h

/-- Taking the mint for a deposit out of flight. -/
theorem mints_taken (cause : Cause) (l : Ledger) {m : Promise} {info : PendingUTXOInfo}
    (htaken : cause.taken = {m}) (hinfo : m.mintInfo = some info) (key : OutPoint) :
    (cause.before l).mints key = (if info.utxoStorageKey = key then 1 else 0) + l.mints key := by
  unfold mints Cause.before
  rw [Multiset.countP_add, htaken, ← Multiset.cons_zero, Multiset.countP_cons,
    Multiset.countP_zero, hinfo, zero_add]
  simp only [Option.map_some, Option.some.injEq]

/-- Sending a mint for a deposit. -/
theorem mints_cons {l l' : Ledger} {m : Promise} {info : PendingUTXOInfo}
    (hinfo : m.mintInfo = some info) (h : l'.inflight = m ::ₘ l.inflight) (key : OutPoint) :
    l'.mints key = l.mints key + if info.utxoStorageKey = key then 1 else 0 := by
  unfold mints
  rw [h, Multiset.countP_cons, hinfo]
  simp only [Option.map_some, Option.some.injEq]

/-- A step that has nothing to do with deposits. -/
theorem Same.quiet {cause : Cause} {l l' : Ledger} {key : OutPoint} (sent : Multiset Promise)
    (marks : List Mark) (htaken : ∀ p ∈ cause.taken, p.mintInfo = none)
    (hsent : ∀ p ∈ sent, p.mintInfo = none) (hinflight : l'.inflight = sent + l.inflight)
    (hinProgress : key ∈ l'.inProgress ↔ key ∈ l.inProgress)
    (hverified : key ∈ l'.verified ↔ key ∈ l.verified)
    (hrequests : ∀ request, l'.requests.lookup key = some request → request.executed = true →
      ∃ old, l.requests.lookup key = some old ∧ old.executed = true)
    (hlog : l'.log = l.log ++ marks) (habout : ∀ m ∈ marks, key ∉ m.about) :
    Same key (cause.before l) l' where
  mints := (mints_sent hsent hinflight).trans (mints_before l key htaken).symm
  inProgress := hinProgress
  verified := hverified
  requests := hrequests
  log := ⟨marks, hlog, habout⟩

/-! ### The steps that concern a deposit -/

variable {l l' : Ledger} {key : OutPoint}

/-- A deposit that is not in progress has no mint in flight. -/
theorem Life.no_mints (hl : l.Life key) (hin : key ∉ l.inProgress) : l.mints key = 0 := by
  by_contra hne
  exact hin (hl.minting (Nat.pos_of_ne_zero hne))

/-- A deposit that nobody has claimed yet. -/
theorem Life.unclaimed (hl : l.Life key) (hnew : key ∉ l.verified) :
    key ∉ l.inProgress ∧ l.mints key = 0 ∧ ¬l.Lost key ∧ ¬l.Deposited key ∧ ¬l.Refunded key := by
  have hin : key ∉ l.inProgress := fun h ↦ hnew (hl.inProgress h).1
  exact ⟨hin, hl.no_mints hin, fun h ↦ hnew (hl.lost h).2, fun h ↦ hnew (hl.deposited h).1,
    fun h ↦ hnew (hl.refunded h).1⟩


/-- A deposit begins. -/
theorem Life.begin (hl : l.Life key) (hnew : key ∉ l.verified) (hreg : key ∉ registered l.log)
    (hmints : l'.mints key = 1) (hin : key ∈ l'.inProgress) (hverified : key ∈ l'.verified)
    (hrequests : l'.requests = l.requests) (hlog : l'.log = l.log ++ [.depositStarted key]) :
    l'.Life key := by
  obtain ⟨_, _, hlost, hdeposited, hrefunded⟩ := hl.unclaimed hnew
  refine ⟨le_of_eq hmints, fun _ ↦ hin, fun h ↦ ?_, fun _ ↦ ⟨hverified, ?_, ?_, ?_, Or.inl hmints⟩,
    fun h ↦ ?_, fun h ↦ ?_, fun request hrequest hexecuted ↦ ?_, ?_⟩
  · exact absurd (by simpa [Lost, hlog] using h) hlost
  · simpa [registered, hlog] using hreg
  · simpa [Refunded, hlog] using hrefunded
  · simp [hlog]
  · exact absurd (by simpa [Deposited, hlog] using h) hdeposited
  · exact absurd (by simpa [Refunded, hlog] using h) hrefunded
  · rw [hrequests] at hrequest
    exact absurd (hl.executed request hrequest hexecuted) hrefunded
  · simpa [hlog] using hl.once

/-- The mint callback of a deposit is lost. -/
theorem Life.lose {minted : Bool} (hl : l.Life key) (hmints : l.mints key = 1)
    (hmints' : l'.mints key = 0) (hverified : l'.verified = l.verified)
    (hrequests : l'.requests = l.requests)
    (hlog : l'.log = l.log ++ [.mintCallbackLost key minted]) : l'.Life key := by
  have hkey := hl.minting (by omega)
  obtain ⟨hver, hreg, href, hstarted, _⟩ := hl.inProgress hkey
  have hlost' : l'.Lost key := ⟨minted, by simp [hlog]⟩
  refine ⟨by omega, fun h ↦ by omega, fun _ ↦ ⟨hmints', hverified ▸ hver⟩,
    fun _ ↦ ⟨hverified ▸ hver, ?_, ?_, ?_, Or.inr hlost'⟩, fun h ↦ ?_, fun h ↦ ?_,
    fun request hrequest hexecuted ↦ ?_, ?_⟩
  · simpa [registered, hlog] using hreg
  · simpa [Refunded, hlog] using href
  · simp [hlog, hstarted]
  · have hdeposited : l.Deposited key := by simpa [Deposited, hlog] using h
    exact absurd (hl.deposited hdeposited).2 hreg
  · exact absurd (by simpa [Refunded, hlog] using h) href
  · rw [hrequests] at hrequest
    exact absurd (hl.executed request hrequest hexecuted) href
  · simpa [hlog] using hl.once

/-- A deposit in progress is registered, by its mint callback or by hand. -/
theorem Life.register {mark : Mark} (hl : l.Life key) (hkey : key ∈ l.inProgress)
    (hmark : mark = .depositFinalised key ∨ mark = .depositCompleted key)
    (hmints : l'.mints key = 0) (hin : key ∉ l'.inProgress) (hverified : l'.verified = l.verified)
    (hrequests : l'.requests = l.requests)
    (hlog : l'.log = l.log ++ [.utxoAdded [key], mark]) : l'.Life key := by
  obtain ⟨hver, hreg, href, _, _⟩ := hl.inProgress hkey
  have hnone : ¬l.Deposited key := fun h ↦ hreg (hl.deposited h).2
  have hnotFinalised : Mark.depositFinalised key ∉ l.log := fun h ↦ hnone (Or.inl h)
  have href' : ¬l'.Refunded key := by
    rcases hmark with rfl | rfl <;> simpa [Refunded, hlog] using href
  refine ⟨by omega, fun h ↦ by omega, fun _ ↦ ⟨hmints, hverified ▸ hver⟩, fun h ↦ absurd h hin,
    fun _ ↦ ⟨hverified ▸ hver, ?_⟩, fun h ↦ absurd h href', fun request hrequest hexecuted ↦ ?_, ?_⟩
  · rcases hmark with rfl | rfl <;> simp [registered, hlog]
  · rw [hrequests] at hrequest
    exact absurd (hl.executed request hrequest hexecuted) href
  · have hcount : l.log.count (.depositFinalised key) = 0 := List.count_eq_zero.mpr hnotFinalised
    rcases hmark with rfl | rfl <;> simp [hlog, hcount]

/-- The mint of a deposit fails. -/
theorem Life.revert (hl : l.Life key) (hmints : l.mints key = 1) (hmints' : l'.mints key = 0)
    (hin : key ∉ l'.inProgress) (hrequests : l'.requests = l.requests)
    (hlog : l'.log = l.log ++ [.depositReverted key]) : l'.Life key := by
  have hkey := hl.minting (by omega)
  obtain ⟨_, hreg, href, _, _⟩ := hl.inProgress hkey
  have href' : ¬l'.Refunded key := by simpa [Refunded, hlog] using href
  refine ⟨by omega, fun h ↦ by omega, fun h ↦ ?_, fun h ↦ absurd h hin, fun h ↦ ?_,
    fun h ↦ absurd h href', fun request hrequest hexecuted ↦ ?_, ?_⟩
  · have hlost : l.Lost key := by simpa [Lost, hlog] using h
    have hzero := (hl.lost hlost).1
    omega
  · have hdeposited : l.Deposited key := by simpa [Deposited, hlog] using h
    exact absurd (hl.deposited hdeposited).2 hreg
  · rw [hrequests] at hrequest
    exact absurd (hl.executed request hrequest hexecuted) href
  · simpa [hlog] using hl.once

/-- A refund of the deposit is created. -/
theorem Life.refund {call : ExecuteRefundCall} {request : RefundRequest} {info : BTCPendingInfo}
    {payee : Option String} {nowSec : ℕ} (hl : l.Life key) (hkey : key ∉ l.inProgress)
    (hreg : key ∉ registered l.log) (hcall : call.utxoStorageKey = key)
    (hmints : l'.mints key = l.mints key) (hin : l'.inProgress = l.inProgress)
    (hverified : key ∈ l'.verified)
    (hlog : l'.log = l.log ++ [.created info payee, .refundCreated call request info nowSec]) :
    l'.Life key := by
  have hzero := hl.no_mints hkey
  have hnone : ¬l.Deposited key := fun h ↦ hreg (hl.deposited h).2
  have href' : l'.Refunded key := ⟨call, request, info, nowSec, by simp [hlog], hcall⟩
  refine ⟨by omega, fun h ↦ by omega, fun _ ↦ ⟨by omega, hverified⟩, fun h ↦ absurd (hin ▸ h) hkey,
    fun h ↦ ?_, fun _ ↦ ⟨hverified, ?_⟩, fun _ _ _ ↦ href', ?_⟩
  · exact absurd (by simpa [Deposited, hlog] using h) hnone
  · simpa [registered, hlog] using hreg
  · simpa [hlog] using hl.once

/-- A confirmed transaction registers the outpoint as change. -/
theorem Life.change {keys : List OutPoint} {txId root : Txid} (hl : l.Life key)
    (hkey : key ∉ l.inProgress) (href : ¬l.Refunded key) (hmints : l'.mints key = l.mints key)
    (hin : l'.inProgress = l.inProgress) (hverified : l'.verified = l.verified)
    (hrequests : l'.requests = l.requests) (hmem : key ∈ keys)
    (hlog : l'.log = l.log ++ [.utxoAdded keys, .committed txId root]) : l'.Life key := by
  have hzero := hl.no_mints hkey
  have href' : ¬l'.Refunded key := by simpa [Refunded, hlog] using href
  refine ⟨by omega, fun h ↦ by omega, fun h ↦ ?_, fun h ↦ absurd (hin ▸ h) hkey, fun h ↦ ?_,
    fun h ↦ absurd h href', fun request hrequest hexecuted ↦ ?_, ?_⟩
  · have hlost : l.Lost key := by simpa [Lost, hlog] using h
    exact ⟨by omega, hverified ▸ (hl.lost hlost).2⟩
  · have hdeposited : l.Deposited key := by simpa [Deposited, hlog] using h
    exact ⟨hverified ▸ (hl.deposited hdeposited).1, by simp [registered, hlog, hmem]⟩
  · rw [hrequests] at hrequest
    exact absurd (hl.executed request hrequest hexecuted) href
  · simpa [hlog] using hl.once

end Ledger

/-! ### Steps that take no mint -/

namespace Cause

variable {cause : Cause}

theorem mintless_call (env : Env) (method : Method) :
    ∀ p ∈ (call env method).taken, p.mintInfo = none :=
  fun p hp ↦ absurd hp (Multiset.notMem_zero p)

theorem mintless_answer (env : Env) (result : PromiseResult) {p : Promise}
    (h : p.mintInfo = none) : ∀ q ∈ (answer env p result).taken, q.mintInfo = none := by
  intro q hq
  rw [Multiset.mem_singleton.mp hq]
  exact h

theorem Ignored.mintless (h : cause.Ignored) : ∀ p ∈ cause.taken, p.mintInfo = none := by
  cases cause with
  | call => exact h.elim
  | lost => exact h.elim
  | answer env p result =>
    refine mintless_answer env result ?_
    cases p with
    | mint | safeMint => exact h.elim
    | _ => rfl

theorem Builds.mintless {incoming : Option (AccountId × ℕ)} (h : cause.Builds incoming) :
    ∀ p ∈ cause.taken, p.mintInfo = none := by
  cases cause with
  | call env method => exact mintless_call env method
  | lost => exact h.elim
  | answer env p result =>
    refine mintless_answer env result ?_
    cases p with
    | mint | safeMint => exact h.elim
    | _ => rfl

end Cause

theorem Promise.mintInfo_of_burns {p : Promise} {txId : Txid} (h : p.burns = some txId) :
    p.mintInfo = none := by
  cases p with
  | mint | safeMint => cases h
  | _ => rfl

theorem Promise.mintInfo_of_verifies {p : Promise} {txId : Txid} {withdraw : Bool}
    (h : p.verifies = some (txId, withdraw)) : p.mintInfo = none := by
  cases p with
  | mint | safeMint => cases h
  | _ => rfl

theorem Promise.depositInfo_of_mintInfo {p : Promise} {info : PendingUTXOInfo}
    (h : p.mintInfo = some info) : p.depositInfo = some info := by
  cases p with
  | mint | safeMint => exact h
  | _ => cases h

/-! ### The invariant -/

/-- Every outpoint lives its life, and a registered one is a deposit or change. -/
structure Ledger.Lives (host : Host) (l : Ledger) : Prop where
  life : ∀ key, l.Life key
  origin : ∀ key ∈ registered l.log,
    l.Deposited key ∨ ∃ utxo, IsChange host l.chain key utxo

/-- A deposit nobody has claimed is not registered. -/
theorem Ledger.Lives.not_registered (laws : host.Lawful) {l : Ledger} (hl : l.Lives host)
    {key : OutPoint} {utxo : UTXO} (hdeposit : IsDeposit host l.chain key utxo)
    (hnew : key ∉ l.verified) : key ∉ registered l.log := by
  intro hreg
  rcases hl.origin key hreg with hdeposited | ⟨utxo', hchange⟩
  · exact hnew ((hl.life key).deposited hdeposited).1
  · exact hdeposit.not_change laws hchange

theorem Ledger.Lives.initial {l : Ledger} (h : l.Initial) : l.Lives host where
  life := by
    intro key
    have hmints : l.mints key = 0 := by
      unfold Ledger.mints
      rw [h.inflight]
      exact Multiset.countP_zero _
    have hin : key ∉ l.inProgress := by
      rw [h.inProgress]
      exact AList.notMem_empty key
    refine ⟨by omega, fun h ↦ by omega, fun hm ↦ ?_, fun hm ↦ absurd hm hin, fun hm ↦ ?_,
      fun hm ↦ ?_, fun request hrequest _ ↦ ?_, ?_⟩
    · simp [Ledger.Lost, h.log] at hm
    · simp [Ledger.Deposited, h.log] at hm
    · simp [Ledger.Refunded, h.log] at hm
    · rw [h.requests] at hrequest
      cases hrequest
    · simp [h.log]
  origin := by
    intro key hkey
    rw [h.log] at hkey
    exact absurd hkey List.not_mem_nil

/-- A step that writes no collection of deposits. -/
theorem Ledger.Same.aside {cause : Cause} {l l' : Ledger} {key : OutPoint}
    (sent : Multiset Promise) (marks : List Mark) (htaken : ∀ p ∈ cause.taken, p.mintInfo = none)
    (hsent : ∀ p ∈ sent, p.mintInfo = none) (hinflight : l'.inflight = sent + l.inflight)
    (hwrites : l'.inProgress = l.inProgress ∧ l'.verified = l.verified ∧
      l'.requests = l.requests)
    (hlog : l'.log = l.log ++ marks) (habout : ∀ m ∈ marks, key ∉ m.about) :
    Same key (cause.before l) l' := by
  obtain ⟨hin, hver, hreq⟩ := hwrites
  refine .quiet sent marks htaken hsent hinflight ?_ ?_ ?_ hlog habout
  · rw [hin]
  · rw [hver]
  · intro request hrequest hexecuted
    exact ⟨request, hreq ▸ hrequest, hexecuted⟩

/-- One promise sent that is no mint. -/
theorem Promise.mintless_singleton {p : Promise} (h : p.mintInfo = none) :
    ∀ q ∈ ({p} : Multiset Promise), q.mintInfo = none := by
  intro q hq
  rw [Multiset.mem_singleton.mp hq]
  exact h

theorem refundTransfer_mintless (token : AccountId) (info : BTCPendingInfo) :
    ∀ p ∈ refundTransfer token info, p.mintInfo = none := by
  intro p hp
  unfold refundTransfer at hp
  split at hp
  · rw [Multiset.mem_singleton.mp hp]
    rfl
  · exact absurd hp (Multiset.notMem_zero p)

theorem Promise.mintRevert_mintless (token bridge signer : AccountId) (m : Promise) :
    ∀ p ∈ m.mintRevert token bridge signer, p.mintInfo = none := by
  intro p hp
  unfold mintRevert at hp
  split at hp
  · rw [Multiset.mem_singleton.mp hp]
    rfl
  · exact absurd hp (Multiset.notMem_zero p)

theorem Issued.mintless {env : Env} {method : Method} {l : Ledger} {p : Promise}
    (h : Issued host env method l p) : p.mintInfo = none := by
  cases p with
  | mint | safeMint => exact h.elim
  | _ => rfl

theorem Mints.mintInfo {token signer : AccountId} {info : PendingUTXOInfo} {p m : Promise}
    (h : Mints token signer info p m) :
    p.mintInfo = none ∧ p.depositInfo = some info ∧ m.mintInfo = some info := by
  cases h <;> exact ⟨rfl, rfl, rfl⟩

/-- The life of the deposit after a confirmed transaction has registered its change. -/
theorem Ledger.Lives.settle {cause : Cause} {l l' : Ledger} {sent : Multiset Promise}
    (keys : List OutPoint) (txId root : Txid) (laws : host.Lawful)
    (hl : (cause.before l).Lives host) (hg : (cause.before l).Grounded host)
    (htaken : ∀ p ∈ cause.taken, p.mintInfo = none) (hsent : ∀ p ∈ sent, p.mintInfo = none)
    (hchange : ∀ key ∈ keys, ∃ utxo, IsChange host l.chain key utxo)
    (hwrites : l'.inflight = sent + l.inflight ∧ l'.inProgress = l.inProgress ∧
      l'.verified = l.verified ∧ l'.requests = l.requests ∧
      l'.log = l.log ++ [.utxoAdded keys, .committed txId root]) (key : OutPoint) :
    l'.Life key := by
  obtain ⟨hinflight, hin, hverified, hrequests, hlog⟩ := hwrites
  by_cases hmem : key ∈ keys
  · obtain ⟨utxo, hutxo⟩ := hchange key hmem
    have hnotIn : key ∉ (cause.before l).inProgress := by
      intro hkey
      obtain ⟨utxo', hutxo'⟩ := FiniteMap.mem_iff_lookup.mp hkey
      exact (hg.inProgress key utxo' hutxo').not_change laws hutxo
    have hnotRefunded : ¬(cause.before l).Refunded key := by
      rintro ⟨call, request, info, nowSec, hm, rfl⟩
      obtain ⟨_, hdeposit⟩ := (hg.refunds call request info nowSec hm).describes.isDeposit
      exact hdeposit.not_change laws hutxo
    exact (hl.life key).change hnotIn hnotRefunded
      ((mints_sent hsent hinflight).trans (mints_before l key htaken).symm) hin hverified hrequests
      hmem hlog
  · refine Ledger.Same.life
      (.aside sent _ htaken hsent hinflight ⟨hin, hverified, hrequests⟩ hlog ?_) (hl.life key)
    intro m hm
    simp only [List.mem_cons, List.not_mem_nil, or_false] at hm
    rcases hm with rfl | rfl
    · exact hmem
    · exact List.not_mem_nil

/-- Every outpoint lives on through every step. -/
theorem Ledger.Lives.step_life {cause : Cause} {l l' : Ledger} (laws : host.Lawful)
    (hl : (cause.before l).Lives host) (hg : (cause.before l).Grounded host)
    (hid : (cause.before l).Identified host) (h : Effect host Ledger.Unfinished cause l l')
    (key : OutPoint) : l'.Life key := by
  have hnone : ∀ p ∈ (0 : Multiset Promise), p.mintInfo = none :=
    fun p hp ↦ absurd hp (Multiset.notMem_zero p)
  have hnil : ∀ m ∈ ([] : List Mark), key ∉ m.about := fun m hm ↦ absurd hm List.not_mem_nil
  have hzero := (zero_add l.inflight).symm
  have hrefl := (List.append_nil l.log).symm
  have hkey := hl.life key
  cases h with
  | configure env method =>
    exact Ledger.Same.life
      (.aside 0 [] (Cause.mintless_call env method) hnone hzero ⟨rfl, rfl, rfl⟩ hrefl hnil) hkey
  | ignore cause h =>
    exact Ledger.Same.life (.aside 0 [] h.mintless hnone hzero ⟨rfl, rfl, rfl⟩ hrefl hnil) hkey
  | setKey env result =>
    exact Ledger.Same.life
      (.aside 0 [] (Cause.mintless_answer env result rfl) hnone hzero ⟨rfl, rfl, rfl⟩
        hrefl hnil) hkey
  | issue env method p hissued =>
    exact Ledger.Same.life (.aside {p} [] (Cause.mintless_call env method)
      (Promise.mintless_singleton hissued.mintless) rfl ⟨rfl, rfl, rfl⟩ hrefl hnil) hkey
  | collectFee env method =>
    exact Ledger.Same.life
      (.aside 0 [] (Cause.mintless_call env method) hnone hzero ⟨rfl, rfl, rfl⟩ hrefl hnil) hkey
  | create cause info payee rest fees accounts hcreates hfees hbuilds =>
    exact Ledger.Same.life (.aside 0 _ hbuilds.mintless hnone hzero ⟨rfl, rfl, rfl⟩ rfl
      (by simp [Mark.about])) hkey
  | replace cause id o o' info payee extra fees hreplaces hfees hbuilds =>
    exact Ledger.Same.life (.aside 0 _ hbuilds.mintless hnone hzero ⟨rfl, rfl, rfl⟩ rfl
      (by simp [Mark.about])) hkey
  | sign env accountId id signIndex payload path keyVersion result =>
    exact Ledger.Same.life
      (.aside 0 [] (Cause.mintless_answer env result rfl) hnone hzero ⟨rfl, rfl, rfl⟩
        hrefl hnil) hkey
  | attest env p burn result txId withdraw info hverifies hpending hstage hrefund hburn =>
    refine Ledger.Same.life (.aside {burn} _
      (Cause.mintless_answer env result (Promise.mintInfo_of_verifies hverifies))
      (Promise.mintless_singleton ?_) rfl ⟨rfl, rfl, rfl⟩ rfl (by simp [Mark.about])) hkey
    cases hburn <;> rfl
  | burnFailed env p result txId info hburns =>
    exact Ledger.Same.life
      (.aside 0 [] (Cause.mintless_answer env result (Promise.mintInfo_of_burns hburns))
        hnone hzero ⟨rfl, rfl, rfl⟩ hrefl hnil) hkey
  | discard env method =>
    exact Ledger.Same.life
      (.aside 0 [] (Cause.mintless_call env method) hnone hzero ⟨rfl, rfl, rfl⟩ hrefl hnil) hkey
  | claim env method amount =>
    refine Ledger.Same.life ?_ hkey
    exact .aside {.transferNbtc l.token env.predecessor amount} []
      (Cause.mintless_call env method) (Promise.mintless_singleton rfl) rfl ⟨rfl, rfl, rfl⟩ hrefl
      hnil
  | transferFailed env token account amount result =>
    exact Ledger.Same.life
      (.aside 0 [] (Cause.mintless_answer env result rfl) hnone hzero ⟨rfl, rfl, rfl⟩
        hrefl hnil) hkey
  | withdrawFee env method amount =>
    refine Ledger.Same.life ?_ hkey
    exact .aside {.withdrawProtocolFee l.token env.predecessor amount} []
      (Cause.mintless_call env method) (Promise.mintless_singleton rfl) rfl ⟨rfl, rfl, rfl⟩ hrefl
      hnil
  | feeFailed env token receiver amount claimed result =>
    exact Ledger.Same.life
      (.aside 0 [] (Cause.mintless_answer env result rfl) hnone hzero ⟨rfl, rfl, rfl⟩
        hrefl hnil) hkey
  | commitWithdraw env token account relayer amount relayerFee txId protocolFee result info o tx s
      fees hsuccess hcommits =>
    refine Ledger.Lives.settle ((l.change host txId tx).map Prod.fst) txId (info.root txId) laws
      hl hg (Cause.mintless_answer env result rfl) (refundTransfer_mintless l.token info) ?_ ?_ key
    · intro k hk
      obtain ⟨⟨_, utxo⟩, hmem, rfl⟩ := List.mem_map.mp hk
      exact ⟨utxo, (Ledger.mem_change (hid txId info hcommits.pending) hcommits.tx hmem).2⟩
    · exact ⟨rfl, rfl, rfl, rfl, rfl⟩
  | commitActive env token account relayer amount txId result info o tx s fees hsuccess hcommits =>
    refine Ledger.Lives.settle ((l.change host txId tx).map Prod.fst) txId (info.root txId) laws
      hl hg (Cause.mintless_answer env result rfl) hnone ?_ ?_ key
    · intro k hk
      obtain ⟨⟨_, utxo⟩, hmem, rfl⟩ := List.mem_map.mp hk
      exact ⟨utxo, (Ledger.mem_change (hid txId info hcommits.pending) hcommits.tx hmem).2⟩
    · exact ⟨hzero, rfl, rfl, rfl, rfl⟩
  | request env msg refundAddress txId output vout gasFee result request hscript hnew hfree heq =>
    refine Ledger.Same.life
      (.quiet 0 _ (Cause.mintless_answer env result rfl) hnone hzero Iff.rfl Iff.rfl ?_ rfl
        (by simp [Mark.about])) hkey
    intro request' hrequest hexecuted
    by_cases hk : key = ⟨txId, vout⟩
    · rw [hk, AList.lookup_insert, Option.some.injEq] at hrequest
      rw [← hrequest, heq] at hexecuted
      cases hexecuted
    · rw [AList.lookup_insert_ne hk] at hrequest
      exact ⟨request', hrequest, hexecuted⟩
  | reject env method k request =>
    refine Ledger.Same.life
      (.quiet 0 [] (Cause.mintless_call env method) hnone hzero Iff.rfl Iff.rfl ?_ hrefl hnil) hkey
    intro request' hrequest hexecuted
    exact ⟨request', (FiniteMap.lookup_of_erase hrequest).1, hexecuted⟩
  | finalizeRefund env txId confirmations result info k =>
    refine Ledger.Same.life
      (.quiet 0 _ (Cause.mintless_answer env result rfl) hnone hzero Iff.rfl Iff.rfl ?_ rfl
        (by simp [Mark.about])) hkey
    intro request' hrequest hexecuted
    exact ⟨request', (FiniteMap.lookup_of_erase hrequest).1, hexecuted⟩
  | lose p result =>
    cases hinfo : p.mintInfo with
    | none =>
      refine Ledger.Same.life (.aside 0 (p.lostMarks result) ?_ hnone hzero ⟨rfl, rfl, rfl⟩ rfl ?_)
        hkey
      · exact Promise.mintless_singleton hinfo
      · intro m hm
        obtain ⟨_, hsome, _⟩ := Promise.mem_lostMarks.mp hm
        rw [hinfo] at hsome
        cases hsome
    | some info =>
      have hmints := Ledger.mints_taken (.lost p result) l rfl hinfo key
      have hlog : p.lostMarks result
          = [.mintCallbackLost info.utxoStorageKey (p.minted result)] := by
        rw [Promise.lostMarks, hinfo]
      by_cases hk : info.utxoStorageKey = key
      · subst hk
        rw [if_pos rfl] at hmints
        have hle := hkey.mints_le
        exact hkey.lose (by omega) (show l.mints info.utxoStorageKey = 0 by omega) rfl rfl
          (by rw [hlog]; rfl)
      · rw [if_neg hk, zero_add] at hmints
        refine Ledger.Same.life (Ledger.Same.mk hmints.symm Iff.rfl Iff.rfl
          (fun request hrequest hexecuted ↦ ⟨request, hrequest, hexecuted⟩) ⟨_, rfl, ?_⟩) hkey
        rw [hlog]
        simp only [List.mem_singleton, forall_eq, Mark.about]
        exact fun h ↦ hk h.symm
  | begin env p m result info hmints hnew =>
    obtain ⟨hp, hdeposit, hm⟩ := hmints.mintInfo
    have hbefore : ∀ q ∈ (Cause.answer env p result).taken, q.mintInfo = none :=
      Cause.mintless_answer env result hp
    have hmints' : Ledger.mints { l with inflight := m ::ₘ l.inflight } key =
        (Cause.before (.answer env p result) l).mints key +
          if info.utxoStorageKey = key then 1 else 0 := by
      rw [Ledger.mints_before l key hbefore]
      exact Ledger.mints_cons hm rfl key
    by_cases hk : info.utxoStorageKey = key
    · subst hk
      have hgrounded := (hg.promises p
          (Multiset.mem_add.mpr (Or.inl (Multiset.mem_singleton_self p))))
      have hreg := hl.not_registered laws (hgrounded.deposit hdeposit) hnew
      rw [if_pos rfl, (hkey.unclaimed hnew).2.1] at hmints'
      exact hkey.begin hnew hreg hmints' ((AList.mem_insert _).mpr (Or.inl rfl))
        (Finset.mem_insert_self _ _) rfl rfl
    · rw [if_neg hk, add_zero] at hmints'
      have hne : key ≠ info.utxoStorageKey := fun h ↦ hk h.symm
      refine Ledger.Same.life (Ledger.Same.mk hmints' ?_ ?_
        (fun request hrequest hexecuted ↦ ⟨request, hrequest, hexecuted⟩) ⟨_, rfl, ?_⟩) hkey
      · exact (AList.mem_insert _).trans (or_iff_right hne)
      · exact Finset.mem_insert.trans (or_iff_right hne)
      · simpa [Mark.about] using hne
  | finish env m result info accounts hinfo hminted haccounts =>
    have hmints := Ledger.mints_taken (.answer env m result) l rfl hinfo key
    by_cases hk : info.utxoStorageKey = key
    · subst hk
      rw [if_pos rfl] at hmints
      have hle := hkey.mints_le
      exact hkey.register (hkey.minting (by omega)) (Or.inl rfl)
        (show l.mints info.utxoStorageKey = 0 by omega) (AList.mem_erase.not.mpr (by simp)) rfl
        rfl rfl
    · rw [if_neg hk, zero_add] at hmints
      have hne : key ≠ info.utxoStorageKey := fun h ↦ hk h.symm
      refine Ledger.Same.life (Ledger.Same.mk hmints.symm ?_ Iff.rfl
        (fun request hrequest hexecuted ↦ ⟨request, hrequest, hexecuted⟩) ⟨_, rfl, ?_⟩) hkey
      · exact AList.mem_erase.trans (and_iff_right hne)
      · simpa [Mark.about] using hne
  | revert env m result info hinfo hminted =>
    have hmints := Ledger.mints_taken (.answer env m result) l rfl hinfo key
    have hsent : Ledger.mints { l with
        inflight := m.mintRevert l.token host.currentAccountId env.signer + l.inflight } key
        = l.mints key :=
      Ledger.mints_sent (Promise.mintRevert_mintless l.token host.currentAccountId env.signer m) rfl
    by_cases hk : info.utxoStorageKey = key
    · subst hk
      rw [if_pos rfl] at hmints
      have hle := hkey.mints_le
      exact hkey.revert (by omega) (hsent.trans (by omega))
        (AList.mem_erase.not.mpr (by simp)) rfl rfl
    · rw [if_neg hk, zero_add] at hmints
      have hne : key ≠ info.utxoStorageKey := fun h ↦ hk h.symm
      refine Ledger.Same.life (Ledger.Same.mk (hsent.trans hmints.symm) ?_ ?_
        (fun request hrequest hexecuted ↦ ⟨request, hrequest, hexecuted⟩) ⟨_, rfl, ?_⟩) hkey
      · exact AList.mem_erase.trans (and_iff_right hne)
      · exact Finset.mem_erase.trans (and_iff_right hne)
      · simp [Mark.about]
  | complete env method k utxo fee accounts hbrings hguard hdeposit hverified hutxo hrequest =>
    have hmints := Ledger.mints_before l key (Cause.mintless_call env method)
    by_cases hk : k = key
    · subst hk
      have hzero' : l.mints k = 0 := by
        rcases hguard.2 with hzero | hlost
        · exact hzero
        · exact hmints ▸ (hkey.lost hlost).1
      exact hkey.register hguard.1 (Or.inr rfl) hzero' (AList.mem_erase.not.mpr (by simp)) rfl
        rfl rfl
    · have hne : key ≠ k := fun h ↦ hk h.symm
      refine Ledger.Same.life (Ledger.Same.mk hmints.symm ?_ Iff.rfl
        (fun request hrequest hexecuted ↦ ⟨request, hrequest, hexecuted⟩) ⟨_, rfl, ?_⟩) hkey
      · exact AList.mem_erase.trans (and_iff_right hne)
      · simpa [Mark.about] using hne
  | refund cause call request info nowSec accounts hcall hcreates =>
    have htaken : ∀ p ∈ cause.taken, p.mintInfo = none := by
      rcases hcall with ⟨env, data, result, rfl⟩ | ⟨env, data, rfl, _⟩
      · exact Cause.mintless_answer env result rfl
      · exact Cause.mintless_call env _
    have hmints := Ledger.mints_before l key htaken
    by_cases hk : call.utxoStorageKey = key
    · subst hk
      obtain ⟨utxo, hdeposit⟩ :=
        (hg.requests call.utxoStorageKey request hcreates.stored).isDeposit
      have hfree : call.utxoStorageKey ∉ l.inProgress ∧
          call.utxoStorageKey ∉ registered l.log := by
        rcases hcreates.free with hnew | hexecuted
        · exact ⟨(hkey.unclaimed hnew).1, hl.not_registered laws hdeposit hnew⟩
        · have href := hkey.executed request hcreates.stored hexecuted
          exact ⟨fun h ↦ (hkey.inProgress h).2.2.1 href, (hkey.refunded href).2⟩
      exact hkey.refund hfree.1 hfree.2 rfl hmints.symm rfl (Finset.mem_insert_self _ _) rfl
    · have hne : key ≠ call.utxoStorageKey := fun h ↦ hk h.symm
      refine Ledger.Same.life (Ledger.Same.mk hmints.symm Iff.rfl ?_ ?_ ⟨_, rfl, ?_⟩) hkey
      · exact Finset.mem_insert.trans (or_iff_right hne)
      · intro request' hrequest hexecuted
        rw [AList.lookup_insert_ne hne] at hrequest
        exact ⟨request', hrequest, hexecuted⟩
      · simpa [Mark.about] using hne

/-- An outpoint registered by a step is a deposit or change. -/
theorem Effect.registers {Completes : Ledger → OutPoint → Prop} {cause : Cause} {l l' : Ledger}
    (hid : l.Identified host) (h : Effect host Completes cause l l') {key : OutPoint}
    (hkey : key ∈ registered l'.log) :
    key ∈ registered l.log ∨ l'.Deposited key ∨ ∃ utxo, IsChange host l.chain key utxo := by
  have hsettled {txId root : Txid} {info : BTCPendingInfo} {tx : Transaction}
      (hpending : l.pendings.lookup txId = some info) (htx : info.getTransaction = some tx)
      (hkey : key ∈ registered (l.log ++ [.utxoAdded ((l.change host txId tx).map Prod.fst),
        .committed txId root])) :
      key ∈ registered l.log ∨ ∃ utxo, IsChange host l.chain key utxo := by
    rw [registered_append, List.mem_append] at hkey
    rcases hkey with hold | hnew
    · exact Or.inl hold
    · have hmem : key ∈ (l.change host txId tx).map Prod.fst := by simpa [registered] using hnew
      obtain ⟨⟨_, utxo⟩, hentry, rfl⟩ := List.mem_map.mp hmem
      exact Or.inr ⟨utxo, (Ledger.mem_change (hid txId info hpending) htx hentry).2⟩
  cases h with
  | finish env m result info =>
    rw [registered_append, List.mem_append] at hkey
    rcases hkey with hold | hnew
    · exact Or.inl hold
    · have heq : key = info.utxoStorageKey := by simpa [registered] using hnew
      refine Or.inr (Or.inl (Or.inl ?_))
      rw [heq]
      simp
  | complete env method k =>
    rw [registered_append, List.mem_append] at hkey
    rcases hkey with hold | hnew
    · exact Or.inl hold
    · have heq : key = k := by simpa [registered] using hnew
      refine Or.inr (Or.inl (Or.inr ?_))
      rw [heq]
      simp
  | commitWithdraw env token account relayer amount relayerFee txId protocolFee result info o tx s
      fees hsuccess hcommits =>
    exact (hsettled hcommits.pending hcommits.tx hkey).imp_right Or.inr
  | commitActive env token account relayer amount txId result info o tx s fees hsuccess hcommits =>
    exact (hsettled hcommits.pending hcommits.tx hkey).imp_right Or.inr
  | lose p result =>
    rw [registered_append, List.mem_append] at hkey
    rcases hkey with hold | hnew
    · exact Or.inl hold
    · obtain ⟨m, hm, hadds⟩ := List.mem_flatMap.mp hnew
      obtain ⟨_, _, rfl⟩ := Promise.mem_lostMarks.mp hm
      exact absurd hadds List.not_mem_nil
  | _ => exact Or.inl (by simpa [registered] using hkey)

theorem Effect.deposited {Completes : Ledger → OutPoint → Prop} {cause : Cause} {l l' : Ledger}
    (h : Effect host Completes cause l l') {key : OutPoint} (hkey : l.Deposited key) :
    l'.Deposited key :=
  hkey.imp h.mem_log h.mem_log

theorem Ledger.Lives.step {cause : Cause} {l l' : Ledger} (laws : host.Lawful)
    (hl : (cause.before l).Lives host) (hg : (cause.before l).Grounded host)
    (hid : (cause.before l).Identified host) (h : Effect host Ledger.Unfinished cause l l') :
    l'.Lives host where
  life := hl.step_life laws hg hid h
  origin := by
    intro key hkey
    have hid' : l.Identified host := hid
    rw [h.chain]
    rcases h.registers hid' hkey with hold | hnew
    · exact (hl.origin key hold).imp_left h.deposited
    · exact hnew

theorem Ledger.Reached.lives (laws : host.Lawful) {l : Ledger}
    (h : Ledger.Reached host Ledger.Unfinished l) : l.Lives host :=
  Ledger.Reached.induct (fun _ h₀ ↦ .initial h₀)
    (fun _ _ _ hreached hl heffect ↦
      hl.step laws (hreached.grounded laws) hreached.identified heffect) l h

/-! ### Guards -/

namespace Sys

variable {s : Sys}

/-- A run that keeps to a guard keeps to a weaker one. -/
theorem Reachable.weaken {guard weaker : Guard} (hle : ∀ s key, guard s key → weaker s key)
    (h : Reachable host guard s) : Reachable host weaker s := by
  refine Transition.Reachable.mono (fun s a ha ↦ ?_) h
  cases a with
  | call env method =>
    cases method with
    | completeFailedDepositMint msg txBytes vout fee =>
      exact fun summary htx ↦ hle s _ (ha summary htx)
    | _ => trivial
  | callback => trivial
  | lose => trivial

/-- A run without completions by hand keeps to every guard on them. -/
theorem Reachable.ofNever (h : Reachable host never s) : Reachable host unfinished s :=
  h.weaken fun _ _ hnever ↦ hnever.elim

/-- While only deposits in progress are completed by hand, so does the ledger. -/
theorem Reachable.ofUnfinished (laws : host.ReadsAddresses) (h : Reachable host unfinished s) :
    Ledger.Reached host Ledger.Unfinished s.ledger := by
  refine h.ledger laws fun s key hkey ↦ ?_
  obtain ⟨hprogress, hmints⟩ := hkey
  refine ⟨AList.lookup_isSome.mp hprogress, Or.inl ?_⟩
  unfold Ledger.mints
  rw [Multiset.countP_eq_zero]
  intro p hp hinfo
  obtain ⟨info, hmint, heq⟩ := Option.map_eq_some_iff.mp hinfo
  exact hmints p (Multiset.mem_coe.mp hp) info hmint heq

end Sys

end SatoshiBridge
