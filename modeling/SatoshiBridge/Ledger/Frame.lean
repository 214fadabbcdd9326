import SatoshiBridge.Ledger.Effect

/-!
# What a step can change

For each part of the ledger, the ways a step can change it. The invariants of a part are proved over
these few cases: a promise in flight was sent, a pending transaction arose, a request was written.
-/

set_option autoImplicit false
set_option relaxedAutoImplicit false

namespace SatoshiBridge

variable {host : Host} {Completes : Ledger → OutPoint → Prop} {cause : Cause} {l l' : Ledger}

/-! ### What no step changes -/

theorem Effect.chain (h : Effect host Completes cause l l') : l'.chain = l.chain := by
  cases h <;> rfl

/-- The history only grows. -/
theorem Effect.log (h : Effect host Completes cause l l') : ∃ marks, l'.log = l.log ++ marks := by
  cases h with
  | configure | ignore | setKey | issue | collectFee | sign | burnFailed | discard | claim
  | transferFailed | withdrawFee | feeFailed | reject => exact ⟨[], (List.append_nil _).symm⟩
  | _ => exact ⟨_, rfl⟩

theorem Effect.mem_log (h : Effect host Completes cause l l') {m : Mark} (hm : m ∈ l.log) :
    m ∈ l'.log := by
  obtain ⟨marks, hlog⟩ := h.log
  rw [hlog]
  exact List.mem_append_left marks hm

/-- No account is deleted. -/
theorem Effect.accounts (h : Effect host Completes cause l l') : l.accounts ⊆ l'.accounts := by
  cases h with
  | configure _ _ _ _ _ _ _ _ haccounts => exact haccounts
  | finish _ _ _ _ _ _ _ haccounts => exact haccounts
  | complete _ _ _ _ _ _ _ _ _ _ _ _ haccounts => exact haccounts
  | create _ _ _ _ _ _ _ _ _ haccounts => exact haccounts
  | refund _ _ _ _ _ _ _ _ haccounts => exact haccounts
  | _ => exact subset_refl _

/-- The bridge keeps its keys. -/
theorem Effect.ready (h : Effect host Completes cause l l') (hready : l.ready = true) :
    l'.ready = true := by
  cases h with
  | setKey => rfl
  | _ => exact hready

/-! ### Promises in flight -/

/-- How a promise gets into flight in a step on `l`. -/
inductive Sent (host : Host) (cause : Cause) (l : Ledger) (p : Promise) : Prop
  | issued (env : Env) (method : Method) (hcause : cause = .call env method)
      (hissued : Issued host env method l p)
  | minted (env : Env) (q : Promise) (result : PromiseResult) (info : PendingUTXOInfo)
      (hcause : cause = .answer env q result) (hmints : Mints l.token env.signer info q p)
  | burning (env : Env) (q : Promise) (result : PromiseResult) (txId : Txid) (withdraw : Bool)
      (info : BTCPendingInfo) (hcause : cause = .answer env q result)
      (hverifies : q.verifies = some (txId, withdraw))
      (hpending : l.pendings.lookup txId = some info)
      (hrefund : info.state.isRefund = false) (hburn : BurnOf l.token info txId withdraw p)
  | detached (token account relayer : AccountId) (amount fee : ℕ)
      (hp : p = .burnDetached token account amount relayer fee)
  | transferred (token account : AccountId) (amount : ℕ)
    (hp : p = .transferNbtc token account amount)
  | claimed (token receiver : AccountId) (amount : ℕ)
      (hp : p = .withdrawProtocolFee token receiver amount)

/-- A promise in flight after a step was there before or is one of these. -/
theorem Effect.sent (h : Effect host Completes cause l l') {p : Promise}
    (hp : p ∈ l'.inflight) : p ∈ l.inflight ∨ Sent host cause l p := by
  cases h with
  | issue env method q hissued =>
    rcases Multiset.mem_cons.mp hp with rfl | hp
    · exact Or.inr (.issued env method rfl hissued)
    · exact Or.inl hp
  | begin env q m result info hmints =>
    rcases Multiset.mem_cons.mp hp with rfl | hp
    · exact Or.inr (.minted env q result info rfl hmints)
    · exact Or.inl hp
  | revert env m result info hinfo hminted =>
    rcases Multiset.mem_add.mp hp with hp | hp
    · unfold Promise.mintRevert at hp
      split at hp
      · exact Or.inr (.detached _ _ _ _ _ (Multiset.mem_singleton.mp hp))
      · exact absurd hp (Multiset.notMem_zero p)
    · exact Or.inl hp
  | attest env q burn result txId withdraw info hverifies hpending hstage hrefund hburn =>
    rcases Multiset.mem_cons.mp hp with rfl | hp
    · exact Or.inr (.burning env q result txId withdraw info rfl hverifies hpending hrefund hburn)
    · exact Or.inl hp
  | commitWithdraw =>
    rcases Multiset.mem_add.mp hp with hp | hp
    · unfold refundTransfer at hp
      split at hp
      · exact Or.inr (.transferred _ _ _ (Multiset.mem_singleton.mp hp))
      · exact absurd hp (Multiset.notMem_zero p)
    · exact Or.inl hp
  | claim =>
    rcases Multiset.mem_cons.mp hp with rfl | hp
    · exact Or.inr (.transferred _ _ _ rfl)
    · exact Or.inl hp
  | withdrawFee =>
    rcases Multiset.mem_cons.mp hp with rfl | hp
    · exact Or.inr (.claimed _ _ _ rfl)
    · exact Or.inl hp
  | configure | ignore | lose | setKey | finish | complete | collectFee | create | replace | sign
  | burnFailed | commitActive | discard | transferFailed | feeFailed | request | reject | refund
  | finalizeRefund => exact Or.inl hp

/-! ### Refunds in the history -/

theorem Promise.mem_lostMarks {p : Promise} {result : PromiseResult} {m : Mark} :
    m ∈ p.lostMarks result ↔ ∃ info, p.mintInfo = some info ∧
      m = .mintCallbackLost info.utxoStorageKey (p.minted result) := by
  unfold Promise.lostMarks
  cases p.mintInfo <;> simp

/-- A refund in the history was there before or has just been created. -/
theorem Effect.refundCreated (h : Effect host Completes cause l l') {call : ExecuteRefundCall}
    {request : RefundRequest} {info : BTCPendingInfo} {nowSec : ℕ}
    (hm : Mark.refundCreated call request info nowSec ∈ l'.log) :
    Mark.refundCreated call request info nowSec ∈ l.log ∨
      (CreatesRefund host l call request info nowSec ∧
        l'.requests.lookup call.utxoStorageKey = some { request with executed := true } ∧
        ((∃ env data result, cause = .answer env (.executeRefund call data) result) ∨
          ∃ env data, cause = .call env (.executeRefund call.utxoStorageKey data) ∧
            Resolved host env l call)) := by
  cases h with
  | refund cause call' request' info' nowSec' accounts hcall hcreates =>
    simp only [List.mem_append, List.mem_cons, List.not_mem_nil, reduceCtorEq, or_false, false_or,
      Mark.refundCreated.injEq] at hm
    rcases hm with hm | ⟨rfl, rfl, rfl, rfl⟩
    · exact Or.inl hm
    · exact Or.inr ⟨hcreates, AList.lookup_insert _, hcall⟩
  | lose p result =>
    rcases List.mem_append.mp hm with hm | hm
    · exact Or.inl hm
    · obtain ⟨_, _, heq⟩ := Promise.mem_lostMarks.mp hm
      cases heq
  | _ => exact Or.inl (by simpa [Ledger.settle] using hm)

/-! ### Confirmations in the history -/

/-- An attested transaction was attested before or has just been. -/
theorem Effect.attestedMark (h : Effect host Completes cause l l') {txId root : Txid}
    (hm : Mark.attested txId root ∈ l'.log) :
    Mark.attested txId root ∈ l.log ∨ ∃ info, l.pendings.lookup txId = some info ∧
      root = info.root txId ∧ info.state.isRefund = false := by
  cases h with
  | attest env p burn result id withdraw info hverifies hpending hstage hrefund =>
    simp only [List.mem_append, List.mem_singleton, Mark.attested.injEq] at hm
    rcases hm with hm | ⟨rfl, rfl⟩
    · exact Or.inl hm
    · exact Or.inr ⟨info, hpending, rfl, hrefund⟩
  | lose p result =>
    rcases List.mem_append.mp hm with hm | hm
    · exact Or.inl hm
    · obtain ⟨_, _, heq⟩ := Promise.mem_lostMarks.mp hm
      cases heq
  | _ => exact Or.inl (by simpa [Ledger.settle] using hm)

/-- A committed transaction was committed before, or has just been and is gone with its
original. -/
theorem Effect.committedMark (h : Effect host Completes cause l l') {txId root : Txid}
    (hm : Mark.committed txId root ∈ l'.log) :
    Mark.committed txId root ∈ l.log ∨ ∃ info o tx s, Commits l txId info o tx ∧
      root = info.root txId ∧ o.state.originalState = some s ∧
      l'.pendings = (l.pendings.erase root).erase txId ∧
      ∃ p ∈ cause.taken, p.burns = some txId := by
  cases h with
  | commitWithdraw env token account relayer amount relayerFee id protocolFee result info o tx s
      fees hsuccess hcommits hstate =>
    simp only [Ledger.settle, List.mem_append, List.mem_cons, List.not_mem_nil, reduceCtorEq,
      or_false, false_or, Mark.committed.injEq] at hm
    rcases hm with hm | ⟨rfl, rfl⟩
    · exact Or.inl hm
    · exact Or.inr ⟨info, o, tx, s, hcommits, rfl, hstate, rfl, _,
        Multiset.mem_singleton_self _, rfl⟩
  | commitActive env token account relayer amount id result info o tx s fees hsuccess hcommits
      hstate =>
    simp only [Ledger.settle, List.mem_append, List.mem_cons, List.not_mem_nil, reduceCtorEq,
      or_false, false_or, Mark.committed.injEq] at hm
    rcases hm with hm | ⟨rfl, rfl⟩
    · exact Or.inl hm
    · exact Or.inr ⟨info, o, tx, s, hcommits, rfl, hstate, rfl, _,
        Multiset.mem_singleton_self _, rfl⟩
  | lose p result =>
    rcases List.mem_append.mp hm with hm | hm
    · exact Or.inl hm
    · obtain ⟨_, _, heq⟩ := Promise.mem_lostMarks.mp hm
      cases heq
  | _ => exact Or.inl (by simpa using hm)

/-! ### Pending transactions -/

/-- How a pending transaction got where it is after a step from `l` to `l'`. -/
inductive Arises (host : Host) (cause : Cause) (l l' : Ledger) (id : Txid) (info : BTCPendingInfo) :
    Prop
  | kept (h : l.pendings.lookup id = some info)
  | created (payee : Option String) (rest : FiniteMap OutPoint UTXO) (hid : id = info.btcPendingId)
      (hcreates : CreatesOriginal host l info payee rest)
      (hlog : l'.log = l.log ++ [.utxoRemoved info.inputs info.btcPendingId, .created info payee])
      (howner : info.accountId ∈ l'.accounts)
  | replaced (root : Txid) (o o' : BTCPendingInfo) (payee : Option String) (extra : ℕ)
      (hid : id = info.btcPendingId) (hreplaces : Replaces host l root o o' info payee extra)
      (hlog : l'.log = l.log ++ [.created info payee])
      (horiginal : l'.pendings.lookup root = some o')
  | original (o child : BTCPendingInfo) (payee : Option String) (extra : ℕ)
      (hreplaces : Replaces host l id o info child payee extra)
  | signed (old : BTCPendingInfo) (hold : l.pendings.lookup id = some old)
      (hsigns : Signs host old info)
  | attested (old : BTCPendingInfo) (hold : l.pendings.lookup id = some old)
      (hstage : old.state.stage = .pendingVerify) (hrefund : old.state.isRefund = false)
      (hinfo : info = { old with state := old.state.setStage .pendingBurn })
  | unburnt (old : BTCPendingInfo) (hold : l.pendings.lookup id = some old)
      (hinfo : info = old.toPendingVerifyStage) (hburns : ∃ p ∈ cause.taken, p.burns = some id)
  | refunded (call : ExecuteRefundCall) (request : RefundRequest) (nowSec : ℕ)
      (hid : id = info.btcPendingId) (hcreates : CreatesRefund host l call request info nowSec)
      (hlog : l'.log = l.log ++ [.created info (some request.refundAddress),
        .refundCreated call request info nowSec])
      (howner : info.accountId ∈ l'.accounts)
      (hstored : l'.requests.lookup call.utxoStorageKey = some { request with executed := true })

/-- A replacement has an id of its own. -/
theorem Replaces.id_ne {id : Txid} {o o' info : BTCPendingInfo} {payee : Option String}
    {extra : ℕ} (h : Replaces host l id o o' info payee extra) : id ≠ info.btcPendingId := by
  intro heq
  have hfresh := h.fresh
  rw [← heq, h.original] at hfresh
  cases hfresh

/-- A pending transaction after a step is one of these. -/
theorem Effect.arises (h : Effect host Completes cause l l') {id : Txid} {info : BTCPendingInfo}
    (hinfo : l'.pendings.lookup id = some info) : Arises host cause l l' id info := by
  cases h with
  | create cause new payee rest fees accounts hcreates hfees hbrings haccounts howner =>
    by_cases hid : id = new.btcPendingId
    · subst hid
      rw [AList.lookup_insert, Option.some.injEq] at hinfo
      subst hinfo
      exact .created payee rest rfl hcreates rfl howner
    · rw [AList.lookup_insert_ne hid] at hinfo
      exact .kept hinfo
  | replace cause root o o' new payee extra fees hreplaces =>
    by_cases hid : id = new.btcPendingId
    · subst hid
      rw [AList.lookup_insert, Option.some.injEq] at hinfo
      subst hinfo
      refine .replaced root o o' payee extra rfl hreplaces rfl ?_
      dsimp only
      rw [AList.lookup_insert_ne hreplaces.id_ne]
      exact AList.lookup_insert _
    · rw [AList.lookup_insert_ne hid] at hinfo
      by_cases hroot : id = root
      · subst hroot
        rw [AList.lookup_insert, Option.some.injEq] at hinfo
        subst hinfo
        exact .original o new payee extra hreplaces
      · rw [AList.lookup_insert_ne hroot] at hinfo
        exact .kept hinfo
  | sign env accountId id' signIndex payload path keyVersion result old new hold hsigns =>
    by_cases hid : id = id'
    · subst hid
      rw [AList.lookup_insert, Option.some.injEq] at hinfo
      subst hinfo
      exact .signed old hold hsigns
    · rw [AList.lookup_insert_ne hid] at hinfo
      exact .kept hinfo
  | attest env p burn result txId withdraw old hverifies hold hstage hrefund =>
    by_cases hid : id = txId
    · subst hid
      rw [AList.lookup_insert, Option.some.injEq] at hinfo
      exact .attested old hold hstage hrefund hinfo.symm
    · rw [AList.lookup_insert_ne hid] at hinfo
      exact .kept hinfo
  | burnFailed env p result txId old hburns hfailed hold =>
    by_cases hid : id = txId
    · subst hid
      rw [AList.lookup_insert, Option.some.injEq] at hinfo
      exact .unburnt old hold hinfo.symm ⟨p, Multiset.mem_singleton_self p, hburns⟩
    · rw [AList.lookup_insert_ne hid] at hinfo
      exact .kept hinfo
  | commitWithdraw =>
    exact .kept (FiniteMap.lookup_of_erase (FiniteMap.lookup_of_erase hinfo).1).1
  | commitActive =>
    exact .kept (FiniteMap.lookup_of_erase (FiniteMap.lookup_of_erase hinfo).1).1
  | discard env method ids rest infos hbrings htakes =>
    have hlookup := (FiniteMap.takeAll_spec htakes).2.2 id
    rw [hinfo] at hlookup
    split at hlookup
    · cases hlookup
    · exact .kept hlookup.symm
  | refund cause call request new nowSec accounts hcall hcreates haccounts howner =>
    by_cases hid : id = new.btcPendingId
    · subst hid
      rw [AList.lookup_insert, Option.some.injEq] at hinfo
      subst hinfo
      exact .refunded call request nowSec rfl hcreates rfl howner (AList.lookup_insert _)
    · rw [AList.lookup_insert_ne hid] at hinfo
      exact .kept hinfo
  | finalizeRefund => exact .kept (FiniteMap.lookup_of_erase hinfo).1
  | configure | ignore | lose | setKey | issue | begin | finish | revert | complete | collectFee
  | claim | transferFailed | withdrawFee | feeFailed | request | reject => exact .kept hinfo

/-- A transaction whose creation is in the history was created before or is pending. -/
theorem Effect.created (h : Effect host Completes cause l l') {info : BTCPendingInfo}
    {payee : Option String} (hm : Mark.created info payee ∈ l'.log) :
    Mark.created info payee ∈ l.log ∨ l'.pendings.lookup info.btcPendingId = some info := by
  cases h with
  | create cause new payee' rest fees accounts hcreates =>
    simp only [List.mem_append, List.mem_cons, List.not_mem_nil, reduceCtorEq, or_false, false_or,
      Mark.created.injEq] at hm
    rcases hm with hm | ⟨rfl, rfl⟩
    · exact Or.inl hm
    · exact Or.inr (AList.lookup_insert _)
  | replace cause root o o' new payee' extra fees hreplaces =>
    simp only [List.mem_append, List.mem_cons, List.not_mem_nil, or_false,
      Mark.created.injEq] at hm
    rcases hm with hm | ⟨rfl, rfl⟩
    · exact Or.inl hm
    · exact Or.inr (AList.lookup_insert _)
  | refund cause call request new nowSec accounts hcall hcreates =>
    simp only [List.mem_append, List.mem_cons, List.not_mem_nil, reduceCtorEq, or_false,
      Mark.created.injEq] at hm
    rcases hm with hm | ⟨rfl, rfl⟩
    · exact Or.inl hm
    · exact Or.inr (AList.lookup_insert _)
  | lose p result =>
    rcases List.mem_append.mp hm with hm | hm
    · exact Or.inl hm
    · obtain ⟨_, _, heq⟩ := Promise.mem_lostMarks.mp hm
      cases heq
  | _ => exact Or.inl (by simpa [Ledger.settle] using hm)

/-! ### Pending transactions that stay what they are -/

/-- `info` is `old` in another stage or with more signatures. -/
structure Carries (host : Host) (old info : BTCPendingInfo) : Prop where
  accountId : info.accountId = old.accountId
  btcPendingId : info.btcPendingId = old.btcPendingId
  transferAmount : info.transferAmount = old.transferAmount
  actualReceivedAmount : info.actualReceivedAmount = old.actualReceivedAmount
  withdrawFee : info.withdrawFee = old.withdrawFee
  gasFee : info.gasFee = old.gasFee
  burnAmount : info.burnAmount = old.burnAmount
  vutxos : info.vutxos = old.vutxos
  transaction : info.psbt.transaction host = old.psbt.transaction host
  inputs : info.inputs = old.inputs
  coins : info.psbt.inputsUtxo = old.psbt.inputsUtxo
  vout : info.psbt.vout = old.psbt.vout
  orchard : info.psbt.orchard = old.psbt.orchard
  recipient : info.psbt.recipientAddress = old.psbt.recipientAddress
  count : info.signatures.length = old.signatures.length
  kind : info.state.kind = old.state.kind

namespace Carries

variable {old info later : BTCPendingInfo}

theorem of_state (old : BTCPendingInfo) {state : PendingInfoState}
    (hkind : state.kind = old.state.kind) : Carries host old { old with state := state } :=
  ⟨rfl, rfl, rfl, rfl, rfl, rfl, rfl, rfl, rfl, rfl, rfl, rfl, rfl, rfl, rfl, hkind⟩

theorem refl (host : Host) (info : BTCPendingInfo) : Carries host info info := of_state info rfl

theorem trans (h : Carries host old info) (h' : Carries host info later) :
    Carries host old later where
  accountId := h'.accountId.trans h.accountId
  btcPendingId := h'.btcPendingId.trans h.btcPendingId
  transferAmount := h'.transferAmount.trans h.transferAmount
  actualReceivedAmount := h'.actualReceivedAmount.trans h.actualReceivedAmount
  withdrawFee := h'.withdrawFee.trans h.withdrawFee
  gasFee := h'.gasFee.trans h.gasFee
  burnAmount := h'.burnAmount.trans h.burnAmount
  vutxos := h'.vutxos.trans h.vutxos
  transaction := h'.transaction.trans h.transaction
  inputs := h'.inputs.trans h.inputs
  coins := h'.coins.trans h.coins
  vout := h'.vout.trans h.vout
  orchard := h'.orchard.trans h.orchard
  recipient := h'.recipient.trans h.recipient
  count := h'.count.trans h.count
  kind := h'.kind.trans h.kind

theorem originalTxId (h : Carries host old info) :
    info.state.originalTxId = old.state.originalTxId := by
  rw [← PendingInfoState.originalTxId_kind, h.kind, PendingInfoState.originalTxId_kind]

theorem root (h : Carries host old info) (id : Txid) : info.root id = old.root id := by
  unfold BTCPendingInfo.root BTCPendingInfo.getOriginalTxId
  rw [h.originalTxId]

theorem isWithdrawRelated (h : Carries host old info) :
    info.state.isWithdrawRelated = old.state.isWithdrawRelated := by
  rw [← PendingInfoState.isWithdrawRelated_kind, h.kind, PendingInfoState.isWithdrawRelated_kind]

theorem isRefund (h : Carries host old info) : info.state.isRefund = old.state.isRefund := by
  rw [← PendingInfoState.isRefund_kind, h.kind, PendingInfoState.isRefund_kind]

end Carries

theorem Signs.carries {old info : BTCPendingInfo} (h : Signs host old info) :
    Carries host old info := by
  have htransaction := h.transaction
  have hinputs := h.inputs
  have hcoins := h.coins
  have hvout := h.vout
  have horchard := h.orchard
  have hrecipient := h.recipient
  have hcount := h.count
  obtain ⟨psbt, signatures, nowSec, ⟨_, rfl⟩ | ⟨_, signed, _, rfl⟩⟩ := h.same
  · exact ⟨rfl, rfl, rfl, rfl, rfl, rfl, rfl, rfl, htransaction, hinputs, hcoins, hvout, horchard,
      hrecipient, hcount, rfl⟩
  · exact ⟨rfl, rfl, rfl, rfl, rfl, rfl, rfl, rfl, htransaction, hinputs, hcoins, hvout, horchard,
      hrecipient, hcount, PendingInfoState.kind_setStage _ _⟩

theorem Replaces.carries {id : Txid} {o o' info : BTCPendingInfo} {payee : Option String}
    {extra : ℕ} (h : Replaces host l id o o' info payee extra) : Carries host o o' := by
  obtain ⟨s, s', _, _, rfl⟩ := h.updated
  exact .of_state o (PendingInfoState.kind_setOriginalState _ _)

/-- The states of a replacement and of its original. -/
theorem Replaces.states {id : Txid} {o o' info : BTCPendingInfo} {payee : Option String}
    {extra : ℕ} (h : Replaces host l id o o' info payee extra) :
    o.state.originalTxId = none ∧ o.state.isRefund = false ∧ info.state.originalTxId = some id ∧
      info.state.isRefund = false ∧ info.state.isWithdrawRelated = o.state.isWithdrawRelated := by
  have hkind := h.kind
  obtain ⟨ostate, hos⟩ : ∃ state, o.state = state := ⟨_, rfl⟩
  obtain ⟨istate, his⟩ : ∃ state, info.state = state := ⟨_, rfl⟩
  rw [hos, his] at hkind ⊢
  cases hkind <;> exact ⟨rfl, rfl, rfl, rfl, rfl⟩

theorem BTCPendingInfo.root_of_original {info : BTCPendingInfo} (h : info.state.originalTxId = none)
    (id : Txid) : info.root id = id := by
  rw [BTCPendingInfo.root, BTCPendingInfo.getOriginalTxId, h]
  rfl

theorem BTCPendingInfo.root_of_child {info : BTCPendingInfo} {root : Txid}
    (h : info.state.originalTxId = some root) (id : Txid) : info.root id = root := by
  rw [BTCPendingInfo.root, BTCPendingInfo.getOriginalTxId, h]
  rfl

/-- How a pending transaction came to be what it is, up to its stage and signatures. -/
inductive Enters (host : Host) (l l' : Ledger) (id : Txid) (info : BTCPendingInfo) : Prop
  | carried (old : BTCPendingInfo) (hold : l.pendings.lookup id = some old)
      (hcarries : Carries host old info)
  | created (payee : Option String) (rest : FiniteMap OutPoint UTXO) (hid : id = info.btcPendingId)
      (hcreates : CreatesOriginal host l info payee rest)
      (hlog : l'.log = l.log ++ [.utxoRemoved info.inputs info.btcPendingId, .created info payee])
      (howner : info.accountId ∈ l'.accounts)
  | replaced (root : Txid) (o o' : BTCPendingInfo) (payee : Option String) (extra : ℕ)
      (hid : id = info.btcPendingId) (hreplaces : Replaces host l root o o' info payee extra)
      (hlog : l'.log = l.log ++ [.created info payee])
      (horiginal : l'.pendings.lookup root = some o')
  | refunded (call : ExecuteRefundCall) (request : RefundRequest) (nowSec : ℕ)
      (hid : id = info.btcPendingId) (hcreates : CreatesRefund host l call request info nowSec)
      (hlog : l'.log = l.log ++ [.created info (some request.refundAddress),
        .refundCreated call request info nowSec])
      (howner : info.accountId ∈ l'.accounts)
      (hstored : l'.requests.lookup call.utxoStorageKey = some { request with executed := true })

theorem Effect.enters (h : Effect host Completes cause l l') {id : Txid} {info : BTCPendingInfo}
    (hinfo : l'.pendings.lookup id = some info) : Enters host l l' id info := by
  cases h.arises hinfo with
  | kept hold => exact .carried info hold (.refl host info)
  | created payee rest hid hcreates hlog howner =>
    exact .created payee rest hid hcreates hlog howner
  | replaced root o o' payee extra hid hreplaces hlog horiginal =>
    exact .replaced root o o' payee extra hid hreplaces hlog horiginal
  | original o child payee extra hreplaces => exact .carried o hreplaces.original hreplaces.carries
  | signed old hold hsigns => exact .carried old hold hsigns.carries
  | attested old hold hstage hrefund heq =>
    subst heq
    exact .carried old hold (.of_state old (PendingInfoState.kind_setStage _ _))
  | unburnt old hold heq =>
    subst heq
    exact .carried old hold (.of_state old (PendingInfoState.kind_setStage _ _))
  | refunded call request nowSec hid hcreates hlog howner hstored =>
    exact .refunded call request nowSec hid hcreates hlog howner hstored

/-! ### Refund requests -/

/-- How a refund request got where it is after a step. -/
inductive Requested (host : Host) (cause : Cause) (l : Ledger) (key : OutPoint)
    (request : RefundRequest) : Prop
  | kept (h : l.requests.lookup key = some request)
  | executed (old : RefundRequest) (call : ExecuteRefundCall) (info : BTCPendingInfo) (nowSec : ℕ)
      (hkey : key = call.utxoStorageKey) (hcreates : CreatesRefund host l call old info nowSec)
      (hrequest : request = { old with executed := true })
  | new (env : Env) (msg : DepositMsg) (refundAddress : String) (txId : Txid) (output : TxOut)
      (vout : ℕ) (gasFee : Option ℕ) (result : PromiseResult)
      (hcause : cause = .answer env
        (.requestRefund msg refundAddress txId output vout gasFee) result)
      (hkey : key = ⟨txId, vout⟩) (hnew : key ∉ l.verified)
      (hscript : output.scriptPubkey = host.depositScript l.chain msg)
      (hrequest : request = ⟨host.depositMsgToJson msg, ⟨txId, vout⟩, [], vout, output.value,
        refundAddress, request.gasFee, request.createdAtSec, false⟩)

theorem Effect.requested (h : Effect host Completes cause l l') {key : OutPoint}
    {request : RefundRequest} (hrequest : l'.requests.lookup key = some request) :
    Requested host cause l key request := by
  cases h with
  | request env msg refundAddress txId output vout gasFee result new hscript hnew hnone heq =>
    by_cases hkey : key = ⟨txId, vout⟩
    · subst hkey
      rw [AList.lookup_insert, Option.some.injEq] at hrequest
      subst hrequest
      exact .new env msg refundAddress txId output vout gasFee result rfl rfl hnew hscript heq
    · rw [AList.lookup_insert_ne hkey] at hrequest
      exact .kept hrequest
  | reject => exact .kept (FiniteMap.lookup_of_erase hrequest).1
  | refund cause call old info nowSec accounts hcall hcreates =>
    by_cases hkey : key = call.utxoStorageKey
    · subst hkey
      rw [AList.lookup_insert, Option.some.injEq] at hrequest
      exact .executed old call info nowSec rfl hcreates hrequest.symm
    · rw [AList.lookup_insert_ne hkey] at hrequest
      exact .kept hrequest
  | finalizeRefund => exact .kept (FiniteMap.lookup_of_erase hrequest).1
  | configure | ignore | lose | setKey | issue | begin | finish | revert | complete | collectFee
  | create | replace | sign | attest | burnFailed | commitWithdraw | commitActive | discard | claim
  | transferFailed | withdrawFee | feeFailed => exact .kept hrequest

end SatoshiBridge
