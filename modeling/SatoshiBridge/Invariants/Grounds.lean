import SatoshiBridge.Ledger.Simulation

/-!
# What is in flight and requested is grounded in transactions

A deposit on its way to its registration is an output at a deposit address, and so is the deposit of
every refund request. Both are checked once, when the promise that carries them is scheduled, and
nothing later can change them. These invariants hold however deposits are completed by hand.
-/

set_option autoImplicit false
set_option relaxedAutoImplicit false

namespace SatoshiBridge

variable {host : Host} {Completes : Ledger → OutPoint → Prop}

/-- What was checked of the data a promise carries. -/
def Promise.Grounded (host : Host) (chain : Chain) : Promise → Prop
  | .verifyDeposit _ mintAmount protocolFee relayerFee info postActions _
  | .mint _ _ mintAmount protocolFee _ relayerFee postActions info _ =>
    IsDeposit host chain info.utxoStorageKey info.utxo ∧
    mintAmount + protocolFee + relayerFee = info.utxo.balance ∧
    postActionsAmount postActions ≤ mintAmount
  | .verifySafeDeposit _ mintAmount _ info _ | .safeMint _ _ mintAmount _ info _ =>
    IsDeposit host chain info.utxoStorageKey info.utxo ∧ mintAmount = info.utxo.balance
  | .requestRefund msg refundAddress txId output vout _ =>
    PaysAt host ⟨txId, vout⟩ output ∧ ∀ address ∈ msg.refundAddress, address = refundAddress
  | _ => True

theorem Promise.Grounded.deposit {chain : Chain} {p : Promise} {info : PendingUTXOInfo}
    (h : p.Grounded host chain) (hinfo : p.depositInfo = some info) :
    IsDeposit host chain info.utxoStorageKey info.utxo := by
  cases p with
  | verifyDeposit | verifySafeDeposit | mint | safeMint =>
    cases hinfo
    exact h.1
  | _ => cases hinfo

/-- A promise that was issued, or follows a grounded one, is grounded. -/
theorem Sent.grounded {cause : Cause} {l : Ledger} {p : Promise} (h : Sent host cause l p)
    (hbefore : ∀ q ∈ cause.taken, q.Grounded host l.chain) : p.Grounded host l.chain := by
  cases h with
  | issued env method hcause hissued =>
    cases p with
    | verifyDeposit | verifySafeDeposit | requestRefund => exact hissued
    | mint | safeMint => exact hissued.elim
    | _ => trivial
  | minted env q result info hcause hmints =>
    have hq : q.Grounded host l.chain := by
      refine hbefore q ?_
      rw [hcause]
      exact Multiset.mem_singleton_self q
    cases hmints with
    | standard => exact hq
    | safe => exact hq
  | burning env q result txId withdraw info hcause hverifies hpending hrefund hburn =>
    cases hburn <;> trivial
  | detached _ _ _ _ _ hp | transferred _ _ _ hp | claimed _ _ _ hp => subst hp; trivial

/-- A refund `info`, created at `nowSec` for `call`, that executes `request`. -/
structure Refunds (host : Host) (chain : Chain) (call : ExecuteRefundCall)
    (request : RefundRequest) (info : BTCPendingInfo) (nowSec : ℕ) : Prop where
  describes : RequestFor host chain call.utxoStorageKey request
  time : request.createdAtSec + call.timelockSec ≤ nowSec
  createTime : info.createTimeSec = nowSec
  account : info.accountId = call.caller
  kind : info.state.kind = .refund
  gasFee : info.gasFee = request.gasFee
  inputs : info.inputs = [call.utxoStorageKey]
  vutxos : ∃ msg, request.depositMsg host = some msg ∧
    info.vutxos = [⟨getDepositPath host msg, [], call.utxoStorageKey.vout, request.amount⟩]
  coins : info.psbt.inputsUtxo = coinsOf host chain info.vutxos
  signatureCount : info.signatures.length = 1
  payment : Payment host chain (some request.refundAddress) info

theorem CreatesRefund.refunds {l : Ledger} {call : ExecuteRefundCall} {request : RefundRequest}
    {info : BTCPendingInfo} {nowSec : ℕ} (h : CreatesRefund host l call request info nowSec)
    (hrequest : RequestFor host l.chain call.utxoStorageKey request) :
    Refunds host l.chain call request info nowSec := by
  obtain ⟨msg, hmsg, hinputs, hvutxos, hcoins⟩ := h.inputs hrequest.txBytes
  rw [hrequest.named, hrequest.vout] at hinputs
  rw [hrequest.vout] at hvutxos
  refine ⟨hrequest, h.time, h.createTime, h.account, ?_, h.gasFee, hinputs, ⟨msg, hmsg, hvutxos⟩,
    hcoins, h.signatureCount, h.payment⟩
  rw [h.kind]
  rfl

/-- Promises, deposits in progress, refund requests and refunds are about outputs at deposit
addresses. -/
structure Ledger.Grounded (host : Host) (l : Ledger) : Prop where
  promises : ∀ p ∈ l.inflight, p.Grounded host l.chain
  inProgress : ∀ key utxo, l.inProgress.lookup key = some utxo → IsDeposit host l.chain key utxo
  requests : ∀ key request, l.requests.lookup key = some request →
    RequestFor host l.chain key request
  refunds : ∀ call request info nowSec, Mark.refundCreated call request info nowSec ∈ l.log →
    Refunds host l.chain call request info nowSec

/-- The request a callback stores describes the deposit the promise was about. -/
theorem RequestFor.of_promise {chain : Chain} {msg : DepositMsg} {refundAddress : String}
    {txId : Txid} {output : TxOut} {vout gasFee createdAtSec : ℕ} {gas : Option ℕ}
    (hreads : host.ReadsMessages)
    (hp : (Promise.requestRefund msg refundAddress txId output vout gas).Grounded host chain)
    (hscript : output.scriptPubkey = host.depositScript chain msg) :
    RequestFor host chain ⟨txId, vout⟩ ⟨host.depositMsgToJson msg, ⟨txId, vout⟩, [], vout,
      output.value, refundAddress, gasFee, createdAtSec, false⟩ where
  named := rfl
  vout := rfl
  txBytes := rfl
  pays := by
    refine ⟨msg, hreads msg, ?_, fun address haddress ↦ ?_⟩
    · rw [← hscript]
      exact hp.1
    · exact (hp.2 address haddress).symm

/-- Marking a request as executed keeps what it describes. -/
theorem RequestFor.executed {chain : Chain} {key : OutPoint} {request : RefundRequest}
    (h : RequestFor host chain key request) :
    RequestFor host chain key { request with executed := true } :=
  ⟨h.named, h.vout, h.txBytes, h.pays⟩

theorem Ledger.Grounded.initial {l : Ledger} (h : l.Initial) : l.Grounded host where
  promises := by
    intro p hp
    rw [h.inflight] at hp
    exact absurd hp (Multiset.notMem_zero p)
  inProgress := by
    intro key utxo hkey
    rw [h.inProgress] at hkey
    cases hkey
  requests := by
    intro key request hkey
    rw [h.requests] at hkey
    cases hkey
  refunds := by
    intro call request info nowSec hm
    rw [h.log] at hm
    exact absurd hm List.not_mem_nil

/-- A deposit in progress after a step was in progress before or has just begun. -/
theorem Effect.began {cause : Cause} {l l' : Ledger} (h : Effect host Completes cause l l')
    {key : OutPoint} {utxo : UTXO} (hkey : l'.inProgress.lookup key = some utxo) :
    l.inProgress.lookup key = some utxo ∨
      ∃ p ∈ cause.taken, ∃ info, p.depositInfo = some info ∧ info.utxoStorageKey = key ∧
        info.utxo = utxo := by
  cases h with
  | begin env p m result info hmints hnew =>
    by_cases heq : key = info.utxoStorageKey
    · rw [heq, AList.lookup_insert, Option.some.injEq] at hkey
      refine Or.inr ⟨p, Multiset.mem_singleton_self p, info, ?_, heq.symm, hkey⟩
      cases hmints <;> rfl
    · rw [AList.lookup_insert_ne heq] at hkey
      exact Or.inl hkey
  | finish | revert | complete => exact Or.inl (FiniteMap.lookup_of_erase hkey).1
  | _ => exact Or.inl hkey

/-- After a step from grounded promises they are grounded again. -/
theorem Effect.promises_grounded {cause : Cause} {l l' : Ledger}
    (h : Effect host Completes cause l l')
    (hl : ∀ p ∈ (cause.before l).inflight, p.Grounded host l.chain) :
    ∀ p ∈ l'.inflight, p.Grounded host l'.chain := by
  intro p hp
  rw [h.chain]
  rcases h.sent hp with hp | hsent
  · exact hl p (Multiset.mem_add.mpr (Or.inr hp))
  · exact hsent.grounded fun q hq ↦ hl q (Multiset.mem_add.mpr (Or.inl hq))

theorem Ledger.Grounded.step {cause : Cause} {l l' : Ledger} (hreads : host.ReadsMessages)
    (hl : (cause.before l).Grounded host) (h : Effect host Completes cause l l') :
    l'.Grounded host := by
  have htaken : ∀ p ∈ cause.taken, p.Grounded host l.chain := fun p hp ↦
    hl.promises p (Multiset.mem_add.mpr (Or.inl hp))
  refine ⟨h.promises_grounded hl.promises, fun key utxo hkey ↦ ?_, fun key request hkey ↦ ?_,
    fun call request info nowSec hm ↦ ?_⟩
  · rw [h.chain]
    rcases h.began hkey with hkey | ⟨p, hp, info, hinfo, rfl, rfl⟩
    · exact hl.inProgress key utxo hkey
    · exact (htaken p hp).deposit hinfo
  · rw [h.chain]
    cases h.requested hkey with
    | kept hkey => exact hl.requests key request hkey
    | executed old call info nowSec hcall hcreates hrequest =>
      rw [hrequest, hcall]
      exact (hl.requests call.utxoStorageKey old hcreates.stored).executed
    | new env msg refundAddress txId output vout gasFee result hcause hkey hnew hscript hrequest =>
      have hp := htaken (.requestRefund msg refundAddress txId output vout gasFee) (by
        rw [hcause]
        exact Multiset.mem_singleton_self _)
      rw [hkey, hrequest]
      exact .of_promise hreads hp hscript
  · rw [h.chain]
    rcases h.refundCreated hm with hm | ⟨hcreates, _⟩
    · exact hl.refunds call request info nowSec hm
    · exact hcreates.refunds (hl.requests call.utxoStorageKey request hcreates.stored)

theorem Ledger.Reached.grounded_of (hreads : host.ReadsMessages) {l : Ledger}
    (h : Ledger.Reached host Completes l) : l.Grounded host :=
  Ledger.Reached.induct (fun _ h₀ ↦ .initial h₀)
    (fun _ _ _ _ hl heffect ↦ hl.step hreads heffect) l h

theorem Ledger.Reached.grounded (laws : host.Lawful) {l : Ledger}
    (h : Ledger.Reached host Completes l) : l.Grounded host :=
  h.grounded_of laws.depositMsg_roundTrip

end SatoshiBridge
