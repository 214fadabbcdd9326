import SatoshiBridge.Ledger.SettleEffects

/-!
# The effects of refunds

Both builds create the same refund: its only input is the deposit of the request, and its only
output or note pays the address of the request what the gas leaves.
-/

set_option autoImplicit false
set_option relaxedAutoImplicit false

namespace SatoshiBridge

variable {host : Host} {Completes : Ledger → OutPoint → Prop} {env : Env} {c c' : Contract}
  {inflight : Multiset Promise} {log : List Mark} {receipt : Receipt}

/-! ### Requests -/

theorem requestRefund_simulates {msg : DepositMsg} {refundAddress : String}
    {txBytes : DepositTxProof} {vout : ℕ} {gasFee : Option ℕ} (hkeyed : c.Keyed host)
    (h : c.requestRefund host env msg refundAddress txBytes vout gasFee = some receipt) :
    Simulates host Completes (.call env (.requestRefund msg refundAddress txBytes vout gasFee)) c
      inflight log receipt := by
  simp only [Contract.requestRefund, Option.bind_eq_bind, Option.bind_eq_some_iff] at h
  obtain ⟨_, _, _, _, h⟩ := h
  have hrest : (∀ address ∈ msg.refundAddress, address = refundAddress) ∧
      ∃ summary output, internalResolveDepositTx host txBytes = some summary ∧
        summary.outputs[vout]? = some output ∧
        { contract := c
          promises := [.requestRefund msg refundAddress summary.txId output vout gasFee]
          marks := []
          returns := none } = receipt := by
    unfold Contract.internalRequestRefund at h
    cases txBytes <;>
    · simp only [Option.bind_eq_bind, Option.bind_eq_some_iff, require_eq_some,
        Option.some.injEq, exists_and_left, exists_const, Option.bind_some] at h
      obtain ⟨_, h⟩ := h
      tauto
  obtain ⟨haddress, summary, output, htx, houtput, rfl⟩ := hrest
  exact simulates_issue hkeyed
    ⟨⟨summary.outputs, internalResolveDepositTx_shows htx, houtput⟩, haddress⟩ rfl

theorem requestRefundCallback_simulates {result : PromiseResult} {msg : DepositMsg}
    {refundAddress : String} {txId : Txid} {output : TxOut} {vout : ℕ} {gasFee : Option ℕ}
    (hkeyed : c.Keyed host)
    (h : c.requestRefundCallback host env result msg refundAddress txId output vout gasFee
      = some receipt) :
    Simulates host Completes
      (.answer env (.requestRefund msg refundAddress txId output vout gasFee) result) c inflight
      log receipt := by
  simp only [Contract.requestRefundCallback, Option.bind_eq_bind, Option.bind_eq_some_iff,
    require_eq_some, Option.some.injEq, exists_and_left, exists_const] at h
  obtain ⟨_, _, _, script, hscript, heq, hnew, hnone, _, _, _, nowSec, _, rfl⟩ := h
  obtain ⟨rfl, _⟩ := hkeyed.generateUtxoChainScript hscript
  exact .marking (Effect.request (l := c.ledger inflight log) env msg refundAddress txId output
    vout gasFee result _ heq.symm hnew (Option.isNone_iff_eq_none.mp hnone) rfl) hkeyed

theorem rejectRefund_simulates {key : OutPoint} (hkeyed : c.Keyed host)
    (h : c.rejectRefund env key = some receipt) :
    Simulates host Completes (.call env (.rejectRefund key)) c inflight log receipt := by
  simp only [Contract.rejectRefund, Option.bind_eq_bind, Option.bind_eq_some_iff,
    require_eq_some, Option.some.injEq, exists_and_left, exists_const] at h
  obtain ⟨hexecuted, _, request, hrequest, rfl⟩ := h
  rw [hrequest] at hexecuted
  exact .silent (Effect.reject (l := c.ledger inflight log) env _ key request rfl hrequest
    hexecuted) hkeyed

/-! ### Executing -/

theorem resolveExecuteRefundTimelock_spec {key : OutPoint} {call : ExecuteRefundCall}
    (inflight : Multiset Promise) (log : List Mark)
    (h : c.resolveExecuteRefundTimelock host env key = some call) :
    key = call.utxoStorageKey ∧ Resolved host env (c.ledger inflight log) call := by
  simp only [Contract.resolveExecuteRefundTimelock, Option.bind_eq_bind, Option.bind_eq_some_iff,
    require_eq_some, Option.some.injEq, exists_and_left, exists_const] at h
  obtain ⟨_, request, hrequest, msg, hmsg, rfl⟩ := h
  exact ⟨rfl, request, msg, hrequest, hmsg, rfl, rfl, rfl, rfl, rfl⟩

theorem loadRefundRequestForExecute_spec {key : OutPoint} {timelockSec : ℕ}
    {request : RefundRequest}
    (h : c.loadRefundRequestForExecute env key timelockSec = some request) :
    c.refundRequests.lookup key = some request ∧
      (∃ nowSec, env.nowSec = some nowSec ∧ request.createdAtSec + timelockSec ≤ nowSec) ∧
      (key ∉ c.verifiedDepositUtxo ∨ request.executed = true) := by
  simp only [Contract.loadRefundRequestForExecute, Option.bind_eq_bind, Option.bind_eq_some_iff,
    require_eq_some, Option.some.injEq, exists_and_left, exists_const] at h
  obtain ⟨request', hrequest, nowSec, hnow, htime, hfree, rfl⟩ := h
  exact ⟨hrequest, ⟨nowSec, hnow, htime⟩, hfree⟩

theorem refundExecutionInputs_spec {request : RefundRequest} {inputs : RefundExecutionInputs}
    (hkeyed : c.Keyed host) (h : c.refundExecutionInputs host request = some inputs) :
    inputs.refundAmount + request.gasFee = request.amount ∧
      (request.txBytes = [] → ∃ msg, request.depositMsg host = some msg ∧
        inputs.outpoint = ⟨request.utxoStorageKey.txid, request.vout⟩ ∧
        inputs.depositOutput = ⟨request.amount, host.depositScript c.config.chain msg⟩) := by
  unfold Contract.refundExecutionInputs at h
  split at h
  · simp only [Option.bind_eq_bind, Option.bind_eq_some_iff, require_eq_some, checkedSub_eq_some,
      Option.some.injEq, exists_and_left, exists_const, Prod.exists, Prod.mk.injEq] at h
    obtain ⟨msg, hmsg, script, hscript, _, txid, output, ⟨rfl, rfl⟩, amount, hamount, _, rfl⟩ := h
    obtain ⟨rfl, _⟩ := hkeyed.generateUtxoChainScript hscript
    exact ⟨hamount, fun _ ↦ ⟨msg, hmsg, rfl, rfl⟩⟩
  · rename_i hbytes
    simp only [Option.bind_eq_bind, Option.bind_eq_some_iff, require_eq_some, checkedSub_eq_some,
      Option.some.injEq, exists_and_left, exists_const, Prod.exists] at h
    obtain ⟨_, _, _, _, _, _, _, amount, hamount, _, rfl⟩ := h
    exact ⟨hamount, fun hempty ↦ absurd hempty hbytes⟩

theorem buildRefundOutput_spec {refundAddress : String} {amount : ℕ} {output : TxOut}
    (h : c.buildRefundOutput host refundAddress amount = some output) :
    ∃ address script, host.parseAddress c.config.chain refundAddress = some address ∧
      address.scriptPubkey = some script ∧ output = ⟨amount, script⟩ := by
  simp only [Contract.buildRefundOutput, Option.bind_eq_bind, Option.bind_eq_some_iff,
    require_eq_some, Option.some.injEq, exists_and_left, exists_const] at h
  obtain ⟨address, haddress, script, hscript, _, rfl⟩ := h
  exact ⟨address, script, haddress, hscript, rfl⟩

/-- A psbt that spends the deposit of a request and pays its address. -/
structure RefundsRequest (host : Host) (chain : Chain) (request : RefundRequest)
    (inputs : RefundExecutionInputs) (psbt : PsbtWrapper) : Prop where
  spends : psbt.getUtxoStorageKeys = [inputs.outpoint]
  coins : psbt.inputsUtxo = [some inputs.depositOutput]
  pays : ∃ address, host.parseAddress chain request.refundAddress = some address ∧
    Pays (fun _ ↦ False) address inputs.refundAmount psbt

/-- A single payment is all that leaves. -/
theorem Pays.total {address : Address} {amount : ℕ} {psbt : PsbtWrapper}
    (h : Pays (fun _ ↦ False) address amount psbt) :
    outputAmount psbt.vout + psbt.orchardAmount = amount := by
  cases h with
  | output before after script hvout hscript hothers horchard =>
    have hnone : before ++ after = [] := List.eq_nil_iff_forall_not_mem.mpr hothers
    obtain ⟨rfl, rfl⟩ := List.append_eq_nil_iff.mp hnone
    rw [PsbtWrapper.orchardAmount, PsbtWrapper.extraOutputs, horchard, hvout]
    simp only [outputAmount, List.nil_append, List.map_cons, List.map_nil, List.sum_cons,
      List.sum_nil, add_zero]
  | note parsed horchard hamount hrecipient hothers =>
    have hnone : psbt.vout = [] := List.eq_nil_iff_forall_not_mem.mpr hothers
    rw [PsbtWrapper.orchardAmount, PsbtWrapper.extraOutputs, horchard, hnone]
    simp only [outputAmount, List.map_nil, List.sum_nil, List.sum_cons, add_zero, zero_add,
      hamount]

/-- The coin of a psbt with one input. -/
theorem setInputUtxo_single {psbt psbt' : PsbtWrapper} {outpoint : OutPoint} {output : TxOut}
    (hslots : psbt.inputsUtxo.length = [outpoint].length)
    (h : psbt.setInputUtxo host [output] = some psbt') :
    psbt' = { psbt with inputsUtxo := [some output] } := by
  obtain ⟨_, rfl⟩ := PsbtWrapper.setInputUtxo_spec h
  have hdrop : psbt.inputsUtxo.drop [output].length = [] :=
    List.drop_eq_nil_of_le (le_of_eq hslots)
  rw [hdrop]
  rfl

/-- The pending info of a refund as it is created. -/
def refundPendingInfo (host : Host) (call : ExecuteRefundCall) (request : RefundRequest)
    (msg : DepositMsg) (psbt : PsbtWrapper) (refundAmount nowSec : ℕ) (id : Txid) :
    BTCPendingInfo where
  accountId := call.caller
  btcPendingId := id
  transferAmount := 0
  actualReceivedAmount := refundAmount
  withdrawFee := 0
  gasFee := request.gasFee
  burnAmount := 0
  psbt := psbt
  vutxos := [⟨getDepositPath host msg, request.txBytes, request.vout, request.amount⟩]
  signatures := [none]
  txBytesWithSign := none
  createTimeSec := nowSec
  lastSignTimeSec := 0
  state := .refund (initialState request.gasFee)

/-- How a refund is created: its pending info is stored in the contract `c₁` that has the caller's
account, put on the caller's list, and the request is marked as executed. -/
inductive Contract.RefundCreated (host : Host) (env : Env) (c : Contract)
    (call : ExecuteRefundCall) (request : RefundRequest) (psbt : PsbtWrapper) (refundAmount : ℕ) :
    Receipt → Prop
  | mk (c₁ c₂ c₃ : Contract) (msg : DepositMsg) (nowSec : ℕ) (id : Txid)
      (hmsg : request.depositMsg host = some msg) (hid : psbt.getPendingId host = some id)
      (haccount : c.internalUnwrapOrCreateAccount call.caller = c₁)
      (hcapacity : c₁.requirePendingSignCapacity call.caller = some ())
      (hnow : env.nowSec = some nowSec)
      (hinsert : c₁.insertNewBtcPendingInfo id
        (refundPendingInfo host call request msg psbt refundAmount nowSec id) = some c₂)
      (hsign : c₂.addPendingSignId call.caller id = some c₃) :
      RefundCreated host env c call request psbt refundAmount
        { contract := { c₃ with
            verifiedDepositUtxo := insert call.utxoStorageKey c₃.verifiedDepositUtxo
            refundRequests := c₃.refundRequests.insert call.utxoStorageKey
              { request with executed := true } }
          promises := []
          marks := [.created (refundPendingInfo host call request msg psbt refundAmount nowSec id)
              (some request.refundAddress),
            .refundCreated call request
              (refundPendingInfo host call request msg psbt refundAmount nowSec id) nowSec]
          returns := some .unit }

theorem finalizeRefundWithPsbt_inv {call : ExecuteRefundCall} {request : RefundRequest}
    {psbt : PsbtWrapper} {refundAmount : ℕ}
    (h : c.finalizeRefundWithPsbt host env call request psbt refundAmount = some receipt) :
    c.RefundCreated host env call request psbt refundAmount receipt := by
  simp only [Contract.finalizeRefundWithPsbt, Option.bind_eq_bind, Option.bind_eq_some_iff,
    require_eq_some, Option.some.injEq, exists_and_left, exists_const] at h
  obtain ⟨msg, hmsg, _, id, hid, ⟨⟩, hcapacity, nowSec, hnow, c₂, hinsert, c₃, hsign, rfl⟩ := h
  exact .mk _ c₂ c₃ msg nowSec id hmsg hid rfl hcapacity hnow hinsert hsign

theorem finalizeRefundWithPsbt_simulates {cause : Cause} {call : ExecuteRefundCall}
    {request : RefundRequest} {inputs : RefundExecutionInputs} {psbt : PsbtWrapper}
    (hkeyed : c.Keyed host)
    (hcall : (∃ env data result, cause = .answer env (.executeRefund call data) result) ∨
      ∃ env data, cause = .call env (.executeRefund call.utxoStorageKey data) ∧
        Resolved host env (c.ledger inflight log) call)
    (hload : c.loadRefundRequestForExecute env call.utxoStorageKey call.timelockSec
      = some request)
    (hinputs : c.refundExecutionInputs host request = some inputs)
    (hpsbt : RefundsRequest host c.config.chain request inputs psbt)
    (h : c.finalizeRefundWithPsbt host env call request psbt inputs.refundAmount
      = some receipt) :
    Simulates host Completes cause c inflight log receipt := by
  obtain ⟨hrequest, ⟨nowSec, hnow, htime⟩, hfree⟩ := loadRefundRequestForExecute_spec hload
  obtain ⟨hamount, hdeposit⟩ := refundExecutionInputs_spec hkeyed hinputs
  obtain ⟨_, _, _, msg, _, id, hmsg, hid, rfl, _, hnow', hinsert, hsign⟩ :=
    finalizeRefundWithPsbt_inv h
  obtain rfl := Option.some.inj (hnow.symm.trans hnow')
  obtain ⟨accounts, haccounts, hsub, howner⟩ := internalUnwrapOrCreateAccount_spec c call.caller
  rw [haccounts] at hinsert
  obtain ⟨hnone, rfl⟩ := insertNewBtcPendingInfo_spec hinsert
  obtain ⟨_, accounts', rfl, hsame⟩ := addPendingSignId_spec hsign
  obtain ⟨address, haddress, hpays⟩ := hpsbt.pays
  have htotal := hpays.total
  have hcreates : CreatesRefund host (c.ledger inflight log) call request
      (refundPendingInfo host call request msg psbt inputs.refundAmount nowSec id) nowSec := {
    named := getPendingId_spec hid
    txBytes := rfl
    signatures := fun _ hs ↦ List.mem_singleton.mp hs
    stage := rfl
    stored := hrequest
    time := htime
    free := hfree
    createTime := rfl
    kind := rfl
    account := rfl
    transferAmount := rfl
    gasFee := rfl
    signatureCount := rfl
    inputs := by
      intro hbytes
      obtain ⟨msg', hmsg', houtpoint, houtput⟩ := hdeposit hbytes
      rw [hmsg, Option.some.injEq] at hmsg'
      subst hmsg'
      refine ⟨msg, hmsg, ?_, ?_, ?_⟩
      · exact hpsbt.spends.trans (congrArg (fun o ↦ [o]) houtpoint)
      · rw [refundPendingInfo, hbytes]
      · exact hpsbt.coins.trans (congrArg (fun o ↦ [some o]) houtput)
    payment := by
      refine ⟨?_, rfl, ?_, request.refundAddress, rfl, address, haddress, hpays⟩
      · simp only [refundPendingInfo, BTCPendingInfo.Balanced, inputAmount, List.map_cons,
          List.map_nil, List.sum_cons, List.sum_nil, add_zero]
        omega
      · simp only [refundPendingInfo, inputAmount, List.map_cons, List.map_nil, List.sum_cons,
          List.sum_nil, add_zero]
        omega
    fresh := hnone }
  have hgrow : (c.ledger inflight log).accounts ⊆ {a | a ∈ accounts'} := hsame ▸ hsub
  have hmem : call.caller ∈ {a | a ∈ accounts'} := hsame ▸ howner
  exact .marking (Effect.refund (l := c.ledger inflight log) cause call request _ nowSec
    {a | a ∈ accounts'} hcall hcreates hgrow hmem) hkeyed

theorem internalExecuteRefund_simulates {call : ExecuteRefundCall}
    {data : Option ChainSpecificData} (hkeyed : c.Keyed host)
    (hresolved : Resolved host env (c.ledger inflight log) call)
    (h : c.internalExecuteRefund host env call = some receipt) :
    Simulates host Completes (.call env (.executeRefund call.utxoStorageKey data)) c inflight log
      receipt := by
  simp only [Contract.internalExecuteRefund, Option.bind_eq_bind, Option.bind_eq_some_iff] at h
  obtain ⟨request, hload, inputs, hinputs, output, houtput, psbt, hpsbt, psbt', hset, h⟩ := h
  obtain ⟨address, script, haddress, hscript, rfl⟩ := buildRefundOutput_spec houtput
  obtain ⟨_, hkeys, hvout, hslots, hnote, _⟩ := PsbtWrapper.newBitcoin_spec hpsbt
  obtain rfl := setInputUtxo_single hslots hset
  have hpays : RefundsRequest host c.config.chain request inputs
      { psbt with inputsUtxo := [some inputs.depositOutput] } :=
    ⟨hkeys, rfl, address, haddress, .output [] [] script hvout hscript
      (fun _ ho ↦ absurd ho List.not_mem_nil) hnote⟩
  exact finalizeRefundWithPsbt_simulates hkeyed (Or.inr ⟨env, data, rfl, hresolved⟩) hload hinputs
    hpays h

theorem zcashRefundPsbt_spec {request : RefundRequest} {inputs : RefundExecutionInputs}
    {data : Option ChainSpecificData} {height : ℕ} {psbt : PsbtWrapper}
    (hzcash : host.zcash = true)
    (h : c.zcashRefundPsbt host request inputs data height = some psbt) :
    RefundsRequest host c.config.chain request inputs psbt := by
  have hnoNote (p : PsbtWrapper) : host.zcash = false → p.orchard = none := fun hz ↦ by
    rw [hzcash] at hz
    cases hz
  simp only [Contract.zcashRefundPsbt] at h
  split at h
  · rename_i hbundle
    simp only [Option.bind_eq_bind, Option.bind_some, Option.bind_eq_some_iff, require_eq_some,
      Option.some.injEq, exists_and_left, exists_const] at h
    obtain ⟨psbt₁, hnew, psbt₂, hset, _, hchain, hamount, rfl⟩ := h
    obtain ⟨_, hkeys, hvout, hslots, _, hsome⟩ := PsbtWrapper.newZcash_spec hnew
    obtain rfl := setInputUtxo_single hslots hset
    obtain ⟨parsed, hparsed⟩ := Option.isSome_iff_exists.mp (hsome.mpr hbundle)
    obtain ⟨address, haddress, hreceiver⟩ :=
      checkPsbtChainSpecific_note (hnoNote _) hchain hparsed
    refine ⟨hkeys, rfl, address, haddress,
      .note parsed hparsed (hamount parsed hparsed) hreceiver ?_⟩
    intro o ho
    rw [show psbt₁.vout = [] from hvout] at ho
    exact absurd ho List.not_mem_nil
  · rename_i hbundle
    simp only [Option.bind_eq_bind, Option.bind_some, Option.bind_eq_some_iff, require_eq_some,
      Option.some.injEq, exists_and_left, exists_const] at h
    obtain ⟨output, houtput, psbt₁, hnew, psbt₂, hset, _, _, _, rfl⟩ := h
    obtain ⟨_, hkeys, hvout, hslots, _, hsome⟩ := PsbtWrapper.newZcash_spec hnew
    obtain rfl := setInputUtxo_single hslots hset
    obtain ⟨address, script, haddress, hscript, rfl⟩ := buildRefundOutput_spec houtput
    have hnote : psbt₁.orchard = none := by
      rw [← Option.not_isSome_iff_eq_none]
      exact fun hnote ↦ hbundle (hsome.mp hnote)
    exact ⟨hkeys, rfl, address, haddress, .output [] [] script hvout hscript
      (fun _ ho ↦ absurd ho List.not_mem_nil) hnote⟩

theorem executeRefundCallback_simulates {result : PromiseResult} {call : ExecuteRefundCall}
    {data : Option ChainSpecificData} (hzcash : host.zcash = true) (hkeyed : c.Keyed host)
    (h : c.executeRefundCallback host env result call data = some receipt) :
    Simulates host Completes (.answer env (.executeRefund call data) result) c inflight log
      receipt := by
  simp only [Contract.executeRefundCallback, Option.bind_eq_bind, Option.bind_eq_some_iff] at h
  obtain ⟨height, _, request, hload, inputs, hinputs, psbt, hpsbt, h⟩ := h
  exact finalizeRefundWithPsbt_simulates hkeyed (Or.inl ⟨env, data, result, rfl⟩) hload hinputs
    (zcashRefundPsbt_spec hzcash hpsbt) h

theorem executeRefund_simulates {key : OutPoint} {data : Option ChainSpecificData}
    (hkeyed : c.Keyed host) (h : c.executeRefund host env key data = some receipt) :
    Simulates host Completes (.call env (.executeRefund key data)) c inflight log receipt := by
  simp only [Contract.executeRefund, Option.bind_eq_bind, Option.bind_eq_some_iff] at h
  obtain ⟨_, _, call, hcall, h⟩ := h
  obtain ⟨rfl, hresolved⟩ := resolveExecuteRefundTimelock_spec inflight log hcall
  split at h
  · rename_i hzcash
    rw [Option.some.injEq] at h
    subst h
    exact simulates_issue hkeyed ⟨hzcash, rfl, hresolved⟩ rfl
  · exact internalExecuteRefund_simulates hkeyed hresolved h

/-! ### Finalising and removing -/

theorem refundUtxoStorageKey_spec {info : BTCPendingInfo} {key : OutPoint}
    (h : Contract.refundUtxoStorageKey info = some key) : info.inputs = [key] := by
  unfold Contract.refundUtxoStorageKey at h
  split at h
  · rename_i hkeys
    rw [Option.some.injEq] at h
    rw [← h]
    exact hkeys
  · cases h

theorem verifyRefundFinalizeCallback_simulates {result : PromiseResult} {txId : Txid}
    {confirmations : ℕ} (hkeyed : c.Keyed host)
    (h : c.verifyRefundFinalizeCallback result txId = some receipt) :
    Simulates host Completes (.answer env (.verifyRefundFinalize txId confirmations) result) c
      inflight log receipt := by
  simp only [Contract.verifyRefundFinalizeCallback, Contract.internalUnwrapBtcPendingInfo,
    BTCPendingInfo.assertRefundPendingVerifyTx, Contract.removeFromVerifyList,
    Option.bind_eq_bind, Option.bind_eq_some_iff, require_eq_some, Option.some.injEq,
    exists_and_left, exists_const, Prod.exists] at h
  obtain ⟨_, _, _, info, hinfo, _, ⟨hrefund, _⟩, key, hkey, c₁, removed, hremove, c₂, hmut,
    rfl⟩ := h
  obtain ⟨_, rfl⟩ := internalRemoveBtcPendingInfo_spec hremove
  obtain ⟨_, accounts, rfl, hsame⟩ := internalUnwrapMutAccount_spec hmut
  refine .marking ((Effect.finalizeRefund (l := c.ledger inflight log) env txId confirmations
    result info key hinfo hrefund (refundUtxoStorageKey_spec hkey)).of_eq ?_) hkeyed
  simp only [Contract.ledger, hsame]
  rfl

theorem removeRefundPendingTxId_simulates {txId : Txid} (hkeyed : c.Keyed host)
    (h : c.removeRefundPendingTxId env txId = some receipt) :
    Simulates host Completes (.call env (.removeRefundPendingTxId txId)) c inflight log
      receipt := by
  simp only [Contract.removeRefundPendingTxId, Contract.internalUnwrapBtcPendingInfo,
    BTCPendingInfo.assertRefundRelated, Option.bind_eq_bind, Option.bind_eq_some_iff,
    require_eq_some, Option.some.injEq, exists_and_left, exists_const, Prod.exists] at h
  obtain ⟨_, _, _, _, info, hinfo, hrefund, key, _, _, c₁, removed, hremove, c₂, hmut, rfl⟩ := h
  obtain ⟨_, rfl⟩ := internalRemoveBtcPendingInfo_spec hremove
  obtain ⟨_, accounts, rfl, hsame⟩ := internalUnwrapMutAccount_spec hmut
  exact (Discards.single hinfo (Or.inr hrefund) hsame).simulates hkeyed rfl

end SatoshiBridge
