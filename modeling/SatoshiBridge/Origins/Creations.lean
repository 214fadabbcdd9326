import SatoshiBridge.Ledger.RefundEffects
import SatoshiBridge.Origins.Rules

/-!
# What a request becomes

The transaction that follows a request, for each of the four requests that create one: what it takes
from the request, and the rules and limits it has passed.
-/

set_option autoImplicit false
set_option relaxedAutoImplicit false

namespace SatoshiBridge

/-! ### Creations -/

namespace Contract

variable (host : Host) (env : Env) (c : Contract) (height : Option ℕ)

/-- A withdrawal: the amount, the inputs and the outputs are those of the transfer. -/
structure NewWithdrawal (senderId : AccountId) (amount : ℕ) (target : String)
    (input : List OutPoint) (output : List TxOut) (maxGasFee : Option ℕ) (info : BTCPendingInfo)
    (payee : Option String) : Prop where
  payee : payee = some target
  kind : ∃ s, info.state = .withdrawOriginal s
  owner : info.accountId = senderId
  transfer : info.transferAmount = amount
  fee : info.withdrawFee = c.config.withdrawBridgeFee.getFee amount
  inputs : info.inputs = input
  outputs : info.psbt.vout = output
  values : InMoney height info.psbt.vout
  maxGas : ∀ m ∈ maxGasFee, info.gasFee ≤ m
  chain : ChainRules host c.config height info
  limits : ∃ address, host.parseAddress c.config.chain target = some address ∧
    c.PaymentLimits env address info ∧
      c.CoinLimits (info.psbt.beside address).length info.inputs.length

/-- Active management: its fee is taken from the protocol fees. More coins than the limits allow
may only be merged. -/
structure NewManagement (accountId : AccountId) (input : List OutPoint) (output : List TxOut)
    (info : BTCPendingInfo) (payee : Option String) : Prop where
  payee : payee = none
  kind : ∃ s, info.state = .activeUtxoManagementOriginal s
  owner : info.accountId = accountId
  inputs : info.inputs = input
  outputs : info.psbt.vout = output
  values : InMoney height info.psbt.vout
  available : info.gasFee ≤ c.curAvailableProtocolFee
  chain : ChainRules host c.config height info
  limits : c.ChangeLimits true false info
  numbers : isMergeUnhealthyUtxos output.length info.vutxos c.config.unhealthyUtxoAmount = false →
    input.length ≤ c.config.maxActiveUtxoManagementInputNumber ∧
      output.length ≤ c.config.maxActiveUtxoManagementOutputNumber

/-- The original has been pending for long enough to be cancelled. -/
def Overdue (o : BTCPendingInfo) : Prop :=
  ∃ nowSec, env.nowSec = some nowSec ∧ o.createTimeSec + c.config.maxBtcTxPendingSec < nowSec

/-- What the RBF methods ask of the original and of its replacement. -/
inductive ReplacementRules (id : Txid) (accountId predecessor : AccountId) (o : BTCPendingInfo)
    (info : BTCPendingInfo) : RbfMethod → Option String → Prop
  | withdrawRbf (s : OriginalState) (target : String) (hkind : o.state = .withdrawOriginal s)
      (hnew : info.state = .withdrawUserRbf ⟨.pendingSign, id⟩)
      (hactive : s.cancelRbfReserved = none) (howner : o.accountId = accountId)
      (hlimits : ∃ address, host.parseAddress c.config.chain target = some address ∧
        c.PaymentLimits env address info) :
      ReplacementRules id accountId predecessor o info .withdrawRbf (some target)
  | cancelWithdraw (s : OriginalState) (hkind : o.state = .withdrawOriginal s)
      (hnew : info.state = .withdrawCancelRbf ⟨.pendingSign, id⟩) (hage : c.Overdue env o)
      (hexcess : info.transferAmount < info.withdrawFee + info.gasFee →
        c.aclHasRole .dao predecessor = true)
      (hlimits : c.ChangeLimits false true info) :
      ReplacementRules id accountId predecessor o info .cancelWithdraw none
  | activeUtxoManagementRbf (s : OriginalState)
      (hkind : o.state = .activeUtxoManagementOriginal s)
      (hnew : info.state = .activeUtxoManagementRbf ⟨.pendingSign, id⟩)
      (howner : o.accountId = accountId) (hlimits : c.ChangeLimits true false info) :
      ReplacementRules id accountId predecessor o info .activeUtxoManagementRbf none
  | cancelActiveUtxoManagement (s : OriginalState)
      (hkind : o.state = .activeUtxoManagementOriginal s)
      (hnew : info.state = .activeUtxoManagementCancelRbf ⟨.pendingSign, id⟩)
      (hage : c.Overdue env o) (hlimits : c.ChangeLimits true true info) :
      ReplacementRules id accountId predecessor o info .cancelActiveUtxoManagement none

/-- A replacement: it spends the coins of its original for the same account. -/
structure NewReplacement (method : RbfMethod) (accountId : AccountId) (id : Txid)
    (output : List TxOut) (predecessor : AccountId) (o info : BTCPendingInfo)
    (payee : Option String) : Prop where
  original : c.btcPendingInfos.lookup id = some o
  owner : info.accountId = o.accountId
  coins : info.vutxos = o.vutxos
  inputs : info.inputs = o.inputs
  outputs : info.psbt.vout = output ∧ InMoney height output ∨
    height.isSome = true ∧ output = [] ∧ info.psbt.vout = o.psbt.vout
  chain : ChainRules host c.config height info
  rules : ReplacementRules host env c id accountId predecessor o info method payee

/-- A refund: the caller executes a request whose timelock has passed. -/
structure NewRefund (call : ExecuteRefundCall) (request : RefundRequest) (info : BTCPendingInfo)
    (payee : Option String) : Prop where
  stored : c.refundRequests.lookup call.utxoStorageKey = some request
  payee : payee = some request.refundAddress
  kind : ∃ s, info.state = .refund s
  owner : info.accountId = call.caller
  amount : info.actualReceivedAmount + info.gasFee = request.amount
  fee : info.gasFee = request.gasFee
  floor : c.config.minChangeAmount ≤ info.actualReceivedAmount
  timelock : ∃ nowSec, env.nowSec = some nowSec ∧
    request.createdAtSec + call.timelockSec ≤ nowSec
  values : InMoney height info.psbt.vout
  chain : ChainRules host c.config height info

end Contract

variable {host : Host} {env : Env} {c c' : Contract} {receipt : Receipt} {height : Option ℕ}
  {info : BTCPendingInfo} {payee : Option String}

/-! ### Withdrawals and active management -/

theorem resume_withdrawal {senderId : AccountId} {amount : ℕ} {target : String}
    {input : List OutPoint} {output : List TxOut} {maxGasFee : Option ℕ}
    {data : Option ChainSpecificData} (hbuild : height.isSome = host.zcash)
    (h : c.resume host env height
      (.ftOnTransfer senderId amount target input output maxGasFee data) = some receipt)
    (hcreated : Mark.created info payee ∈ receipt.marks) :
    c.NewWithdrawal host env height senderId amount target input output maxGasFee info payee := by
  simp only [Contract.resume, Option.bind_eq_bind, Option.bind_eq_some_iff] at h
  obtain ⟨psbt, hpsbt, h⟩ := h
  obtain ⟨_, _, _, _, psbt', vutxos, change, inputNum, changeNum, actual, gasFee, nowSec, id,
    hvutxos, rfl, _, hchange, hcheck, hmaxGas, hchanges, hinputNum, hfew, hmany, hid, _, hinsert,
    hsign⟩ := createBtcPendingInfo_inv h
  obtain ⟨hdrafted, hkeys, hvout, hvalues⟩ := withdrawPsbt_drafted hpsbt
  obtain ⟨rest, coins, htake, rfl, rfl⟩ := generateVutxos_taken hvutxos
  obtain ⟨accounts, haccounts, _, _⟩ :=
    internalUnwrapOrCreateAccount_spec { c with utxos := rest } senderId
  rw [haccounts] at hchange hcheck hchanges hinputNum hfew hmany hinsert hcreated
  simp only [List.mem_cons, Mark.created.injEq, List.not_mem_nil, or_false, reduceCtorEq,
    false_or] at hcreated
  obtain ⟨hinfo, rfl⟩ := hcreated
  obtain ⟨_, _, _, _, _, hchain⟩ := checkWithdrawPsbt_inv hcheck
  obtain ⟨hfee, hbalance⟩ := checkPsbtChainSpecific_spec hbuild hchain
  have hlimits : ∃ address, host.parseAddress c.config.chain target = some address ∧
      c.PaymentLimits env address info ∧
        c.CoinLimits (info.psbt.beside address).length info.inputs.length := by
    obtain ⟨address, haddress⟩ :=
      checkWithdrawPsbt_target ((hdrafted.withCoins coins).noNote hbuild) hcheck
    refine ⟨address, haddress, ?_⟩
    have hout : info.psbt.vout = psbt.vout := by rw [hinfo]; rfl
    have hinputs : info.inputs.length = psbt.vin.length := by rw [hinfo]; exact List.length_map _
    have hcoins : info.vutxos = vutxos := by rw [hinfo]; rfl
    have hgas : info.gasFee = gasFee := by rw [hinfo]; rfl
    obtain ⟨hlimits, hchangeNum, hinputNum'⟩ :=
      checkWithdrawPsbt_limits hcheck haddress hout hinputs hcoins hgas
    have hpool : rest.entries.length + vutxos.length = c.utxos.entries.length := by
      rw [FiniteMap.length_takeAll htake, add_comm]
    rw [hpool] at hfew hmany
    rw [← hchangeNum, ← hinputNum']
    exact ⟨⟨hlimits.gas, hlimits.floor, hlimits.below, hlimits.ceiling⟩, hchanges, hinputNum, hfew,
      hmany⟩
  subst hinfo
  exact ⟨rfl, ⟨_, rfl⟩, rfl, rfl, rfl, hkeys, hvout, hvalues, hmaxGas,
    (hdrafted.withCoins coins).rules rfl hfee hbalance, hlimits⟩

theorem resume_management {accountId : AccountId} {input : List OutPoint} {output : List TxOut}
    (hbuild : height.isSome = host.zcash)
    (h : c.resume host env height (.activeUtxoManagement accountId input output) = some receipt)
    (hcreated : Mark.created info payee ∈ receipt.marks) :
    c.NewManagement host height accountId input output info payee := by
  simp only [Contract.resume, Option.bind_eq_bind, Option.bind_eq_some_iff] at h
  obtain ⟨psbt, hpsbt, h⟩ := h
  obtain ⟨_, _, _, psbt', vutxos, actual, gasFee, available, nowSec, id, _, hvutxos, hnumbers,
    hcheck, havailable, hid, _, hinsert, hsign⟩ := createActiveUtxoManagementPendingInfo_inv h
  obtain ⟨hdrafted, hkeys, hvout, hnote, hvalues⟩ := managementPsbt_drafted hpsbt
  obtain ⟨rest, coins, htake, rfl, rfl⟩ := generateVutxos_taken hvutxos
  simp only [List.mem_cons, Mark.created.injEq, List.not_mem_nil, or_false, reduceCtorEq,
    false_or] at hcreated
  obtain ⟨hinfo, rfl⟩ := hcreated
  have hout : info.psbt.vout = psbt.vout := by rw [hinfo]; rfl
  have hgas : info.gasFee = gasFee := by rw [hinfo]; rfl
  obtain ⟨hlimits, hfee⟩ := checkPsbtOutputAllChangeAddress_limits hbuild hcheck hout hgas
  have hinputNum : psbt.vin.length = input.length := by
    rw [← hkeys, PsbtWrapper.getUtxoStorageKeys, List.length_map]
  subst hinfo
  refine ⟨rfl, ⟨_, rfl⟩, rfl, hkeys, hvout, hvalues, ?_, (hdrafted.withCoins coins).rules rfl
    hfee ?_, ⟨hlimits.gas, hlimits.floor, hlimits.ceiling⟩, ?_⟩
  · exact Nat.le.intro ((Nat.add_comm _ _).trans havailable)
  · intro _ parsed hparsed
    cases hnote.symm.trans hparsed
  · simp only [PsbtWrapper.getOutputNum, PsbtWrapper.getInputNum, hvout, hinputNum] at hnumbers
    exact hnumbers

/-! ### Replacements -/

/-- A replacement of a kind, with its fee paid and its bundle balanced. -/
theorem Redrafted.replaced {method : RbfMethod} {accountId predecessor : AccountId}
    {id newId : Txid} {output : List TxOut} {o : BTCPendingInfo} {psbt : PsbtWrapper}
    {state : PendingInfoState} {actual gasFee burnAmount nowSec : ℕ}
    (h : Redrafted host c height id output o psbt) (hkind : state.isRefund = false)
    (hfee : height.isSome = true → psbt.getMinFee host ≤ gasFee)
    (hbalance : height.isSome = true → ∀ parsed, psbt.orchard = some parsed →
      parsed.bundle.valueBalance = -(parsed.output.amount : ℤ))
    (hrules : c.ReplacementRules host env id accountId predecessor o
      (replacement o state actual gasFee burnAmount nowSec psbt newId) method payee) :
    c.NewReplacement host env height method accountId id output predecessor o
      (replacement o state actual gasFee burnAmount nowSec psbt newId) payee where
  original := h.original
  owner := rfl
  coins := rfl
  inputs := h.inputs
  outputs := h.outputs
  chain := h.drafted.rules hkind hfee hbalance
  rules := hrules

/-- What an RBF method has checked are the rules of its replacement. -/
theorem internalRbf_new {method : RbfMethod} {accountId predecessor : AccountId} {id : Txid}
    {output : List TxOut} {o : BTCPendingInfo} {psbt : PsbtWrapper}
    (hbuild : height.isSome = host.zcash) (hdraft : Redrafted host c height id output o psbt)
    (hnote : method ≠ .withdrawRbf → psbt.orchard = none)
    (h : c.internalRbf host env method accountId id psbt predecessor = some (c', info, payee)) :
    c.NewReplacement host env height method accountId id output predecessor o info payee := by
  obtain ⟨o₁, s, _, _, nowSec, actual, gasFee, _, _, _, newId, _, ho₁, _, _, hnow, hchecks⟩ :=
    internalRbf_inv h
  rw [hdraft.original, Option.some.injEq] at ho₁
  subst ho₁
  have hout (state : PendingInfoState) (burnAmount : ℕ) :
      (replacement o state actual gasFee burnAmount nowSec psbt newId).psbt.vout = psbt.vout := rfl
  have hnoBundle (hne : method ≠ .withdrawRbf) : height.isSome = true →
      ∀ parsed, psbt.orchard = some parsed →
        parsed.bundle.valueBalance = -(parsed.output.amount : ℤ) :=
    fun _ _ hparsed ↦ by cases (hnote hne).symm.trans hparsed
  cases hchecks with
  | withdrawRbf change target _ _ hkind howner hactive _ _ hcheck _ =>
    obtain ⟨_, _, _, _, _, hchain⟩ := checkWithdrawPsbt_inv hcheck
    obtain ⟨hfee, hbalance⟩ := checkPsbtChainSpecific_spec hbuild hchain
    obtain ⟨address, haddress⟩ := checkWithdrawPsbt_target (hdraft.drafted.noNote hbuild) hcheck
    have hlimits := (checkWithdrawPsbt_limits hcheck haddress
      (hout (.withdrawUserRbf ⟨.pendingSign, id⟩) (actual + gasFee)) (List.length_map _) rfl rfl).1
    exact hdraft.replaced rfl hfee hbalance
      (.withdrawRbf s target hkind rfl hactive howner ⟨address, haddress, hlimits⟩)
  | cancelWithdraw userBalance hkind hage hcheck _ huser hexcess =>
    obtain ⟨hlimits, hfee⟩ := checkPsbtOutputAllChangeAddress_limits hbuild hcheck
      (hout (.withdrawCancelRbf ⟨.pendingSign, id⟩) gasFee) rfl
    refine hdraft.replaced rfl hfee (hnoBundle nofun)
      (.cancelWithdraw s hkind rfl ⟨nowSec, hnow, hage⟩ (fun hmore ↦ hexcess ?_) hlimits)
    have hmore' : o.transferAmount < o.withdrawFee + gasFee := hmore
    omega
  | activeUtxoManagementRbf hkind howner hcheck _ =>
    obtain ⟨hlimits, hfee⟩ := checkPsbtOutputAllChangeAddress_limits hbuild hcheck
      (hout (.activeUtxoManagementRbf ⟨.pendingSign, id⟩) gasFee) rfl
    exact hdraft.replaced rfl hfee (hnoBundle nofun)
      (.activeUtxoManagementRbf s hkind rfl howner hlimits)
  | cancelActiveUtxoManagement hkind hage hcheck _ =>
    obtain ⟨hlimits, hfee⟩ := checkPsbtOutputAllChangeAddress_limits hbuild hcheck
      (hout (.activeUtxoManagementCancelRbf ⟨.pendingSign, id⟩) gasFee) rfl
    exact hdraft.replaced rfl hfee (hnoBundle nofun)
      (.cancelActiveUtxoManagement s hkind rfl ⟨nowSec, hnow, hage⟩ hlimits)

theorem resume_replacement {method : RbfMethod} {accountId predecessor : AccountId} {id : Txid}
    {output : List TxOut} {data : Option ChainSpecificData} (hbuild : height.isSome = host.zcash)
    (hdata : method ≠ .withdrawRbf → data = none)
    (h : c.resume host env height (.rbf method accountId id output data predecessor)
      = some receipt) (hcreated : Mark.created info payee ∈ receipt.marks) :
    ∃ o, c.NewReplacement host env height method accountId id output predecessor o info payee := by
  simp only [Contract.resume, Contract.finishRbf, Option.bind_eq_bind, Option.bind_eq_some_iff,
    Option.some.injEq, Prod.exists] at h
  obtain ⟨_, _, psbt, hpsbt, c₁, info₁, payee₁, hrbf, c₂, _, rfl⟩ := h
  rw [List.mem_singleton, Mark.created.injEq] at hcreated
  obtain ⟨rfl, rfl⟩ := hcreated
  obtain ⟨⟨o, hdraft⟩, hnote⟩ := rbfPsbt_redrafted hpsbt
  exact ⟨o, internalRbf_new hbuild hdraft (fun hne ↦ hnote (hdata hne)) hrbf⟩

/-! ### Refunds -/

theorem resolveExecuteRefundTimelock_caller {key : OutPoint} {call : ExecuteRefundCall}
    (h : c.resolveExecuteRefundTimelock host env key = some call) :
    env.predecessor = call.caller := by
  simp only [Contract.resolveExecuteRefundTimelock, Option.bind_eq_bind, Option.bind_eq_some_iff,
    require_eq_some, Option.some.injEq, exists_and_left, exists_const] at h
  obtain ⟨_, request, _, msg, _, rfl⟩ := h
  rfl

theorem refundExecutionInputs_amount {request : RefundRequest} {inputs : RefundExecutionInputs}
    (h : c.refundExecutionInputs host request = some inputs) :
    inputs.refundAmount + request.gasFee = request.amount ∧
      c.config.minChangeAmount ≤ inputs.refundAmount := by
  unfold Contract.refundExecutionInputs at h
  split at h
  · simp only [Option.bind_eq_bind, Option.bind_eq_some_iff, require_eq_some, checkedSub_eq_some,
      Option.some.injEq, exists_and_left, exists_const, Prod.exists] at h
    obtain ⟨_, _, _, _, _, _, _, _, amount, hamount, hfloor, rfl⟩ := h
    exact ⟨hamount, hfloor⟩
  · simp only [Option.bind_eq_bind, Option.bind_eq_some_iff, require_eq_some, checkedSub_eq_some,
      Option.some.injEq, exists_and_left, exists_const, Prod.exists] at h
    obtain ⟨_, _, _, _, _, _, _, amount, hamount, hfloor, rfl⟩ := h
    exact ⟨hamount, hfloor⟩

/-- Shielded or not, the psbt of a refund is new and has passed the chain specific checks. -/
theorem zcashRefundPsbt_inv {request : RefundRequest} {inputs : RefundExecutionInputs}
    {data : Option ChainSpecificData} {height : ℕ} {psbt : PsbtWrapper}
    (h : c.zcashRefundPsbt host request inputs data height = some psbt) :
    ∃ output psbt', PsbtWrapper.newZcash host c.config [inputs.outpoint] output
        (data.map ChainSpecificData.orchardBundleBytes) refundExpiryHeight height
        (some request.refundAddress) = some psbt' ∧
      psbt'.setInputUtxo host [inputs.depositOutput] = some psbt ∧
      c.checkPsbtChainSpecific host psbt request.gasFee request.refundAddress = some () := by
  simp only [Contract.zcashRefundPsbt] at h
  split at h
  · simp only [Option.bind_eq_bind, Option.bind_some, Option.bind_eq_some_iff, require_eq_some,
      Option.some.injEq, exists_and_left, exists_const] at h
    obtain ⟨psbt', hnew, psbt, hset, _, hchain, _, rfl⟩ := h
    exact ⟨[], psbt', hnew, hset, hchain⟩
  · simp only [Option.bind_eq_bind, Option.bind_some, Option.bind_eq_some_iff, require_eq_some,
      Option.some.injEq, exists_and_left, exists_const] at h
    obtain ⟨output, _, psbt', hnew, psbt, hset, _, hchain, _, rfl⟩ := h
    exact ⟨[output], psbt', hnew, hset, hchain⟩

theorem refundPsbt_drafted {request : RefundRequest} {inputs : RefundExecutionInputs}
    {data : Option ChainSpecificData} {psbt : PsbtWrapper} (hbuild : height.isSome = host.zcash)
    (h : c.refundPsbt host height request inputs data = some psbt) :
    Drafted host c.config true height psbt ∧
      (height.isSome = true → psbt.getMinFee host ≤ request.gasFee) ∧
      (height.isSome = true → ∀ parsed, psbt.orchard = some parsed →
        parsed.bundle.valueBalance = -(parsed.output.amount : ℤ)) ∧
      InMoney height psbt.vout := by
  cases height with
  | none =>
    simp only [Contract.refundPsbt, Option.bind_eq_bind, Option.bind_eq_some_iff] at h
    obtain ⟨_, _, psbt', hpsbt, h⟩ := h
    obtain ⟨_, rfl⟩ := PsbtWrapper.setInputUtxo_spec h
    refine ⟨(Drafted.ofBitcoin hpsbt).withCoins _, fun hzcash ↦ ?_, fun hzcash ↦ ?_,
      fun hzcash ↦ ?_⟩
    · cases hzcash
    · cases hzcash
    · cases hzcash
  | some height =>
    obtain ⟨output, psbt', hnew, hset, hchain⟩ := zcashRefundPsbt_inv h
    obtain ⟨_, rfl⟩ := PsbtWrapper.setInputUtxo_spec hset
    have hexpiry : c.config.ExpiresAt true refundExpiryHeight (some height) := rfl
    obtain ⟨hfee, hbalance⟩ := checkPsbtChainSpecific_spec hbuild hchain
    have hvalues : InMoney (some height) psbt'.vout := newZcash_inMoney hnew
    exact ⟨(Drafted.ofZcash hexpiry hnew).withCoins _, hfee, hbalance, hvalues⟩

theorem resume_refund {call : ExecuteRefundCall} {data : Option ChainSpecificData}
    (hbuild : height.isSome = host.zcash)
    (h : c.resume host env height (.executeRefund call data) = some receipt)
    (hcreated : Mark.created info payee ∈ receipt.marks) :
    ∃ request, c.NewRefund host env height call request info payee := by
  simp only [Contract.resume, Option.bind_eq_bind, Option.bind_eq_some_iff] at h
  obtain ⟨request, hload, inputs, hinputs, psbt, hpsbt, h⟩ := h
  obtain ⟨hrequest, ⟨nowSec, hnow, htime⟩, _⟩ := loadRefundRequestForExecute_spec hload
  obtain ⟨hamount, hfloor⟩ := refundExecutionInputs_amount hinputs
  obtain ⟨hdrafted, hfee, hbalance, hvalues⟩ := refundPsbt_drafted hbuild hpsbt
  obtain ⟨_, _, _, msg, _, id, _, _, _, _, _, _, _⟩ := finalizeRefundWithPsbt_inv h
  simp only [List.mem_cons, Mark.created.injEq, List.not_mem_nil, or_false, reduceCtorEq]
    at hcreated
  obtain ⟨rfl, rfl⟩ := hcreated
  exact ⟨request, hrequest, rfl, ⟨_, rfl⟩, rfl, hamount, rfl, hfloor, ⟨nowSec, hnow, htime⟩,
    hvalues, hdrafted.rules rfl hfee hbalance⟩

end SatoshiBridge
