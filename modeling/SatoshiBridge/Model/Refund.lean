import SatoshiBridge.Model.Sign

/-!
# Refunds

A deposit that was never finalised can be sent back. A request proves the deposit to the light
client and is kept under the key of the outpoint; executing it after its timelock builds the refund
transaction and marks the outpoint verified, as often as needed; confirming any of these
transactions removes the request.
-/

set_option autoImplicit false
set_option relaxedAutoImplicit false

namespace SatoshiBridge

/-- `MAX_REQUEST_REFUND_TX_BYTES`. -/
def maxRequestRefundTxBytes : ℕ := 200000

/-- `required_balance_for_request_refund`, in yoctoNEAR. -/
def requiredBalanceForRequestRefund : ℕ := 2 * 10 ^ 24

/-- `required_balance_for_execute_refund`, in yoctoNEAR. -/
def requiredBalanceForExecuteRefund : ℕ := 10 ^ 24

/-- `P2PKH_STANDARD_OUTPUT_SIZE`. -/
def p2pkhStandardOutputSize : ℕ := 34

/-- `transparent_refund_min_fee`. -/
def transparentRefundMinFee (host : Host) : ℕ := host.zip317MinFee 1 [p2pkhStandardOutputSize] 0 0

/-- `shielded_refund_min_fee`. -/
def shieldedRefundMinFee (host : Host) : ℕ :=
  max (host.zip317MinFee 1 [] 0 expectedActionsNumber)
    (host.zip317MinFee 1 [] expectedActionsNumber 0)

/-- `REFUND_EXPIRY_HEIGHT`. -/
def refundExpiryHeight : ℕ := 0

/-- `RefundExecutionInputs`. -/
structure RefundExecutionInputs where
  outpoint : OutPoint
  depositOutput : TxOut
  refundAmount : ℕ

namespace Contract

variable (host : Host) (env : Env) (c : Contract)

/-- `get_refund_gas_fee` of the two builds. -/
def getRefundGasFee : ℕ :=
  if host.zcash then max (transparentRefundMinFee host) (shieldedRefundMinFee host)
  else c.config.maxBtcGasFee

/-- `assert_valid_refund_address`. -/
def assertValidRefundAddress (refundAddress : String) : Option Unit := do
  let _ ← host.parseAddress c.config.chain refundAddress
  some ()

/-! ### Requesting and rejecting -/

/-- `internal_request_refund`. -/
def internalRequestRefund (depositMsg : DepositMsg) (refundAddress : String)
    (txBytes : DepositTxProof) (vout : ℕ) (gasFee : Option ℕ) : Option Receipt := do
  require (requiredBalanceForRequestRefund ≤ env.attachedDeposit)
  match txBytes with
  | .full bytes => require (bytes.length ≤ maxRequestRefundTxBytes)
  | .compact _ => some ()
  require (∀ msgRefundAddress ∈ depositMsg.refundAddress, msgRefundAddress = refundAddress)
  c.assertValidRefundAddress host refundAddress
  let txSummary ← internalResolveDepositTx host txBytes
  let depositOutput ← txSummary.outputs[vout]?
  some {
    contract := c
    promises := [.requestRefund depositMsg refundAddress txSummary.txId depositOutput vout gasFee]
    marks := []
    returns := none }

/-- `request_refund`. -/
def requestRefund (depositMsg : DepositMsg) (refundAddress : String) (txBytes : DepositTxProof)
    (vout : ℕ) (gasFee : Option ℕ) : Option Receipt := do
  env.assertNotPaused
  require (gasFee.isSome →
    c.aclHasRole .dao env.predecessor ∨ c.aclHasRole .operator env.predecessor)
  c.internalRequestRefund host env depositMsg refundAddress txBytes vout gasFee

/-- `request_refund_callback`. -/
def requestRefundCallback (result : PromiseResult) (depositMsg : DepositMsg)
    (refundAddress : String) (txId : Txid) (depositOutput : TxOut) (vout : ℕ)
    (gasFee : Option ℕ) : Option Receipt := do
  let info ← result.expectInclusion
  require (c.config.maxRequiredConfirmations ≤
    info.mainchainTipHeight - info.txBlockHeight + 1)
  let depositScript ← c.generateUtxoChainScript host (getDepositPath host depositMsg)
  require (depositScript = depositOutput.scriptPubkey)
  let amount := depositOutput.value
  let key := generateUtxoStorageKey txId vout
  require (key ∉ c.verifiedDepositUtxo)
  require ((c.refundRequests.lookup key).isNone)
  let resolvedGasFee := gasFee.getD (c.getRefundGasFee host)
  let refundAmount ← checkedSub amount resolvedGasFee
  require (c.config.minChangeAmount ≤ refundAmount)
  let nowSec ← env.nowSec
  let request : RefundRequest := {
    depositMsgJson := host.depositMsgToJson depositMsg
    utxoStorageKey := key
    txBytes := []
    vout := vout
    amount := amount
    refundAddress := refundAddress
    gasFee := resolvedGasFee
    createdAtSec := nowSec
    executed := false }
  some {
    contract := { c with refundRequests := c.refundRequests.insert key request }
    promises := []
    marks := [.refundRequested request]
    returns := some (.bool true) }

/-- `reject_refund`. -/
def rejectRefund (utxoStorageKey : OutPoint) : Option Receipt := do
  let isPrivileged := c.aclHasRole .dao env.predecessor || c.aclHasRole .operator env.predecessor
  let executed :=
    ((c.refundRequests.lookup utxoStorageKey).map RefundRequest.executed).getD false
  require (executed = false)
  let isAlreadyDeposited := utxoStorageKey ∈ c.verifiedDepositUtxo ∧
    (c.utxosInProgress.lookup utxoStorageKey).isNone
  require (isPrivileged = true ∨ isAlreadyDeposited)
  let _ ← c.refundRequests.lookup utxoStorageKey
  some {
    contract := { c with refundRequests := c.refundRequests.erase utxoStorageKey }
    promises := []
    marks := []
    returns := some .unit }

/-! ### Executing -/

/-- `resolve_execute_refund_timelock`. -/
def resolveExecuteRefundTimelock (utxoStorageKey : OutPoint) : Option ExecuteRefundCall := do
  require (requiredBalanceForExecuteRefund ≤ env.attachedDeposit)
  let isPrivileged :=
    c.aclHasRole .dao env.predecessor || c.aclHasRole .refundOperator env.predecessor
  let request ← c.refundRequests.lookup utxoStorageKey
  let depositMsg ← request.depositMsg host
  let timelockSec :=
    if depositMsg.refundAddress.isSome then
      if isPrivileged then 0 else c.config.refundTimelockSec
    else c.config.unsafeRefundTimelockSec
  some {
    caller := env.predecessor
    utxoStorageKey := utxoStorageKey
    timelockSec := timelockSec
    isPrivileged := isPrivileged
    refundTimelockSec := c.config.refundTimelockSec
    unsafeRefundTimelockSec := c.config.unsafeRefundTimelockSec }

/-- `load_refund_request_for_execute`. -/
def loadRefundRequestForExecute (utxoStorageKey : OutPoint) (timelockSec : ℕ) :
    Option RefundRequest := do
  let request ← c.refundRequests.lookup utxoStorageKey
  let nowSec ← env.nowSec
  require (request.createdAtSec + timelockSec ≤ nowSec)
  require (utxoStorageKey ∉ c.verifiedDepositUtxo ∨ request.executed = true)
  some request

/-- `refund_execution_inputs`. Requests stored with their transaction read the deposit from it,
the others derive it from the message and the key. -/
def refundExecutionInputs (request : RefundRequest) : Option RefundExecutionInputs := do
  let (txid, depositOutput) ←
    if request.txBytes = [] then do
      let depositMsg ← request.depositMsg host
      let script ← c.generateUtxoChainScript host (getDepositPath host depositMsg)
      require (request.amount < 2 ^ 64)
      some (request.utxoStorageKey.txid, (⟨request.amount, script⟩ : TxOut))
    else do
      let transaction ← host.decodeTransaction request.txBytes
      let depositOutput ← transaction.output[request.vout]?
      some (host.computeTxid transaction, depositOutput)
  let refundAmount ← checkedSub request.amount request.gasFee
  require (c.config.minChangeAmount ≤ refundAmount)
  some ⟨⟨txid, request.vout⟩, depositOutput, refundAmount⟩

/-- `build_refund_output`. -/
def buildRefundOutput (refundAddress : String) (refundAmount : ℕ) : Option TxOut := do
  let address ← host.parseAddress c.config.chain refundAddress
  let script ← address.scriptPubkey
  require (refundAmount < 2 ^ 64)
  some ⟨refundAmount, script⟩

/-- `finalize_refund_with_psbt`. -/
def finalizeRefundWithPsbt (call : ExecuteRefundCall) (request : RefundRequest)
    (psbt : PsbtWrapper) (refundAmount : ℕ) : Option Receipt := do
  let depositMsg ← request.depositMsg host
  require (request.amount < 2 ^ 64)
  let vutxo : UTXO := {
    path := getDepositPath host depositMsg
    txBytes := request.txBytes
    vout := request.vout
    balance := request.amount }
  let btcPendingId ← psbt.getPendingId host
  let c := c.internalUnwrapOrCreateAccount call.caller
  c.requirePendingSignCapacity call.caller
  let nowSec ← env.nowSec
  let info : BTCPendingInfo := {
    accountId := call.caller
    btcPendingId := btcPendingId
    transferAmount := 0
    actualReceivedAmount := refundAmount
    withdrawFee := 0
    gasFee := request.gasFee
    burnAmount := 0
    psbt := psbt
    vutxos := [vutxo]
    signatures := [none]
    txBytesWithSign := none
    createTimeSec := nowSec
    lastSignTimeSec := 0
    state := .refund {
      stage := .pendingSign
      maxGasFee := request.gasFee
      lastRbfTimeSec := none
      cancelRbfReserved := none } }
  let c ← c.insertNewBtcPendingInfo btcPendingId info
  let c ← c.addPendingSignId call.caller btcPendingId
  let key := call.utxoStorageKey
  let c := { c with
    verifiedDepositUtxo := insert key c.verifiedDepositUtxo
    refundRequests := c.refundRequests.insert key { request with executed := true } }
  some {
    contract := c
    promises := []
    marks := [.created info (some request.refundAddress), .refundCreated call request info nowSec]
    returns := some .unit }

/-- The psbt of a refund in the Zcash build: shielded when a bundle is given, transparent
otherwise. -/
def zcashRefundPsbt (request : RefundRequest) (inputs : RefundExecutionInputs)
    (chainSpecificData : Option ChainSpecificData) (lastBlockHeight : ℕ) :
    Option PsbtWrapper := do
  let orchardBundle := chainSpecificData.map ChainSpecificData.orchardBundleBytes
  let output ←
    if orchardBundle.isSome then some []
    else do
      let output ← c.buildRefundOutput host request.refundAddress inputs.refundAmount
      some [output]
  let psbt ← PsbtWrapper.newZcash host c.config [inputs.outpoint] output orchardBundle
    refundExpiryHeight lastBlockHeight (some request.refundAddress)
  let psbt ← psbt.setInputUtxo host [inputs.depositOutput]
  c.checkPsbtChainSpecific host psbt request.gasFee request.refundAddress
  require (∀ parsed ∈ psbt.orchard, parsed.output.amount = inputs.refundAmount)
  some psbt

/-- `internal_execute_refund` of the Bitcoin build. -/
def internalExecuteRefund (call : ExecuteRefundCall) : Option Receipt := do
  let request ← c.loadRefundRequestForExecute env call.utxoStorageKey call.timelockSec
  let inputs ← c.refundExecutionInputs host request
  let output ← c.buildRefundOutput host request.refundAddress inputs.refundAmount
  let psbt ← PsbtWrapper.newBitcoin [inputs.outpoint] [output]
  let psbt ← psbt.setInputUtxo host [inputs.depositOutput]
  c.finalizeRefundWithPsbt host env call request psbt inputs.refundAmount

/-- `execute_refund_callback` of the Zcash build. -/
def executeRefundCallback (result : PromiseResult) (call : ExecuteRefundCall)
    (chainSpecificData : Option ChainSpecificData) : Option Receipt := do
  let lastBlockHeight ← result.expectHeight
  let request ← c.loadRefundRequestForExecute env call.utxoStorageKey call.timelockSec
  let inputs ← c.refundExecutionInputs host request
  let psbt ← c.zcashRefundPsbt host request inputs chainSpecificData lastBlockHeight
  c.finalizeRefundWithPsbt host env call request psbt inputs.refundAmount

/-- `execute_refund`, with `internal_execute_refund` of the two builds. -/
def executeRefund (utxoStorageKey : OutPoint) (chainSpecificData : Option ChainSpecificData) :
    Option Receipt := do
  env.assertNotPaused
  let call ← c.resolveExecuteRefundTimelock host env utxoStorageKey
  if host.zcash then
    some {
      contract := c
      promises := [.executeRefund call chainSpecificData]
      marks := []
      returns := none }
  else c.internalExecuteRefund host env call

/-! ### Finalising -/

/-- `internal_verify_refund_finalize_entry` with `internal_verify_refund_finalize`. -/
def internalVerifyRefundFinalizeEntry (txId : Txid) : Option Receipt := do
  let info ← c.internalUnwrapBtcPendingInfo txId
  info.assertRefundPendingVerifyTx
  require info.txBytesWithSign.isSome
  let confirmations ← c.config.getConfirmations info.actualReceivedAmount
  some {
    contract := c
    promises := [.verifyRefundFinalize txId (confirmations + c.relayerDelta env.predecessor)]
    marks := []
    returns := none }

/-- The only input of a refund transaction. -/
def refundUtxoStorageKey (info : BTCPendingInfo) : Option OutPoint :=
  match info.psbt.getUtxoStorageKeys with
  | [key] => some key
  | _ => none

/-- `verify_refund_finalize_callback`. -/
def verifyRefundFinalizeCallback (result : PromiseResult) (txId : Txid) : Option Receipt := do
  let isValid ← result.expectBool
  require (isValid = true)
  let info ← c.internalUnwrapBtcPendingInfo txId
  info.assertRefundPendingVerifyTx
  let key ← refundUtxoStorageKey info
  let c := { c with refundRequests := c.refundRequests.erase key }
  let (c, _) ← c.internalRemoveBtcPendingInfo txId
  let c ← c.removeFromVerifyList info.accountId txId
  some {
    contract := c
    promises := []
    marks := [.refundFinalised txId key]
    returns := some (.bool true) }

/-- `remove_refund_pending_tx_id` with `internal_remove_refund_pending_tx_id`. -/
def removeRefundPendingTxId (txId : Txid) : Option Receipt := do
  env.assertTrustedRelayer
  env.assertNotPaused
  let info ← c.internalUnwrapBtcPendingInfo txId
  info.assertRefundRelated
  let key ← refundUtxoStorageKey info
  require ((c.refundRequests.lookup key).isNone)
  let (c, _) ← c.internalRemoveBtcPendingInfo txId
  let c ← c.internalUnwrapMutAccount info.accountId fun account ↦
    { account with
      btcPendingSignIds := account.btcPendingSignIds.erase txId
      btcPendingVerifyList := account.btcPendingVerifyList.erase txId }
  some { contract := c, promises := [], marks := [], returns := some .unit }

/-- `verify_withdraw_v2`. -/
def verifyWithdrawV2 (txId : Txid) : Option Receipt := do
  env.assertTrustedRelayer
  env.assertNotPaused
  let info ← c.internalUnwrapBtcPendingInfo txId
  if info.state.isWithdrawRelated then c.internalVerifyWithdrawEntry env txId
  else if info.state.isActiveUtxoManagementRelated then
    c.internalVerifyActiveUtxoManagementEntry env txId
  else c.internalVerifyRefundFinalizeEntry env txId

end Contract

end SatoshiBridge
