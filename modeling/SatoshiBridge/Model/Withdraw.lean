import SatoshiBridge.Model.Deposit

/-!
# Withdrawals and active UTXO management

The checks on a proposed transaction and the creation of the pending record of an original. A
withdrawal pays one user output and otherwise change; active management pays change only and takes
its gas from the protocol fees.
-/

set_option autoImplicit false
set_option relaxedAutoImplicit false

namespace SatoshiBridge

/-- `is_merge_unhealthy_utxos`. -/
def isMergeUnhealthyUtxos (outputNum : ℕ) (vutxos : List UTXO) (unhealthyUtxoAmount : ℕ) : Bool :=
  outputNum = 1 ∧ ∀ v ∈ vutxos, v.balance ≤ unhealthyUtxoAmount

/-- The sum of the amounts of inputs. -/
def inputAmount (vutxos : List UTXO) : ℕ := (vutxos.map UTXO.balance).sum

/-- The sum of the values of transparent outputs. -/
def outputAmount (outputs : List TxOut) : ℕ := (outputs.map TxOut.value).sum

/-- The smallest input; `u128::MAX` for no inputs. -/
def minInputAmount (vutxos : List UTXO) : ℕ := (vutxos.map UTXO.balance).foldr min u128Max

inductive TokenReceiverMessage
  | depositProtocolFee
  | withdraw (targetBtcAddress : String) (input : List OutPoint) (output : List TxOut)
      (maxGasFee : Option ℕ) (chainSpecificData : Option ChainSpecificData)
deriving DecidableEq

namespace Contract

variable (host : Host) (env : Env) (c : Contract)

/-! ### Chain specific checks -/

/-- `check_min_fee_chain_specific`. -/
def checkMinFeeChainSpecific (psbt : PsbtWrapper) (gasFee : ℕ) : Option Unit :=
  require (host.zcash → psbt.getMinFee host ≤ gasFee)

/-- `check_psbt_chain_specific`. -/
def checkPsbtChainSpecific (psbt : PsbtWrapper) (gasFee : ℕ) (targetBtcAddress : String) :
    Option Unit :=
  if host.zcash then do
    checkMinFeeChainSpecific host psbt gasFee
    if psbt.orchard.isSome then
      psbt.validateOrchardBundle host targetBtcAddress c.config.chain
    else some ()
  else some ()

/-- `get_expiry_height`. -/
def getExpiryHeight (chainSpecificData : Option ChainSpecificData) (lastBlockHeight : ℕ) :
    Option ℕ := do
  let gap := c.config.expiryHeightGap
  let expiryHeight := match chainSpecificData with
    | some data => data.expiryHeight
    | none => lastBlockHeight + gap
  require (lastBlockHeight + gap ≤ expiryHeight ∧ expiryHeight ≤ lastBlockHeight + 2 * gap)
  some expiryHeight

/-! ### The checks on outputs -/

/-- The two sums a pass over the transparent outputs of a withdrawal accumulates. -/
structure WithdrawOutputs where
  actualReceivedAmounts : List ℕ
  changeAmounts : List ℕ

/-- The pass of `check_withdraw_psbt` over the transparent outputs: an output pays the target or
is change of an admitted size; anything else panics. -/
def classifyOutputs (targetScript : Option ScriptBuf) (changeScript : ScriptBuf)
    (minInput : ℕ) : List TxOut → Option WithdrawOutputs
  | [] => some ⟨[], []⟩
  | output :: rest =>
    if targetScript = some output.scriptPubkey then do
      let sums ← classifyOutputs targetScript changeScript minInput rest
      some { sums with actualReceivedAmounts := output.value :: sums.actualReceivedAmounts }
    else do
      require (output.scriptPubkey = changeScript)
      require (c.config.minChangeAmount ≤ output.value)
      require (c.aclHasRole .unrestrictedRelayer env.signer ∨ output.value < minInput)
      let sums ← classifyOutputs targetScript changeScript minInput rest
      some { sums with changeAmounts := output.value :: sums.changeAmounts }

/-- `check_withdraw_psbt`: the number of inputs and of change outputs, the amount the user receives
and the gas fee. -/
def checkWithdrawPsbt (psbt : PsbtWrapper) (targetBtcAddress : String)
    (withdrawChangeScript : ScriptBuf) (vutxos : List UTXO) (amount withdrawFee : ℕ) :
    Option (ℕ × ℕ × ℕ × ℕ) := do
  let outputs ←
    if psbt.getOutput = [] then some ⟨[], []⟩
    else do
      let targetScript ← c.config.targetScriptPubkey host targetBtcAddress
      c.classifyOutputs env targetScript withdrawChangeScript (minInputAmount vutxos)
        psbt.getOutput
  let totalOutputAmount := outputAmount psbt.getOutput + psbt.extraOutputs.sum
  let actualReceivedAmounts := outputs.actualReceivedAmounts ++ psbt.extraOutputs
  require (actualReceivedAmounts.length = 1)
  let actualReceivedAmount ← actualReceivedAmounts.head?
  let inputNum := psbt.getInputNum
  let changeNum := outputs.changeAmounts.length
  require (changeNum < inputNum →
    ∀ v ∈ outputs.changeAmounts, v < c.config.maxChangeAmount)
  let gasFee ← checkedSub (inputAmount vutxos) totalOutputAmount
  let afterFee ← checkedSub amount withdrawFee
  let expectedReceivedAmount ← checkedSub afterFee gasFee
  require (actualReceivedAmount = expectedReceivedAmount)
  require (c.config.minBtcGasFee ≤ gasFee ∧ gasFee ≤ c.config.maxBtcGasFee)
  c.checkPsbtChainSpecific host psbt gasFee targetBtcAddress
  some (inputNum, changeNum, actualReceivedAmount, gasFee)

/-- `check_withdraw_psbt_valid`. -/
def checkWithdrawPsbtValid (targetBtcAddress : String) (withdrawChangeScript : ScriptBuf)
    (psbt : PsbtWrapper) (vutxos : List UTXO) (amount withdrawFee : ℕ)
    (maxGasFee : Option ℕ) : Option (ℕ × ℕ) := do
  let utxoNum := c.utxos.entries.length + vutxos.length
  let (inputNum, changeNum, actualReceivedAmount, gasFee) ←
    c.checkWithdrawPsbt host env psbt targetBtcAddress withdrawChangeScript vutxos amount
      withdrawFee
  require (∀ m ∈ maxGasFee, gasFee ≤ m)
  require (changeNum ≤ c.config.maxChangeNumber)
  require (inputNum ≤ c.config.maxWithdrawalInputNumber)
  require (utxoNum < c.config.passiveManagementLowerLimit → inputNum < changeNum)
  require (¬utxoNum < c.config.passiveManagementLowerLimit →
    c.config.passiveManagementUpperLimit < utxoNum → changeNum < inputNum)
  some (actualReceivedAmount, gasFee)

/-- `check_psbt_output_all_change_address`. -/
def checkPsbtOutputAllChangeAddress (psbt : PsbtWrapper) (vutxos : List UTXO)
    (forceHealthyOutput isCancel : Bool) : Option (ℕ × ℕ) := do
  let changeScript ← c.config.getChangeScriptPubkey host
  require (∀ o ∈ psbt.getOutput,
    (if forceHealthyOutput then c.config.unhealthyUtxoAmount < o.value
      else c.config.minChangeAmount ≤ o.value) ∧
    o.value ≤ c.config.maxChangeAmount ∧ o.scriptPubkey = changeScript)
  let received := outputAmount psbt.getOutput
  let gasFee ← checkedSub (inputAmount vutxos) received
  checkMinFeeChainSpecific host psbt gasFee
  require (isCancel = false →
    c.config.minBtcGasFee ≤ gasFee ∧ gasFee ≤ c.config.maxBtcGasFee)
  some (received, gasFee)

/-- `check_active_management_psbt_valid`. -/
def checkActiveManagementPsbtValid (psbt : PsbtWrapper) (vutxos : List UTXO) :
    Option (ℕ × ℕ) := do
  require (isMergeUnhealthyUtxos psbt.getOutputNum vutxos c.config.unhealthyUtxoAmount = false →
    psbt.getInputNum ≤ c.config.maxActiveUtxoManagementInputNumber ∧
    psbt.getOutputNum ≤ c.config.maxActiveUtxoManagementOutputNumber)
  c.checkPsbtOutputAllChangeAddress host psbt vutxos true false

/-! ### Creating originals -/

/-- The record of an original withdrawal or active management before it is signed. -/
def originalPendingInfo (accountId : AccountId) (btcPendingId : Txid)
    (transferAmount actualReceivedAmount withdrawFee gasFee burnAmount : ℕ) (psbt : PsbtWrapper)
    (vutxos : List UTXO) (nowSec : ℕ) (kind : OriginalState → PendingInfoState) :
    BTCPendingInfo where
  accountId := accountId
  btcPendingId := btcPendingId
  transferAmount := transferAmount
  actualReceivedAmount := actualReceivedAmount
  withdrawFee := withdrawFee
  gasFee := gasFee
  burnAmount := burnAmount
  psbt := psbt
  vutxos := vutxos
  signatures := List.replicate psbt.getInputNum none
  txBytesWithSign := none
  createTimeSec := nowSec
  lastSignTimeSec := 0
  state := kind {
    stage := .pendingSign
    maxGasFee := gasFee
    lastRbfTimeSec := none
    cancelRbfReserved := none }

/-- `btc_pending_sign_ids.insert(..)` through `internal_unwrap_mut_account`. -/
def addPendingSignId (accountId : AccountId) (btcPendingId : Txid) : Option Contract :=
  c.internalUnwrapMutAccount accountId fun account ↦
    { account with btcPendingSignIds := insert btcPendingId account.btcPendingSignIds }

/-- `create_btc_pending_info`. -/
def createBtcPendingInfo (senderId : AccountId) (amount : ℕ) (targetBtcAddress : String)
    (psbt : PsbtWrapper) (maxGasFee : Option ℕ) : Option Receipt := do
  let (c, psbt, vutxos) ← c.generateVutxos host psbt
  let c := c.internalUnwrapOrCreateAccount senderId
  c.requirePendingSignCapacity senderId
  let withdrawChangeScript ← c.config.getChangeScriptPubkey host
  let withdrawFee := c.config.withdrawBridgeFee.getFee amount
  let (actualReceivedAmount, gasFee) ←
    c.checkWithdrawPsbtValid host env targetBtcAddress withdrawChangeScript psbt vutxos amount
      withdrawFee maxGasFee
  let btcPendingId ← psbt.getPendingId host
  let nowSec ← env.nowSec
  let info := originalPendingInfo senderId btcPendingId amount actualReceivedAmount withdrawFee
    gasFee (actualReceivedAmount + gasFee) psbt vutxos nowSec .withdrawOriginal
  let c ← c.insertNewBtcPendingInfo btcPendingId info
  let c ← c.addPendingSignId senderId btcPendingId
  some {
    contract := c
    promises := []
    marks := [.utxoRemoved psbt.getUtxoStorageKeys btcPendingId,
      .created info (some targetBtcAddress)]
    returns := some (.u128 0) }

/-- `create_active_utxo_management_pending_info`. -/
def createActiveUtxoManagementPendingInfo (accountId : AccountId) (psbt : PsbtWrapper) :
    Option Receipt := do
  c.requirePendingSignCapacity accountId
  let (c, psbt, vutxos) ← c.generateVutxos host psbt
  let (actualReceivedAmount, gasFee) ← c.checkActiveManagementPsbtValid host psbt vutxos
  let curAvailable ← checkedSub c.curAvailableProtocolFee gasFee
  let c := { c with
    curAvailableProtocolFee := curAvailable
    curReservedProtocolFee := c.curReservedProtocolFee + gasFee }
  let btcPendingId ← psbt.getPendingId host
  let nowSec ← env.nowSec
  let info := originalPendingInfo accountId btcPendingId 0 actualReceivedAmount 0 gasFee gasFee
    psbt vutxos nowSec .activeUtxoManagementOriginal
  let c ← c.insertNewBtcPendingInfo btcPendingId info
  let c ← c.addPendingSignId accountId btcPendingId
  some {
    contract := c
    promises := []
    marks := [.utxoRemoved psbt.getUtxoStorageKeys btcPendingId, .created info none]
    returns := some .unit }

/-! ### Entry points -/

/-- `ft_on_transfer_withdraw_chain_specific`: the Zcash build asks for the block height first. -/
def ftOnTransferWithdrawChainSpecific (senderId : AccountId) (amount : ℕ)
    (targetBtcAddress : String) (input : List OutPoint) (output : List TxOut)
    (maxGasFee : Option ℕ) (chainSpecificData : Option ChainSpecificData) : Option Receipt :=
  if host.zcash then
    some {
      contract := c
      promises := [.ftOnTransfer senderId amount targetBtcAddress input output maxGasFee
        chainSpecificData]
      marks := []
      returns := none }
  else do
    let psbt ← PsbtWrapper.newBitcoin input output
    c.createBtcPendingInfo host env senderId amount targetBtcAddress psbt maxGasFee

/-- `ft_on_transfer`. -/
def ftOnTransfer (senderId : AccountId) (amount : ℕ) (msg : TokenReceiverMessage) :
    Option Receipt := do
  env.assertNotPaused
  require (c.config.minWithdrawAmount ≤ amount)
  require (env.predecessor = c.config.nbtcAccountId)
  match msg with
  | .depositProtocolFee =>
    let c ← c.collectProtocolFee amount
    some {
      contract := c
      promises := []
      marks := []
      returns := some (.u128 0) }
  | .withdraw targetBtcAddress input output maxGasFee chainSpecificData =>
    require (env.publicWithdrawPaused = false ∨ c.aclHasRole .trustedWithdrawSender senderId)
    c.ftOnTransferWithdrawChainSpecific host env senderId amount targetBtcAddress input output
      maxGasFee chainSpecificData

/-- `ft_on_transfer_callback` of the Zcash build. -/
def ftOnTransferCallback (result : PromiseResult) (senderId : AccountId) (amount : ℕ)
    (targetBtcAddress : String) (input : List OutPoint) (output : List TxOut)
    (maxGasFee : Option ℕ) (chainSpecificData : Option ChainSpecificData) : Option Receipt := do
  let lastBlockHeight ← result.expectHeight
  let expiryHeight ← c.getExpiryHeight chainSpecificData lastBlockHeight
  let orchardBundle := chainSpecificData.map ChainSpecificData.orchardBundleBytes
  let psbt ← PsbtWrapper.newZcash host c.config input output orchardBundle expiryHeight
    lastBlockHeight (some targetBtcAddress)
  c.createBtcPendingInfo host env senderId amount targetBtcAddress psbt maxGasFee

/-- `active_utxo_management`. -/
def activeUtxoManagement (input : List OutPoint) (output : List TxOut) : Option Receipt := do
  require (c.aclHasRole .dao env.predecessor ∨ c.aclHasRole .operator env.predecessor)
  env.assertNotPaused
  env.assertOneYocto
  if host.zcash then
    some {
      contract := c
      promises := [.activeUtxoManagement env.predecessor input output]
      marks := []
      returns := some .unit }
  else do
    let psbt ← PsbtWrapper.newBitcoin input output
    c.createActiveUtxoManagementPendingInfo host env env.predecessor psbt

/-- `active_utxo_management_callback` of the Zcash build. -/
def activeUtxoManagementCallback (result : PromiseResult) (accountId : AccountId)
    (input : List OutPoint) (output : List TxOut) : Option Receipt := do
  let lastBlockHeight ← result.expectHeight
  let expiryHeight := lastBlockHeight + c.config.expiryHeightGap
  let psbt ← PsbtWrapper.newZcash host c.config input output none expiryHeight lastBlockHeight
    none
  c.createActiveUtxoManagementPendingInfo host env accountId psbt

end Contract

end SatoshiBridge
