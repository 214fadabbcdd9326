import SatoshiBridge.Model.Withdraw

/-!
# Replacing pending transactions

A pending original can be replaced by its owner with a higher fee, or cancelled by the operators
after a while, again with a higher fee. A replacement spends the inputs of its original; the fee it
adds is reserved from the protocol fees where the user does not pay it.
-/

set_option autoImplicit false
set_option relaxedAutoImplicit false

namespace SatoshiBridge

/-- `WITHDRAW_RBF_BASE_STORAGE_BYTES`. -/
def withdrawRbfBaseStorageBytes (host : Host) : ℕ := if host.zcash then 15000 else 1000

/-- `WITHDRAW_RBF_STORAGE_BYTES_PER_INPUT`. -/
def withdrawRbfStorageBytesPerInput : ℕ := 300

/-- `WITHDRAW_RBF_STORAGE_BYTES_PER_OUTPUT`. -/
def withdrawRbfStorageBytesPerOutput : ℕ := 100

namespace Contract

variable (host : Host) (env : Env) (c : Contract)

/-- `required_balance_for_withdraw_rbf`; the multiplication saturates. -/
def requiredBalanceForWithdrawRbf : ℕ :=
  let maxStorageBytes := withdrawRbfBaseStorageBytes host
    + withdrawRbfStorageBytesPerInput * c.config.maxWithdrawalInputNumber
    + withdrawRbfStorageBytesPerOutput * (c.config.maxChangeNumber + 1)
  min (host.storageByteCost * maxStorageBytes) u128Max

/-- `check_withdraw_chain_specific`: on Bitcoin a replacement has to pay more gas than any earlier
member of the family. -/
def checkWithdrawChainSpecific (original : BTCPendingInfo) (gasFee : ℕ) : Option Unit :=
  if host.zcash then some ()
  else do
    let maxGasFee ← original.getMaxGasFee
    require (0 < gasFee - maxGasFee)

/-- `set_rbf_pending_info`: the replacement is stored and entered in the family of its original. -/
def setRbfPendingInfo (originalBtcPendingVerifyId : Txid) (info : Txid → BTCPendingInfo)
    (psbt : PsbtWrapper) (isCancel : Bool) : Option (Contract × BTCPendingInfo) := do
  let btcPendingId ← psbt.getPendingId host
  let info := info btcPendingId
  let c ← c.insertNewBtcPendingInfo btcPendingId info
  let rbfTxs := (c.rbfTxs.lookup originalBtcPendingVerifyId).getD ∅
  require (btcPendingId ∉ rbfTxs)
  let rbfTxs := insert btcPendingId rbfTxs
  require (isCancel = false → rbfTxs.card ≤ c.config.rbfNumLimit)
  some ({ c with rbfTxs := c.rbfTxs.insert originalBtcPendingVerifyId rbfTxs }, info)

/-! ### User RBF -/

/-- `extract_recipient_address`: the recorded recipient, or the address of the first output that
is not change. -/
def extractRecipientAddress (original : BTCPendingInfo) : Option String :=
  match original.psbt.getRecipientAddress with
  | some recipient => some recipient
  | none => do
    let changeScript ← c.config.getChangeScriptPubkey host
    let originalTx ← original.getTransaction
    let output ← originalTx.output.find? fun o ↦ o.scriptPubkey ≠ changeScript
    host.addressOfScript c.config.chain output.scriptPubkey

/-- `check_withdraw_rbf_psbt_valid`. The recipient is returned beside the amounts. -/
def checkWithdrawRbfPsbtValid (original : BTCPendingInfo) (psbt : PsbtWrapper) :
    Option (String × ℕ × ℕ) := do
  let changeScript ← c.config.getChangeScriptPubkey host
  let originalTx ← original.getTransaction
  require (originalTx.output.length = psbt.getOutputNum)
  let targetAddress ← c.extractRecipientAddress host original
  let (_, _, actualReceivedAmount, gasFee) ←
    c.checkWithdrawPsbt host env psbt targetAddress changeScript original.vutxos
      original.transferAmount original.withdrawFee
  some (targetAddress, actualReceivedAmount, gasFee)

/-- `internal_withdraw_rbf`. -/
def internalWithdrawRbf (accountId : AccountId) (originalBtcPendingVerifyId : Txid)
    (psbt : PsbtWrapper) : Option (Contract × BTCPendingInfo × Option String) := do
  let original ← c.internalUnwrapBtcPendingInfo originalBtcPendingVerifyId
  require (original.accountId = accountId)
  original.assertNotCanceled
  original.assertWithdrawOriginalPendingVerifyTx
  let nowSec ← env.nowSec
  let (target, actualReceivedAmount, gasFee) ←
    c.checkWithdrawRbfPsbtValid host env original psbt
  checkWithdrawChainSpecific host original gasFee
  let original' ← original.updateMaxGasFee gasFee nowSec
  let c := c.internalSetBtcPendingInfo originalBtcPendingVerifyId original'
  let info := fun btcPendingId ↦
    { initRbfBtcPendingInfo original
        (.withdrawUserRbf ⟨.pendingSign, originalBtcPendingVerifyId⟩) nowSec btcPendingId psbt with
      gasFee := gasFee
      actualReceivedAmount := actualReceivedAmount
      burnAmount := actualReceivedAmount + gasFee }
  let (c, info) ← c.setRbfPendingInfo host originalBtcPendingVerifyId info psbt false
  some (c, info, some target)

/-! ### Cancelling a withdrawal -/

/-- `check_cancel_withdraw_rbf_psbt_valid`. -/
def checkCancelWithdrawRbfPsbtValid (original : BTCPendingInfo) (psbt : PsbtWrapper) :
    Option (ℕ × ℕ) :=
  c.checkPsbtOutputAllChangeAddress host psbt original.vutxos false true

/-- Moves protocol fees from available to reserved. -/
def reserveProtocolFee (amount : ℕ) : Option Contract := do
  let curAvailable ← checkedSub c.curAvailableProtocolFee amount
  some { c with
    curAvailableProtocolFee := curAvailable
    curReservedProtocolFee := c.curReservedProtocolFee + amount }

/-- `internal_cancel_withdraw`. Gas beyond what the user's amount covers is reserved from the
protocol fees, by a DAO account only. -/
def internalCancelWithdraw (originalBtcPendingVerifyId : Txid) (psbt : PsbtWrapper)
    (predecessorAccountId : AccountId) :
    Option (Contract × BTCPendingInfo × Option String) := do
  let original ← c.internalUnwrapBtcPendingInfo originalBtcPendingVerifyId
  let nowSec ← env.nowSec
  let age ← checkedSub nowSec original.createTimeSec
  require (c.config.maxBtcTxPendingSec < age)
  original.assertWithdrawOriginalPendingVerifyTx
  let prevReserved ← original.getCancelRbfReserved
  let prevCancelRbfReserved := prevReserved.getD 0
  let (actualReceivedAmount, gasFee) ←
    c.checkCancelWithdrawRbfPsbtValid host original psbt
  checkWithdrawChainSpecific host original gasFee
  let userBalance ← checkedSub original.transferAmount original.withdrawFee
  let excessGasFee := gasFee - userBalance
  require (0 < excessGasFee → c.aclHasRole .dao predecessorAccountId)
  let additionalReserved := excessGasFee - prevCancelRbfReserved
  let c ← if 0 < additionalReserved then c.reserveProtocolFee additionalReserved else some c
  let original' ←
    original.doCancel gasFee (max prevCancelRbfReserved excessGasFee) nowSec
  let c := c.internalSetBtcPendingInfo originalBtcPendingVerifyId original'
  let info := fun btcPendingId ↦
    { initRbfBtcPendingInfo original
        (.withdrawCancelRbf ⟨.pendingSign, originalBtcPendingVerifyId⟩) nowSec btcPendingId
        psbt with
      gasFee := gasFee
      burnAmount := gasFee
      actualReceivedAmount := actualReceivedAmount }
  let (c, info) ← c.setRbfPendingInfo host originalBtcPendingVerifyId info psbt true
  some (c, info, none)

/-! ### Replacing and cancelling active management -/

/-- `check_active_utxo_management_rbf_psbt_valid`. -/
def checkActiveUtxoManagementRbfPsbtValid (original : BTCPendingInfo) (psbt : PsbtWrapper) :
    Option (ℕ × ℕ) := do
  let originalTx ← original.getTransaction
  require (originalTx.output.length = psbt.getOutputNum)
  c.checkPsbtOutputAllChangeAddress host psbt original.vutxos true false

/-- `internal_active_utxo_management_rbf`. -/
def internalActiveUtxoManagementRbf (accountId : AccountId) (originalBtcPendingVerifyId : Txid)
    (psbt : PsbtWrapper) : Option (Contract × BTCPendingInfo × Option String) := do
  let original ← c.internalUnwrapBtcPendingInfo originalBtcPendingVerifyId
  require (original.accountId = accountId)
  original.assertNotCanceled
  original.assertActiveUtxoManagementOriginalPendingVerifyTx
  let nowSec ← env.nowSec
  let (actualReceivedAmount, gasFee) ←
    c.checkActiveUtxoManagementRbfPsbtValid host original psbt
  let maxGasFee ← original.getMaxGasFee
  let additionalGasAmount := gasFee - maxGasFee
  require (0 < additionalGasAmount)
  let c ← c.reserveProtocolFee additionalGasAmount
  let original' ← original.updateMaxGasFee gasFee nowSec
  let c := c.internalSetBtcPendingInfo originalBtcPendingVerifyId original'
  let info := fun btcPendingId ↦
    { initRbfBtcPendingInfo original
        (.activeUtxoManagementRbf ⟨.pendingSign, originalBtcPendingVerifyId⟩) nowSec btcPendingId
        psbt with
      gasFee := gasFee
      burnAmount := gasFee
      actualReceivedAmount := actualReceivedAmount }
  let (c, info) ← c.setRbfPendingInfo host originalBtcPendingVerifyId info psbt false
  some (c, info, none)

/-- `check_cancel_active_utxo_management_rbf_psbt_valid`. -/
def checkCancelActiveUtxoManagementRbfPsbtValid (original : BTCPendingInfo)
    (psbt : PsbtWrapper) : Option (ℕ × ℕ) :=
  c.checkPsbtOutputAllChangeAddress host psbt original.vutxos true true

/-- `internal_cancel_active_utxo_management`. -/
def internalCancelActiveUtxoManagement (originalBtcPendingVerifyId : Txid)
    (psbt : PsbtWrapper) : Option (Contract × BTCPendingInfo × Option String) := do
  let original ← c.internalUnwrapBtcPendingInfo originalBtcPendingVerifyId
  let nowSec ← env.nowSec
  let age ← checkedSub nowSec original.createTimeSec
  require (c.config.maxBtcTxPendingSec < age)
  original.assertActiveUtxoManagementOriginalPendingVerifyTx
  let (actualReceivedAmount, gasFee) ←
    c.checkCancelActiveUtxoManagementRbfPsbtValid host original psbt
  let maxGasFee ← original.getMaxGasFee
  let additionalGasAmount := gasFee - maxGasFee
  require (0 < additionalGasAmount)
  let c ← c.reserveProtocolFee additionalGasAmount
  let original' ← original.doCancel gasFee 0 nowSec
  let c := c.internalSetBtcPendingInfo originalBtcPendingVerifyId original'
  let info := fun btcPendingId ↦
    { initRbfBtcPendingInfo original
        (.activeUtxoManagementCancelRbf ⟨.pendingSign, originalBtcPendingVerifyId⟩) nowSec
        btcPendingId psbt with
      gasFee := gasFee
      burnAmount := gasFee
      actualReceivedAmount := actualReceivedAmount }
  let (c, info) ← c.setRbfPendingInfo host originalBtcPendingVerifyId info psbt true
  some (c, info, none)

/-! ### The chain specific methods -/

/-- The internal function of each RBF method. -/
def internalRbf (method : RbfMethod) (accountId : AccountId) (originalBtcPendingVerifyId : Txid)
    (psbt : PsbtWrapper) (predecessorAccountId : AccountId) :
    Option (Contract × BTCPendingInfo × Option String) :=
  match method with
  | .withdrawRbf => c.internalWithdrawRbf host env accountId originalBtcPendingVerifyId psbt
  | .cancelWithdraw =>
    c.internalCancelWithdraw host env originalBtcPendingVerifyId psbt predecessorAccountId
  | .activeUtxoManagementRbf =>
    c.internalActiveUtxoManagementRbf host env accountId originalBtcPendingVerifyId psbt
  | .cancelActiveUtxoManagement =>
    c.internalCancelActiveUtxoManagement host env originalBtcPendingVerifyId psbt

/-- The common end of the RBF methods of both builds: the replacement is created and waits for
the signatures of the account. -/
def finishRbf (method : RbfMethod) (accountId : AccountId) (originalBtcPendingVerifyId : Txid)
    (psbt : PsbtWrapper) (predecessorAccountId : AccountId) : Option Receipt := do
  let (c, info, payee) ←
    c.internalRbf host env method accountId originalBtcPendingVerifyId psbt predecessorAccountId
  let c ← c.addPendingSignId accountId info.btcPendingId
  some {
    contract := c
    promises := []
    marks := [.created info payee]
    returns := some .unit }

/-- `define_rbf_method!` of the Bitcoin build, and of the Zcash build, which asks for the block
height first. -/
def rbfChainSpecific (method : RbfMethod) (accountId : AccountId)
    (originalBtcPendingVerifyId : Txid) (output : List TxOut)
    (chainSpecificData : Option ChainSpecificData) : Option Receipt :=
  if host.zcash then
    some {
      contract := c
      promises := [.rbf method accountId originalBtcPendingVerifyId output chainSpecificData
        env.predecessor]
      marks := []
      returns := some .unit }
  else do
    let original ← c.internalUnwrapBtcPendingInfo originalBtcPendingVerifyId
    let psbt := PsbtWrapper.fromOriginalPsbtBitcoin original.psbt output
    c.finishRbf host env method accountId originalBtcPendingVerifyId psbt env.predecessor

/-- `define_rbf_callback!` of the Zcash build. -/
def rbfCallback (result : PromiseResult) (method : RbfMethod) (accountId : AccountId)
    (originalBtcPendingVerifyId : Txid) (output : List TxOut)
    (chainSpecificData : Option ChainSpecificData) (predecessorAccountId : AccountId) :
    Option Receipt := do
  let lastBlockHeight ← result.expectHeight
  c.requirePendingSignCapacity accountId
  let expiryHeight ← c.getExpiryHeight chainSpecificData lastBlockHeight
  let orchardBundleBytes := chainSpecificData.map ChainSpecificData.orchardBundleBytes
  let original ← c.internalUnwrapBtcPendingInfo originalBtcPendingVerifyId
  let psbt ← PsbtWrapper.fromOriginalPsbtZcash host c.config original.psbt output
    orchardBundleBytes expiryHeight lastBlockHeight
  c.finishRbf host env method accountId originalBtcPendingVerifyId psbt predecessorAccountId

/-! ### Entry points -/

/-- `access_control_any(roles(Role::DAO, Role::Operator))`. -/
def assertDaoOrOperator : Option Unit :=
  require (c.aclHasRole .dao env.predecessor ∨ c.aclHasRole .operator env.predecessor)

/-- `withdraw_rbf`. -/
def withdrawRbf (originalBtcPendingVerifyId : Txid) (output : List TxOut)
    (chainSpecificData : Option ChainSpecificData) : Option Receipt := do
  env.assertNotPaused
  c.requirePendingSignCapacity env.predecessor
  chargeAttachedDeposit env (c.requiredBalanceForWithdrawRbf host)
  c.rbfChainSpecific host env .withdrawRbf env.predecessor originalBtcPendingVerifyId output
    chainSpecificData

/-- `cancel_withdraw`. -/
def cancelWithdraw (originalBtcPendingVerifyId : Txid) (output : List TxOut) :
    Option Receipt := do
  c.assertDaoOrOperator env
  env.assertNotPaused
  env.assertOneYocto
  let original ← c.internalUnwrapBtcPendingInfo originalBtcPendingVerifyId
  c.requirePendingSignCapacity original.accountId
  c.rbfChainSpecific host env .cancelWithdraw original.accountId originalBtcPendingVerifyId
    output none

/-- `active_utxo_management_rbf`. -/
def activeUtxoManagementRbf (originalBtcPendingVerifyId : Txid) (output : List TxOut) :
    Option Receipt := do
  c.assertDaoOrOperator env
  env.assertNotPaused
  env.assertOneYocto
  c.requirePendingSignCapacity env.predecessor
  c.rbfChainSpecific host env .activeUtxoManagementRbf env.predecessor
    originalBtcPendingVerifyId output none

/-- `cancel_active_utxo_management`. -/
def cancelActiveUtxoManagement (originalBtcPendingVerifyId : Txid) (output : List TxOut) :
    Option Receipt := do
  c.assertDaoOrOperator env
  env.assertNotPaused
  env.assertOneYocto
  let original ← c.internalUnwrapBtcPendingInfo originalBtcPendingVerifyId
  c.requirePendingSignCapacity original.accountId
  c.rbfChainSpecific host env .cancelActiveUtxoManagement original.accountId
    originalBtcPendingVerifyId output none

/-! ### Clearing replacements of finished families -/

/-- `internal_clear_invalid_pending_verify_rbf`. -/
def internalClearInvalidPendingVerifyRbf (btcPendingId : Txid) : Option Contract := do
  let (c, info) ← c.internalRemoveBtcPendingInfo btcPendingId
  let originalTxId ← info.getOriginalTxId
  require ((c.rbfTxs.lookup originalTxId).isNone)
  let account ← c.accounts.lookup info.accountId
  if btcPendingId ∈ account.btcPendingSignIds then
    info.assertPendingSign
  else
    info.assertPendingVerify
  c.internalUnwrapMutAccount info.accountId fun account ↦
    { account with btcPendingSignIds := account.btcPendingSignIds.erase btcPendingId }

/-- `batch_clear_invalid_pending_verify_rbf`. -/
def batchClearInvalidPendingVerifyRbf (btcPendingVerifyIds : List Txid) : Option Receipt := do
  env.assertNotPaused
  let c ← btcPendingVerifyIds.foldlM internalClearInvalidPendingVerifyRbf c
  some { contract := c, promises := [], marks := [], returns := some .unit }

/-- `clear_invalid_pending_verify_rbf`. -/
def clearInvalidPendingVerifyRbf (btcPendingVerifyId : Txid) : Option Receipt := do
  env.assertNotPaused
  let c ← c.internalClearInvalidPendingVerifyRbf btcPendingVerifyId
  some { contract := c, promises := [], marks := [], returns := some .unit }

end Contract

end SatoshiBridge
