import SatoshiBridge.Model.Rbf

/-!
# Finalising withdrawals and active management

`verify_withdraw_v2` asks the light client for the inclusion of a signed transaction; the callback
moves it to the burn stage and asks the token to burn what left the bridge. The burn callback of a
successful burn registers the change outputs, removes the transaction and its original, and settles
the protocol fees.
-/

set_option autoImplicit false
set_option relaxedAutoImplicit false

namespace SatoshiBridge

/-- The root of a pending transaction: its original, or itself. -/
def BTCPendingInfo.root (info : BTCPendingInfo) (txId : Txid) : Txid :=
  info.getOriginalTxId.getD txId

namespace Contract

variable (host : Host) (env : Env) (c : Contract)

/-! ### Verifying inclusion -/

/-- The shared part of `internal_verify_withdraw_entry` and
`internal_verify_active_utxo_management_entry` after the assertion on the kind: an original has to
be there, the transaction has to be signed. -/
def assertVerifiable (info : BTCPendingInfo) : Option Unit := do
  require (∀ originalTxId ∈ info.getOriginalTxId, c.checkBtcPendingInfoExists originalTxId)
  require info.txBytesWithSign.isSome

/-- `internal_verify_withdraw_entry` with `internal_verify_withdraw`. -/
def internalVerifyWithdrawEntry (txId : Txid) : Option Receipt := do
  let info ← c.internalUnwrapBtcPendingInfo txId
  info.assertWithdrawRelatedPendingVerifyTx
  c.assertVerifiable info
  let confirmations ← c.config.getConfirmations info.actualReceivedAmount
  some {
    contract := c
    promises := [.verifyWithdraw txId (confirmations + c.relayerDelta env.predecessor)]
    marks := []
    returns := none }

/-- `internal_verify_active_utxo_management_entry` with `internal_verify_active_utxo_management`. -/
def internalVerifyActiveUtxoManagementEntry (txId : Txid) : Option Receipt := do
  let info ← c.internalUnwrapBtcPendingInfo txId
  info.assertActiveUtxoManagementRelatedPendingVerifyTx
  c.assertVerifiable info
  let confirmations ← c.config.getConfirmations info.actualReceivedAmount
  some {
    contract := c
    promises := [.verifyActiveUtxoManagement txId
      (confirmations + c.relayerDelta env.predecessor)]
    marks := []
    returns := none }

/-- `verify_withdraw_burn_promise`. -/
def verifyWithdrawBurnPromise (txId : Txid) : Option Promise := do
  let info ← c.internalUnwrapBtcPendingInfo txId
  let (protocolFee, relayerFee) ←
    c.config.withdrawBridgeFee.getProtocolAndRelayerFee info.withdrawFee
  some (.withdrawBurn c.config.nbtcAccountId info.accountId info.burnAmount env.signer relayerFee
    txId protocolFee)

/-- `verify_active_utxo_management_burn_promise`. -/
def verifyActiveUtxoManagementBurnPromise (txId : Txid) : Option Promise := do
  let info ← c.internalUnwrapBtcPendingInfo txId
  some (.activeUtxoManagementBurn c.config.nbtcAccountId info.accountId info.burnAmount env.signer
    txId)

/-- The light client's answer moves a transaction from the verify to the burn stage. The kind of
the transaction is not looked at again. -/
def moveToBurnStage (result : PromiseResult) (txId : Txid) :
    Option (Contract × BTCPendingInfo) := do
  let isValid ← result.expectBool
  require (isValid = true)
  let info ← c.internalUnwrapBtcPendingInfo txId
  info.assertPendingVerify
  let info ← info.toPendingBurnStage
  some (c.internalSetBtcPendingInfo txId info, info)

/-- `internal_verify_withdraw_callback`. -/
def internalVerifyWithdrawCallback (result : PromiseResult) (txId : Txid) : Option Receipt := do
  let (c, info) ← c.moveToBurnStage result txId
  let promise ← c.verifyWithdrawBurnPromise env txId
  some {
    contract := c
    promises := [promise]
    marks := [.attested txId (info.root txId)]
    returns := none }

/-- `verify_active_utxo_management_callback`. -/
def verifyActiveUtxoManagementCallback (result : PromiseResult) (txId : Txid) :
    Option Receipt := do
  let (c, info) ← c.moveToBurnStage result txId
  let promise ← c.verifyActiveUtxoManagementBurnPromise env txId
  some {
    contract := c
    promises := [promise]
    marks := [.attested txId (info.root txId)]
    returns := none }

/-! ### Burn callbacks -/

/-- The outputs of a confirmed transaction that pay the change script, as UTXOs. -/
def changeUtxos (changeScript : ScriptBuf) (txId : Txid) (outputs : List TxOut) :
    List (OutPoint × UTXO) :=
  outputs.zipIdx.filterMap fun (output, index) ↦
    if output.scriptPubkey = changeScript then
      some (generateUtxoStorageKey txId index,
        { path := host.currentAccountId, txBytes := [], vout := index, balance := output.value })
    else none

/-- The loop of the burn callbacks over the outputs of the confirmed transaction. -/
def registerChange (info : BTCPendingInfo) (txId : Txid) :
    Option (Contract × List (OutPoint × UTXO)) := do
  let transaction ← info.getTransaction
  let changeScript ← c.config.getChangeScriptPubkey host
  let utxos := changeUtxos host changeScript txId transaction.output
  some ({ c with utxos := FiniteMap.insertAll c.utxos utxos }, utxos)

/-- `btc_pending_verify_list.remove(..)` through `internal_unwrap_mut_account`. -/
def removeFromVerifyList (accountId : AccountId) (btcPendingId : Txid) : Option Contract :=
  c.internalUnwrapMutAccount accountId fun account ↦
    { account with btcPendingVerifyList := account.btcPendingVerifyList.erase btcPendingId }

/-- Releases a reservation: what was used is paid for gas, the rest is available again. -/
def releaseReserved (reserved used : ℕ) : Option Contract := do
  let curReserved ← checkedSub c.curReservedProtocolFee reserved
  let unused ← checkedSub reserved used
  some { c with
    curReservedProtocolFee := curReserved
    accProtocolFeeForGas := c.accProtocolFeeForGas + used
    curAvailableProtocolFee := c.curAvailableProtocolFee + unused }

/-- The protocol fee a confirmed member of a withdrawal family used beyond the user's amount: only
a cancellation uses any. -/
def usedReserved (info : BTCPendingInfo) : Option ℕ :=
  if info.state.isWithdrawCancelRbf then do
    let userBalance ← checkedSub info.transferAmount info.withdrawFee
    some (info.burnAmount - userBalance)
  else some 0

/-- The settlement of a withdrawal family when `info` is confirmed. -/
def settleWithdraw (info : BTCPendingInfo) (txId : Txid) : Option Contract :=
  match info.getOriginalTxId with
  | some originalTxId => do
    let c := { c with rbfTxs := c.rbfTxs.erase originalTxId }
    let c ← c.removeFromVerifyList info.accountId originalTxId
    let (c, original) ← c.internalRemoveBtcPendingInfo originalTxId
    let reserved ← original.getCancelRbfReserved
    if 0 < reserved.getD 0 then do
      let used ← usedReserved info
      c.releaseReserved (reserved.getD 0) used
    else some c
  | none => do
    let c ← c.removeFromVerifyList info.accountId txId
    let c := { c with rbfTxs := c.rbfTxs.erase txId }
    let reserved ← info.getCancelRbfReserved
    if 0 < reserved.getD 0 then c.releaseReserved (reserved.getD 0) 0 else some c

/-- The part of the user's amount that a confirmed cancellation gives back. -/
def cancelRefund (info : BTCPendingInfo) : ℕ :=
  if info.state.isWithdrawCancelRbf then
    info.transferAmount - (info.withdrawFee + info.burnAmount)
  else 0

/-- Adding up what a cancellation does not give back stays within a `u128`. -/
def assertCancelRefund (info : BTCPendingInfo) : Option Unit :=
  require (info.state.isWithdrawCancelRbf → info.withdrawFee + info.burnAmount < 2 ^ 128)

/-- The branch of the burn callbacks for a failed burn. -/
def burnFailed (info : BTCPendingInfo) (txId : Txid) : Receipt where
  contract := c.internalSetBtcPendingInfo txId info.toPendingVerifyStage
  promises := []
  marks := []
  returns := some (.bool false)

/-- `verify_withdraw_burn_callback`. -/
def verifyWithdrawBurnCallback (result : PromiseResult) (txId : Txid) (protocolFee : ℕ) :
    Option Receipt := do
  let info ← c.internalUnwrapBtcPendingInfo txId
  assertCancelRefund info
  let refund := cancelRefund info
  if result.isSuccess then
    let (c, utxos) ← c.registerChange host info txId
    let c ← c.settleWithdraw info txId
    let c ← (if 0 < protocolFee then c.collectProtocolFee protocolFee else some c)
    let promises := if 0 < refund then
        [Promise.transferNbtc c.config.nbtcAccountId info.accountId refund]
      else []
    let (c, _) ← c.internalRemoveBtcPendingInfo txId
    some {
      contract := c
      promises := promises
      marks := [.utxoAdded (utxos.map Prod.fst), .committed txId (info.root txId)]
      returns := some (.bool true) }
  else some (c.burnFailed info txId)

/-- The settlement of an active management family when `info` is confirmed. -/
def settleActiveUtxoManagement (info : BTCPendingInfo) (txId : Txid) : Option Contract :=
  match info.getOriginalTxId with
  | some originalTxId => do
    let c := { c with rbfTxs := c.rbfTxs.erase originalTxId }
    let c ← c.removeFromVerifyList info.accountId originalTxId
    let (c, original) ← c.internalRemoveBtcPendingInfo originalTxId
    let reserved ← original.getMaxGasFee
    c.releaseReserved reserved info.burnAmount
  | none => do
    let c ← c.removeFromVerifyList info.accountId txId
    let reserved ← info.getMaxGasFee
    let c ← c.releaseReserved reserved info.burnAmount
    some { c with rbfTxs := c.rbfTxs.erase txId }

/-- `verify_active_utxo_management_burn_callback`. -/
def verifyActiveUtxoManagementBurnCallback (result : PromiseResult) (txId : Txid) :
    Option Receipt := do
  let info ← c.internalUnwrapBtcPendingInfo txId
  if result.isSuccess then
    let (c, utxos) ← c.registerChange host info txId
    let c ← c.settleActiveUtxoManagement info txId
    let (c, _) ← c.internalRemoveBtcPendingInfo txId
    some {
      contract := c
      promises := []
      marks := [.utxoAdded (utxos.map Prod.fst), .committed txId (info.root txId)]
      returns := some (.bool true) }
  else some (c.burnFailed info txId)

/-! ### Transfers of the bridge's own tokens -/

/-- `withdraw_protocol_fee_callback`. -/
def withdrawProtocolFeeCallback (result : PromiseResult) (amount : ℕ) : Option Receipt :=
  if result.isSuccess then
    some { contract := c, promises := [], marks := [], returns := some (.bool true) }
  else do
    let accClaimed ← checkedSub c.accClaimedProtocolFee amount
    some {
      contract := { c with
        curAvailableProtocolFee := c.curAvailableProtocolFee + amount
        accClaimedProtocolFee := accClaimed }
      promises := []
      marks := []
      returns := some (.bool false) }

/-- `transfer_nbtc_callback`: a failed transfer is kept for the account to claim. -/
def transferNbtcCallback (result : PromiseResult) (accountId : AccountId) (amount : ℕ) :
    Option Receipt :=
  if result.isSuccess then
    some { contract := c, promises := [], marks := [], returns := some (.bool true) }
  else
    some {
      contract := { c with
        lostFound := c.lostFound.insert accountId ((c.lostFound.lookup accountId).getD 0 + amount) }
      promises := []
      marks := []
      returns := some (.bool false) }

/-- `claim_lost_found`. -/
def claimLostFound : Option Receipt := do
  env.assertNotPaused
  env.assertOneYocto
  let amount ← c.lostFound.lookup env.predecessor
  some {
    contract := { c with lostFound := c.lostFound.erase env.predecessor }
    promises := [.transferNbtc c.config.nbtcAccountId env.predecessor amount]
    marks := []
    returns := none }

/-- `withdraw_protocol_fee`. -/
def withdrawProtocolFee (amount : Option ℕ) : Option Receipt := do
  require (c.aclHasRole .dao env.predecessor)
  env.assertOneYocto
  let totalProtocolFee := c.curAvailableProtocolFee
  let amount := amount.getD totalProtocolFee
  require (0 < amount ∧ amount ≤ totalProtocolFee)
  some {
    contract := { c with
      curAvailableProtocolFee := totalProtocolFee - amount
      accClaimedProtocolFee := c.accClaimedProtocolFee + amount }
    promises := [.withdrawProtocolFee c.config.nbtcAccountId env.predecessor amount]
    marks := []
    returns := none }

end Contract

end SatoshiBridge
