import Mathlib.Data.Finset.Card
import SatoshiBridge.Model.BlockAmountRing
import SatoshiBridge.Model.CompactTxid
import SatoshiBridge.Model.PendingInfo

/-!
# The contract and what a receipt does to it

`Contract` is the state of the bridge. Executing a method yields a `Receipt`: the new state, the
promises it schedules and the marks it leaves in the history of the run. A `Promise` is a scheduled
cross-contract call together with the callback that will receive its result. A `Mark` records what
happened to an outpoint or a pending transaction; no method reads it, claims about what ever
happened do.
-/

set_option autoImplicit false
set_option relaxedAutoImplicit false

namespace SatoshiBridge

structure Account where
  accountId : AccountId
  btcPendingSignIds : Finset Txid
  btcPendingVerifyList : Finset Txid
deriving DecidableEq

/-- `Account::new`. -/
def Account.new (accountId : AccountId) : Account := ⟨accountId, ∅, ∅⟩

/-- `pending_sign_count`. -/
def Account.pendingSignCount (account : Account) : ℕ := account.btcPendingSignIds.card

structure RefundRequest where
  depositMsgJson : String
  utxoStorageKey : OutPoint
  txBytes : List UInt8
  vout : ℕ
  amount : ℕ
  refundAddress : String
  gasFee : ℕ
  createdAtSec : ℕ
  executed : Bool
deriving DecidableEq

/-- `RefundRequest::deposit_msg`. -/
def RefundRequest.depositMsg (host : Host) (request : RefundRequest) : Option DepositMsg :=
  host.depositMsgFromJson request.depositMsgJson

structure PendingUTXOInfo where
  txId : Txid
  utxoStorageKey : OutPoint
  utxo : UTXO
deriving DecidableEq

/-- `ContractData` and the roles of the access control plugin. A UTXO in progress is a
`UTXOStatus::DepositInProgress`, the only status there is. -/
structure Contract where
  roles : Finset (Role × AccountId)
  config : Config
  accounts : FiniteMap AccountId Account
  utxos : FiniteMap OutPoint UTXO
  utxosInProgress : FiniteMap OutPoint UTXO
  unavailableUtxos : FiniteMap OutPoint UTXO
  verifiedDepositUtxo : Finset OutPoint
  btcPendingInfos : FiniteMap Txid BTCPendingInfo
  rbfTxs : FiniteMap Txid (Finset Txid)
  relayerWhiteList : Finset AccountId
  extraMsgRelayerWhiteList : Finset AccountId
  postActionReceiverIdWhiteList : Finset AccountId
  postActionMsgTemplates : FiniteMap AccountId (Finset String)
  pendingTxLimits : FiniteMap AccountId ℕ
  lostFound : FiniteMap AccountId ℕ
  accCollectedProtocolFee : ℕ
  curAvailableProtocolFee : ℕ
  accClaimedProtocolFee : ℕ
  curReservedProtocolFee : ℕ
  accProtocolFeeForGas : ℕ
  refundRequests : FiniteMap OutPoint RefundRequest
  blockBridgeAmounts : BlockAmountRing

/-! ### Promises -/

/-- The four RBF methods of the Zcash build that ask for the block height first. -/
inductive RbfMethod
  | withdrawRbf | cancelWithdraw | activeUtxoManagementRbf | cancelActiveUtxoManagement
deriving DecidableEq

/-- What `execute_refund` resolved when it was called. The caller's privilege and the configured
timelocks are kept beside the resolved timelock for the statements about them. -/
structure ExecuteRefundCall where
  caller : AccountId
  utxoStorageKey : OutPoint
  timelockSec : ℕ
  isPrivileged : Bool
  refundTimelockSec : ℕ
  unsafeRefundTimelockSec : ℕ
deriving DecidableEq

/-- A scheduled call and the callback that awaits it, with the arguments of both. Calls to the
token name the account they go to. -/
inductive Promise
  | verifyDeposit (recipientId : AccountId) (mintAmount protocolFee relayerFee : ℕ)
      (pendingUtxoInfo : PendingUTXOInfo) (postActions : Option (List PostAction))
      (confirmationsDelta : ℕ)
  | verifySafeDeposit (recipientId : AccountId) (mintAmount : ℕ) (msg : String)
      (pendingUtxoInfo : PendingUTXOInfo) (confirmationsDelta : ℕ)
  | mint (token recipientId : AccountId) (mintAmount protocolFee : ℕ)
      (relayerAccountId : AccountId) (relayerFee : ℕ) (postActions : Option (List PostAction))
      (pendingUtxoInfo : PendingUTXOInfo) (bumpedBlockHeight : Option ℕ)
  | safeMint (token recipientId : AccountId) (mintAmount : ℕ) (msg : Option String)
      (pendingUtxoInfo : PendingUTXOInfo) (bumpedBlockHeight : Option ℕ)
  | burnDetached (token burnAccountId : AccountId) (burnAmount : ℕ) (relayerAccountId : AccountId)
      (relayerFee : ℕ)
  | verifyWithdraw (txId : Txid) (confirmations : ℕ)
  | verifyActiveUtxoManagement (txId : Txid) (confirmations : ℕ)
  | withdrawBurn (token burnAccountId : AccountId) (burnAmount : ℕ)
      (relayerAccountId : AccountId) (relayerFee : ℕ) (txId : Txid) (protocolFee : ℕ)
  | activeUtxoManagementBurn (token burnAccountId : AccountId) (burnAmount : ℕ)
      (relayerAccountId : AccountId) (txId : Txid)
  | verifyRefundFinalize (txId : Txid) (confirmations : ℕ)
  | requestRefund (depositMsg : DepositMsg) (refundAddress : String) (txId : Txid)
      (depositOutput : TxOut) (vout : ℕ) (gasFee : Option ℕ)
  | transferNbtc (token accountId : AccountId) (amount : ℕ)
  | withdrawProtocolFee (token receiverId : AccountId) (amount : ℕ)
  | sign (accountId : AccountId) (btcPendingSignId : Txid) (signIndex : ℕ)
      (payload : List UInt8) (path : Path) (keyVersion : ℕ)
  | syncRootPublicKey
  | ftOnTransfer (senderId : AccountId) (amount : ℕ) (targetBtcAddress : String)
      (input : List OutPoint) (output : List TxOut) (maxGasFee : Option ℕ)
      (chainSpecificData : Option ChainSpecificData)
  | rbf (method : RbfMethod) (accountId : AccountId) (originalBtcPendingVerifyId : Txid)
      (output : List TxOut) (chainSpecificData : Option ChainSpecificData)
      (predecessorAccountId : AccountId)
  | activeUtxoManagement (accountId : AccountId) (input : List OutPoint) (output : List TxOut)
  | executeRefund (call : ExecuteRefundCall) (chainSpecificData : Option ChainSpecificData)
deriving DecidableEq

/-! ### The history -/

/-- What happened, in the order it happened. The root of a transaction is its original, itself for
an original. -/
inductive Mark
  | depositStarted (utxoStorageKey : OutPoint)
  | depositFinalised (utxoStorageKey : OutPoint)
  | depositReverted (utxoStorageKey : OutPoint)
  | mintCallbackLost (utxoStorageKey : OutPoint) (minted : Bool)
  | depositCompleted (utxoStorageKey : OutPoint)
  | utxoAdded (utxoStorageKeys : List OutPoint)
  | utxoRemoved (utxoStorageKeys : List OutPoint) (btcPendingId : Txid)
  | created (info : BTCPendingInfo) (payee : Option String)
  | attested (txId root : Txid)
  | committed (txId root : Txid)
  | refundRequested (request : RefundRequest)
  | refundCreated (call : ExecuteRefundCall) (request : RefundRequest) (info : BTCPendingInfo)
      (nowSec : ℕ)
  | refundFinalised (txId : Txid) (utxoStorageKey : OutPoint)
deriving DecidableEq

/-- The effect of one receipt. `returns` is the value a method answers with, `none` when it
answers with the result of a promise. -/
structure Receipt where
  contract : Contract
  promises : List Promise
  marks : List Mark
  returns : Option ReturnValue

namespace Contract

variable (host : Host) (env : Env) (c : Contract)

/-- `acl_has_role`. -/
def aclHasRole (role : Role) (account : AccountId) : Bool := (role, account) ∈ c.roles

/-! ### Accounts -/

/-- `get_max_pending_sign_txs`. -/
def getMaxPendingSignTxs (accountId : AccountId) : ℕ :=
  (c.pendingTxLimits.lookup accountId).getD 1

/-- `require_pending_sign_capacity`. -/
def requirePendingSignCapacity (accountId : AccountId) : Option Unit := do
  let account ← c.accounts.lookup accountId
  require (account.pendingSignCount < c.getMaxPendingSignTxs accountId)

/-- `check_account_exists`. -/
def checkAccountExists (accountId : AccountId) : Bool := (c.accounts.lookup accountId).isSome

/-- `internal_set_account`. -/
def internalSetAccount (accountId : AccountId) (account : Account) : Contract :=
  { c with accounts := c.accounts.insert accountId account }

/-- `internal_unwrap_or_create_mut_account`: a missing account is created empty. -/
def internalUnwrapOrCreateAccount (accountId : AccountId) : Contract :=
  if c.checkAccountExists accountId then c
  else c.internalSetAccount accountId (Account.new accountId)

/-- `internal_unwrap_mut_account`, with the update made through the reference. -/
def internalUnwrapMutAccount (accountId : AccountId) (update : Account → Account) :
    Option Contract := do
  let account ← c.accounts.lookup accountId
  some (c.internalSetAccount accountId (update account))

/-! ### UTXOs -/

/-- `internal_set_utxo`. -/
def internalSetUtxo (utxoStorageKey : OutPoint) (utxo : UTXO) : Contract :=
  { c with utxos := c.utxos.insert utxoStorageKey utxo }

/-- `internal_set_utxo_in_progress`. -/
def internalSetUtxoInProgress (utxoStorageKey : OutPoint) (utxo : UTXO) : Contract :=
  { c with utxosInProgress := c.utxosInProgress.insert utxoStorageKey utxo }

/-- `internal_remove_utxo_in_progress`. -/
def internalRemoveUtxoInProgress (utxoStorageKey : OutPoint) : Contract :=
  { c with utxosInProgress := c.utxosInProgress.erase utxoStorageKey }

/-- `remove_vutxo_by_psbt`. -/
def removeVutxoByPsbt (psbt : PsbtWrapper) : Option (Contract × List UTXO) := do
  let (utxos, vutxos) ← FiniteMap.takeAll c.utxos psbt.getUtxoStorageKeys
  some ({ c with utxos := utxos }, vutxos)

/-- The script of `generate_utxo_chain_address`. -/
def generateUtxoChainScript (path : Path) : Option ScriptBuf := do
  let rootPublicKey ← c.config.chainSignaturesRootPublicKey
  some (host.chainScript c.config.chain rootPublicKey path)

/-- `generate_vutxos`: the coins of the inputs are taken out of `utxos` and written into the
psbt. -/
def generateVutxos (psbt : PsbtWrapper) : Option (Contract × PsbtWrapper × List UTXO) := do
  let (c, vutxos) ← c.removeVutxoByPsbt psbt
  let inputUtxo ← vutxos.mapM fun v ↦ do
    let script ← c.generateUtxoChainScript host v.path
    some ⟨v.balance, script⟩
  let psbt ← psbt.setInputUtxo host inputUtxo
  some (c, psbt, vutxos)

/-! ### Pending transactions -/

/-- `check_btc_pending_info_exists`. -/
def checkBtcPendingInfoExists (btcPendingId : Txid) : Bool :=
  (c.btcPendingInfos.lookup btcPendingId).isSome

/-- `internal_unwrap_btc_pending_info`. -/
def internalUnwrapBtcPendingInfo (btcPendingId : Txid) : Option BTCPendingInfo :=
  c.btcPendingInfos.lookup btcPendingId

/-- Writes a record through `internal_unwrap_mut_btc_pending_info`. -/
def internalSetBtcPendingInfo (btcPendingId : Txid) (info : BTCPendingInfo) : Contract :=
  { c with btcPendingInfos := c.btcPendingInfos.insert btcPendingId info }

/-- `btc_pending_infos.insert(..).is_none()`. -/
def insertNewBtcPendingInfo (btcPendingId : Txid) (info : BTCPendingInfo) : Option Contract := do
  require (¬c.checkBtcPendingInfoExists btcPendingId)
  some (c.internalSetBtcPendingInfo btcPendingId info)

/-- `internal_remove_btc_pending_info`. -/
def internalRemoveBtcPendingInfo (btcPendingId : Txid) : Option (Contract × BTCPendingInfo) := do
  let info ← c.btcPendingInfos.lookup btcPendingId
  some ({ c with btcPendingInfos := c.btcPendingInfos.erase btcPendingId }, info)

/-! ### Confirmations -/

/-- `relayer_delta`. -/
def relayerDelta (relayerAccountId : AccountId) : ℕ :=
  if relayerAccountId ∈ c.relayerWhiteList then 0 else c.config.confirmationsDelta

/-- `extra_msg_relayer_delta`. -/
def extraMsgRelayerDelta (relayerAccountId : AccountId) : ℕ :=
  if relayerAccountId ∈ c.extraMsgRelayerWhiteList then 0
  else c.config.extraMsgConfirmationsDelta

/-- `bump_and_check_confirmations`. -/
def bumpAndCheckConfirmations (blockHeight tipHeight amount delta : ℕ) : Option Contract := do
  let (ring, bumped) := c.blockBridgeAmounts.bump blockHeight amount
  let cumulative := bumped.getD u128Max
  let tier ← c.config.getConfirmations cumulative
  require (tier + delta ≤ tipHeight - blockHeight + 1)
  some { c with blockBridgeAmounts := ring }

/-- `unbump_block_amount`. -/
def unbumpBlockAmount (blockHeight : Option ℕ) (amount : ℕ) : Contract :=
  match blockHeight with
  | some blockHeight =>
    { c with blockBridgeAmounts := c.blockBridgeAmounts.unbump blockHeight amount }
  | none => c

/-- `confirmations_delta_for`. -/
def confirmationsDeltaFor (relayerAccountId : Option AccountId) (hasExtraMsg : Bool) : ℕ :=
  match relayerAccountId, hasExtraMsg with
  | some relayerAccountId, true => c.extraMsgRelayerDelta relayerAccountId
  | some relayerAccountId, false => c.relayerDelta relayerAccountId
  | none, true => c.config.extraMsgConfirmationsDelta
  | none, false => c.config.confirmationsDelta

/-- `required_confirmations`. -/
def requiredConfirmations (blockHeight amount : ℕ) : Option ℕ :=
  c.config.getConfirmations ((c.blockBridgeAmounts.peek blockHeight amount).getD u128Max)

/-- The view `get_required_confirmations`. -/
def getRequiredConfirmations (blockHeight amount : ℕ) (relayerAccountId : Option AccountId)
    (hasExtraMsg : Option Bool) : Option ℕ := do
  let required ← c.requiredConfirmations blockHeight amount
  some (required + c.confirmationsDeltaFor relayerAccountId (hasExtraMsg.getD false))

/-- `resize_block_amount_ring`. -/
def resizeBlockAmountRing : Option Contract := do
  let ring ← c.blockBridgeAmounts.resize (BlockAmountRing.capacityFor c.config)
  some { c with blockBridgeAmounts := ring }

/-! ### The constructor -/

/-- `Contract::new`. -/
def new (env : Env) (config : Config) : Option Contract := do
  config.assertValid
  require (config.chainSignaturesRootPublicKey = none)
  require (config.changeAddress = none)
  let ring ← BlockAmountRing.new (BlockAmountRing.capacityFor config)
  let owner := env.predecessor
  some {
    roles := {(.dao, owner), (.pauseManager, owner), (.unpauseManager, owner)}
    config := config
    accounts := AList.singleton owner (Account.new owner)
    utxos := ∅
    utxosInProgress := ∅
    unavailableUtxos := ∅
    verifiedDepositUtxo := ∅
    btcPendingInfos := ∅
    rbfTxs := ∅
    relayerWhiteList := ∅
    extraMsgRelayerWhiteList := ∅
    postActionReceiverIdWhiteList := ∅
    postActionMsgTemplates := ∅
    pendingTxLimits := ∅
    lostFound := ∅
    accCollectedProtocolFee := 0
    curAvailableProtocolFee := 0
    accClaimedProtocolFee := 0
    curReservedProtocolFee := 0
    accProtocolFeeForGas := 0
    refundRequests := ∅
    blockBridgeAmounts := ring }

/-- The caller of the constructor becomes its DAO, over a configuration that is valid. -/
theorem new_config {env : Env} {config : Config} {c : Contract} (h : new env config = some c) :
    c.config = config ∧ config.assertValid = some () ∧
      c.aclHasRole .dao env.predecessor = true := by
  simp only [new, Option.bind_eq_bind, Option.bind_eq_some_iff, require_eq_some,
    exists_const, Option.some.injEq] at h
  obtain ⟨_, hvalid, _, _, ring, _, rfl⟩ := h
  exact ⟨rfl, hvalid, decide_eq_true (Finset.mem_insert_self _ _)⟩

end Contract

end SatoshiBridge
