import SatoshiBridge.Library.Transition
import SatoshiBridge.Model.Management

/-!
# The bridge as a transition system

A state of the system is the contract, the promises in flight and the history. An action is a call
of a public method, the delivery of a result to the callback of any promise in flight, or the loss
of a callback that ran out of gas. A callback that panics is consumed without effect. The callee of
a promise may answer anything, in any order; only the chain signatures contract is assumed to
answer with one root public key.
-/

set_option autoImplicit false
set_option relaxedAutoImplicit false

namespace SatoshiBridge

/-- The public methods that change the state, with their arguments. -/
inductive Method
  | verifyDepositV2 (depositMsg : DepositMsg) (txBytes : DepositTxProof) (vout txIndex : ℕ)
  | verifyWithdrawV2 (txId : Txid)
  | withdrawRbf (originalBtcPendingVerifyId : Txid) (output : List TxOut)
      (chainSpecificData : Option ChainSpecificData)
  | cancelWithdraw (originalBtcPendingVerifyId : Txid) (output : List TxOut)
  | activeUtxoManagement (input : List OutPoint) (output : List TxOut)
  | activeUtxoManagementRbf (originalBtcPendingVerifyId : Txid) (output : List TxOut)
  | cancelActiveUtxoManagement (originalBtcPendingVerifyId : Txid) (output : List TxOut)
  | clearInvalidPendingVerifyRbf (btcPendingVerifyId : Txid)
  | batchClearInvalidPendingVerifyRbf (btcPendingVerifyIds : List Txid)
  | claimLostFound
  | requestRefund (depositMsg : DepositMsg) (refundAddress : String) (txBytes : DepositTxProof)
      (vout : ℕ) (gasFee : Option ℕ)
  | rejectRefund (utxoStorageKey : OutPoint)
  | executeRefund (utxoStorageKey : OutPoint) (chainSpecificData : Option ChainSpecificData)
  | removeRefundPendingTxId (txId : Txid)
  | ftOnTransfer (senderId : AccountId) (amount : ℕ) (msg : TokenReceiverMessage)
  | signBtcTransaction (btcPendingSignId : Txid) (signIndex keyVersion : ℕ)
  | withdrawProtocolFee (amount : Option ℕ)
  | completeFailedDepositMint (depositMsg : DepositMsg) (txBytes : DepositTxProof)
      (vout protocolFee : ℕ)
  | syncChainSignaturesRootPublicKey
  | updateConfig (update : ConfigUpdate)
  | setConfirmationsStrategy (rangeUpperBound confirmations : ℕ)
  | removeConfirmationsStrategy (rangeUpperBound : ℕ)
  | addSuperAdmin (accountId : AccountId)
  | removeSuperAdmin (accountId : AccountId)
  | extendOperators (operators : List AccountId)
  | removeOperators (operators : List AccountId)
  | aclSetRole (role : Role) (accountId : AccountId) (granted : Bool)
  | extendRelayerWhiteList (relayerIds : List AccountId)
  | removeRelayerWhiteList (relayerIds : List AccountId)
  | extendExtraMsgRelayerWhiteList (relayerIds : List AccountId)
  | removeExtraMsgRelayerWhiteList (relayerIds : List AccountId)
  | extendPostActionReceiverIdWhiteList (receiverIds : List AccountId)
  | removePostActionReceiverIdWhiteList (receiverIds : List AccountId)
  | setPendingTxLimit (accountId : AccountId) (maxPending : Option ℕ)
  | extendPostActionMsgTemplates (contractId : AccountId) (templates : Finset String)
  | removePostActionMsgTemplates (contractId : AccountId) (templates : Option (Finset String))

namespace Contract

variable (host : Host) (env : Env) (c : Contract)

/-- The method a call names. -/
def call : Method → Option Receipt
  | .verifyDepositV2 msg txBytes vout txIndex => c.verifyDepositV2 host env msg txBytes vout txIndex
  | .verifyWithdrawV2 txId => c.verifyWithdrawV2 env txId
  | .withdrawRbf id output data => c.withdrawRbf host env id output data
  | .cancelWithdraw id output => c.cancelWithdraw host env id output
  | .activeUtxoManagement input output => c.activeUtxoManagement host env input output
  | .activeUtxoManagementRbf id output => c.activeUtxoManagementRbf host env id output
  | .cancelActiveUtxoManagement id output => c.cancelActiveUtxoManagement host env id output
  | .clearInvalidPendingVerifyRbf id => c.clearInvalidPendingVerifyRbf env id
  | .batchClearInvalidPendingVerifyRbf ids => c.batchClearInvalidPendingVerifyRbf env ids
  | .claimLostFound => c.claimLostFound env
  | .requestRefund msg address txBytes vout gasFee =>
    c.requestRefund host env msg address txBytes vout gasFee
  | .rejectRefund key => c.rejectRefund env key
  | .executeRefund key data => c.executeRefund host env key data
  | .removeRefundPendingTxId txId => c.removeRefundPendingTxId env txId
  | .ftOnTransfer senderId amount msg => c.ftOnTransfer host env senderId amount msg
  | .signBtcTransaction id signIndex keyVersion =>
    c.signBtcTransaction host env id signIndex keyVersion
  | .withdrawProtocolFee amount => c.withdrawProtocolFee env amount
  | .completeFailedDepositMint msg txBytes vout fee =>
    c.completeFailedDepositMint host env msg txBytes vout fee
  | .syncChainSignaturesRootPublicKey => c.syncChainSignaturesRootPublicKey env
  | .updateConfig update => c.updateConfig env update
  | .setConfirmationsStrategy bound confirmations =>
    c.setConfirmationsStrategy env bound confirmations
  | .removeConfirmationsStrategy bound => c.removeConfirmationsStrategy env bound
  | .addSuperAdmin accountId => c.addSuperAdmin env accountId
  | .removeSuperAdmin accountId => c.removeSuperAdmin env accountId
  | .extendOperators operators => c.extendOperators env operators
  | .removeOperators operators => c.removeOperators env operators
  | .aclSetRole role accountId granted => c.aclSetRole role accountId granted
  | .extendRelayerWhiteList ids => c.extendRelayerWhiteList env ids
  | .removeRelayerWhiteList ids => c.removeRelayerWhiteList env ids
  | .extendExtraMsgRelayerWhiteList ids => c.extendExtraMsgRelayerWhiteList env ids
  | .removeExtraMsgRelayerWhiteList ids => c.removeExtraMsgRelayerWhiteList env ids
  | .extendPostActionReceiverIdWhiteList ids => c.extendPostActionReceiverIdWhiteList env ids
  | .removePostActionReceiverIdWhiteList ids => c.removePostActionReceiverIdWhiteList env ids
  | .setPendingTxLimit accountId limit => c.setPendingTxLimit env accountId limit
  | .extendPostActionMsgTemplates id templates => c.extendPostActionMsgTemplates env id templates
  | .removePostActionMsgTemplates id templates => c.removePostActionMsgTemplates env id templates

/-- The callback of a promise, given the result of its call. A detached burn has none. -/
def callback (result : PromiseResult) : Promise → Option Receipt
  | .verifyDeposit recipient amount protocolFee relayerFee info postActions delta =>
    c.verifyDepositCallback env result recipient amount protocolFee relayerFee info postActions
      delta
  | .verifySafeDeposit recipient amount msg info delta =>
    c.verifySafeDepositCallback host result recipient amount msg info delta
  | .mint _ recipient _ protocolFee _ _ _ info height =>
    c.mintCallback result recipient protocolFee info height
  | .safeMint _ _ amount _ info height => c.safeMintCallback host env result amount info height
  | .burnDetached .. => some { contract := c, promises := [], marks := [], returns := none }
  | .verifyWithdraw txId _ => c.internalVerifyWithdrawCallback env result txId
  | .verifyActiveUtxoManagement txId _ => c.verifyActiveUtxoManagementCallback env result txId
  | .withdrawBurn _ _ _ _ _ txId protocolFee =>
    c.verifyWithdrawBurnCallback host result txId protocolFee
  | .activeUtxoManagementBurn _ _ _ _ txId =>
    c.verifyActiveUtxoManagementBurnCallback host result txId
  | .verifyRefundFinalize txId _ => c.verifyRefundFinalizeCallback result txId
  | .requestRefund msg address txId output vout gasFee =>
    c.requestRefundCallback host env result msg address txId output vout gasFee
  | .transferNbtc _ accountId amount => c.transferNbtcCallback result accountId amount
  | .withdrawProtocolFee _ _ amount => c.withdrawProtocolFeeCallback result amount
  | .sign accountId id signIndex _ _ _ =>
    c.signBtcTransactionCallback host env result accountId id signIndex
  | .syncRootPublicKey => c.syncRootPublicKeyCallback host result
  | .ftOnTransfer senderId amount target input output maxGasFee data =>
    c.ftOnTransferCallback host env result senderId amount target input output maxGasFee data
  | .rbf method accountId id output data predecessor =>
    c.rbfCallback host env result method accountId id output data predecessor
  | .activeUtxoManagement accountId input output =>
    c.activeUtxoManagementCallback host env result accountId input output
  | .executeRefund call data => c.executeRefundCallback host env result call data

end Contract

/-! ### Actions -/

structure Sys where
  contract : Contract
  inflight : List Promise
  log : List Mark

inductive Action
  | call (env : Env) (method : Method)
  | callback (index : ℕ) (env : Env) (result : PromiseResult)
  | lose (index : ℕ) (result : PromiseResult)

namespace Promise

/-- The deposit a mint promise is for. -/
def mintInfo : Promise → Option PendingUTXOInfo
  | mint _ _ _ _ _ _ _ info _ | safeMint _ _ _ _ info _ => some info
  | _ => none

/-- Whether the mint callback would take the result for a success. -/
def minted (result : PromiseResult) : Promise → Bool
  | mint .. => result.isSuccess
  | safeMint .. => !result.isRefundRequired
  | _ => false

/-- What a lost callback leaves in the history. -/
def lostMarks (result : PromiseResult) (promise : Promise) : List Mark :=
  match promise.mintInfo with
  | some info => [.mintCallbackLost info.utxoStorageKey (promise.minted result)]
  | none => []

/-- The answers the callee of a promise may give. -/
def Answers (host : Host) (promise : Promise) (result : PromiseResult) : Prop :=
  promise = .syncRootPublicKey →
    ∀ publicKey, result = .value (.publicKey publicKey) → publicKey = host.rootPublicKey

instance (host : Host) (promise : Promise) (result : PromiseResult) :
    Decidable (promise.Answers host result) :=
  match result with
  | .value (.publicKey publicKey) =>
    decidable_of_iff (promise = .syncRootPublicKey → publicKey = host.rootPublicKey)
      ⟨fun h hp _ hr ↦ by cases hr; exact h hp, fun h hp ↦ h hp publicKey rfl⟩
  | .failed | .value .unit | .value (.bool _) | .value (.u128 _) | .value (.inclusion _)
  | .value (.height _) | .value (.signature _) | .value .other =>
    .isTrue (fun _ _ hr ↦ by cases hr)

end Promise

namespace Sys

/-- The state after a receipt, with the given promises still in flight. -/
def apply (s : Sys) (inflight : List Promise) (receipt : Receipt) : Sys where
  contract := receipt.contract
  inflight := inflight ++ receipt.promises
  log := s.log ++ receipt.marks

/-- The state after a promise whose callback had no effect. -/
def drop (s : Sys) (index : ℕ) (promise : Promise) (result : PromiseResult) : Sys where
  contract := s.contract
  inflight := s.inflight.eraseIdx index
  log := s.log ++ promise.lostMarks result

/-- One action. -/
def exec (host : Host) (s : Sys) : Action → Option Sys
  | .call env method => do
    let receipt ← s.contract.call host env method
    some (s.apply s.inflight receipt)
  | .callback index env result => do
    let promise ← s.inflight[index]?
    require (promise.Answers host result)
    match s.contract.callback host env result promise with
    | some receipt => some (s.apply (s.inflight.eraseIdx index) receipt)
    | none => some (s.drop index promise result)
  | .lose index result => do
    let promise ← s.inflight[index]?
    some (s.drop index promise result)

/-- A system that has just been constructed. -/
def Initial (s : Sys) : Prop :=
  ∃ env config, Contract.new env config = some s.contract ∧ s.inflight = [] ∧ s.log = []

/-- A guard on the outpoints for which `complete_failed_deposit_mint` may be called. -/
abbrev Guard := Sys → OutPoint → Prop

/-- The actions a guard allows: only calls of `complete_failed_deposit_mint` are restricted. -/
def Allowed (host : Host) (guard : Guard) (s : Sys) : Action → Prop
  | .call _ (.completeFailedDepositMint _ txBytes vout _) =>
    ∀ summary, internalResolveDepositTx host txBytes = some summary →
      guard s (generateUtxoStorageKey summary.txId vout)
  | _ => True

/-- The states reached by runs that keep to a guard. -/
abbrev Reachable (host : Host) (guard : Guard) (s : Sys) : Prop :=
  Transition.Reachable Initial (exec host) (Allowed host guard) s

/-- The runs that keep to a guard. -/
abbrev Runs (host : Host) (guard : Guard) (s s' : Sys) : Prop :=
  Transition.Runs (exec host) (Allowed host guard) s s'

/-- Deposits are never completed by hand. -/
def never : Guard := fun _ _ ↦ False

/-- Deposits may be completed by hand at any time. -/
def always : Guard := fun _ _ ↦ True

/-- Only a deposit still in progress with no mint in flight may be completed by hand. -/
def unfinished : Guard := fun s key ↦
  (s.contract.utxosInProgress.lookup key).isSome ∧
    ∀ promise ∈ s.inflight, ∀ info ∈ promise.mintInfo, info.utxoStorageKey ≠ key

end Sys

end SatoshiBridge
