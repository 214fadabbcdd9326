import SatoshiBridge.Ledger.ManagementEffects
import SatoshiBridge.Model.System
import SatoshiBridge.Properties.RequiredConfirmations

/-!
# What callers ask for

A call that cannot be answered at once leaves a promise that says what was asked, and by whom. Both
builds check a caller in the same way; for what creates a transaction, the Bitcoin build then goes
on at once and the Zcash build when it knows the block height. `Requests` says which call asks for
which promise, `resume` is the common continuation.
-/

set_option autoImplicit false
set_option relaxedAutoImplicit false

namespace SatoshiBridge

/-- The promises that a call asks for; the others are sent by callbacks, or pay out what is owed. -/
def Promise.asked : Promise → Bool
  | mint .. | safeMint .. | burnDetached .. | withdrawBurn .. | activeUtxoManagementBurn ..
  | transferNbtc .. => false
  | _ => true

/-- The promises whose callback creates a transaction. -/
def Promise.creates : Promise → Bool
  | ftOnTransfer .. | activeUtxoManagement .. | rbf .. | executeRefund .. => true
  | _ => false

theorem Promise.asked_of_creates {p : Promise} (h : p.creates = true) : p.asked = true := by
  cases p with
  | ftOnTransfer | activeUtxoManagement | rbf | executeRefund => rfl
  | _ => cases h

namespace Contract

variable (host : Host) (env : Env) (c : Contract)

/-! ### Requests -/

/-- The caller is a DAO or an operator account. -/
def Privileged : Prop :=
  c.aclHasRole .dao env.predecessor = true ∨ c.aclHasRole .operator env.predecessor = true

/-- The call asks for the deposit of an output that pays the deposit address of a message. -/
structure AsksDeposit (method : Method) (msg : DepositMsg) (info : PendingUTXOInfo) (delta : ℕ) :
    Prop where
  method : ∃ txBytes vout txIndex summary, method = .verifyDepositV2 msg txBytes vout txIndex ∧
    internalResolveDepositTx host txBytes = some summary ∧
    c.internalBuildDepositUtxoInfo host (getDepositPath host msg) summary vout = some info
  relayer : env.trustedRelayer = true
  unpaused : env.paused = false
  amount : c.config.minDepositAmount ≤ info.utxo.balance
  delta : delta = c.depositDelta host env.predecessor msg

/-- What the RBF methods ask for: users replace their own withdrawals, everything else is up to DAO
and operator accounts. -/
inductive AsksRbf : Method → RbfMethod → AccountId → Txid → List TxOut →
    Option ChainSpecificData → Prop
  | withdrawRbf (id : Txid) (output : List TxOut) (data : Option ChainSpecificData)
      (hdeposit : c.requiredBalanceForWithdrawRbf host ≤ env.attachedDeposit) :
      AsksRbf (.withdrawRbf id output data) .withdrawRbf env.predecessor id output data
  | cancelWithdraw (id : Txid) (output : List TxOut) (o : BTCPendingInfo)
      (hrole : c.Privileged env) (ho : c.btcPendingInfos.lookup id = some o) :
      AsksRbf (.cancelWithdraw id output) .cancelWithdraw o.accountId id output none
  | activeUtxoManagementRbf (id : Txid) (output : List TxOut) (hrole : c.Privileged env) :
      AsksRbf (.activeUtxoManagementRbf id output) .activeUtxoManagementRbf env.predecessor id
        output none
  | cancelActiveUtxoManagement (id : Txid) (output : List TxOut) (o : BTCPendingInfo)
      (hrole : c.Privileged env) (ho : c.btcPendingInfos.lookup id = some o) :
      AsksRbf (.cancelActiveUtxoManagement id output) .cancelActiveUtxoManagement o.accountId id
        output none

/-- Only users attach data to their replacements. -/
theorem AsksRbf.data {host : Host} {env : Env} {c : Contract} {method : Method}
    {rbf : RbfMethod} {accountId : AccountId} {id : Txid} {output : List TxOut}
    {data : Option ChainSpecificData}
    (h : c.AsksRbf host env method rbf accountId id output data) :
    rbf ≠ .withdrawRbf → data = none := by
  cases h with
  | withdrawRbf => exact fun hne ↦ absurd rfl hne
  | _ => exact fun _ ↦ rfl

/-- The call asks for the promise, and its caller may. -/
def Requests (method : Method) : Promise → Prop
  | .verifyDeposit recipientId mintAmount protocolFee relayerFee info postActions delta =>
    ∃ msg, c.AsksDeposit host env method msg info delta ∧ recipientId = msg.recipientId ∧
      isSafeDeposit host msg = false ∧
      c.checkDepositMsg host msg mintAmount = some postActions ∧
      mintAmount + c.config.depositBridgeFee.getFee info.utxo.balance = info.utxo.balance ∧
      protocolFee + relayerFee = c.config.depositBridgeFee.getFee info.utxo.balance
  | .verifySafeDeposit recipientId mintAmount text info delta =>
    ∃ msg, c.AsksDeposit host env method msg info delta ∧ recipientId = msg.recipientId ∧
      isSafeDeposit host msg = true ∧ text = (msg.safeDeposit.getD ⟨""⟩).msg ∧
      mintAmount = info.utxo.balance ∧ requiredBalanceForDeposit ≤ env.attachedDeposit
  | .verifyWithdraw txId _ | .verifyActiveUtxoManagement txId _ | .verifyRefundFinalize txId _ =>
    method = .verifyWithdrawV2 txId ∧ env.trustedRelayer = true ∧ env.paused = false
  | .requestRefund msg refundAddress txId output vout gasFee =>
    ∃ txBytes summary, method = .requestRefund msg refundAddress txBytes vout gasFee ∧
      internalResolveDepositTx host txBytes = some summary ∧ txId = summary.txId ∧
      summary.outputs[vout]? = some output ∧ env.paused = false ∧
      (gasFee.isSome = true → c.Privileged env)
  | .sign accountId id signIndex payload path keyVersion =>
    ∃ info vutxo, method = .signBtcTransaction id signIndex keyVersion ∧
      c.btcPendingInfos.lookup id = some info ∧ accountId = info.accountId ∧
      info.signatures[signIndex]? = some none ∧
      info.psbt.getHashToSign host signIndex = some payload ∧
      info.vutxos[signIndex]? = some vutxo ∧ path = vutxo.path ∧
      (∀ root ∈ info.getOriginalTxId, c.checkBtcPendingInfoExists root = true) ∧
      (info.state.isRefund = true ∨ env.trustedRelayer = true) ∧ env.paused = false
  | .syncRootPublicKey => method = .syncChainSignaturesRootPublicKey ∧
      c.aclHasRole .dao env.predecessor = true
  | .withdrawProtocolFee token receiverId amount =>
    (∃ wanted, method = .withdrawProtocolFee wanted) ∧ token = c.config.nbtcAccountId ∧
      receiverId = env.predecessor ∧ c.aclHasRole .dao env.predecessor = true ∧
      0 < amount ∧ amount ≤ c.curAvailableProtocolFee
  | .ftOnTransfer senderId amount target input output maxGasFee data =>
    method = .ftOnTransfer senderId amount (.withdraw target input output maxGasFee data) ∧
      env.predecessor = c.config.nbtcAccountId ∧ c.config.minWithdrawAmount ≤ amount ∧
      env.paused = false ∧
      (env.publicWithdrawPaused = false ∨ c.aclHasRole .trustedWithdrawSender senderId = true)
  | .rbf rbf accountId id output data predecessor =>
    c.AsksRbf host env method rbf accountId id output data ∧ predecessor = env.predecessor ∧
      env.paused = false
  | .activeUtxoManagement accountId input output =>
    method = .activeUtxoManagement input output ∧ accountId = env.predecessor ∧
      c.Privileged env ∧ env.paused = false
  | .executeRefund call data => method = .executeRefund call.utxoStorageKey data ∧
      c.resolveExecuteRefundTimelock host env call.utxoStorageKey = some call ∧ env.paused = false
  | _ => False

/-! ### Continuations -/

/-- The psbt of a withdrawal, at a block height in the Zcash build. -/
def withdrawPsbt (height : Option ℕ) (target : String) (input : List OutPoint)
    (output : List TxOut) (data : Option ChainSpecificData) : Option PsbtWrapper :=
  match height with
  | none => PsbtWrapper.newBitcoin input output
  | some height => do
    let expiry ← c.getExpiryHeight data height
    PsbtWrapper.newZcash host c.config input output
      (data.map ChainSpecificData.orchardBundleBytes) expiry height (some target)

/-- The psbt of active management. -/
def managementPsbt (height : Option ℕ) (input : List OutPoint) (output : List TxOut) :
    Option PsbtWrapper :=
  match height with
  | none => PsbtWrapper.newBitcoin input output
  | some height =>
    PsbtWrapper.newZcash host c.config input output none (height + c.config.expiryHeightGap) height
      none

/-- The psbt of a replacement. -/
def rbfPsbt (height : Option ℕ) (id : Txid) (output : List TxOut)
    (data : Option ChainSpecificData) : Option PsbtWrapper :=
  match height with
  | none => do
    let original ← c.internalUnwrapBtcPendingInfo id
    some (PsbtWrapper.fromOriginalPsbtBitcoin original.psbt output)
  | some height => do
    let expiry ← c.getExpiryHeight data height
    let original ← c.internalUnwrapBtcPendingInfo id
    PsbtWrapper.fromOriginalPsbtZcash host c.config original.psbt output
      (data.map ChainSpecificData.orchardBundleBytes) expiry height

/-- The psbt of a refund. -/
def refundPsbt (height : Option ℕ) (request : RefundRequest) (inputs : RefundExecutionInputs)
    (data : Option ChainSpecificData) : Option PsbtWrapper :=
  match height with
  | none => do
    let output ← c.buildRefundOutput host request.refundAddress inputs.refundAmount
    let psbt ← PsbtWrapper.newBitcoin [inputs.outpoint] [output]
    psbt.setInputUtxo host [inputs.depositOutput]
  | some height => c.zcashRefundPsbt host request inputs data height

/-- What follows a request that creates a transaction: at once in the Bitcoin build, with the block
height in the Zcash build. -/
def resume (height : Option ℕ) : Promise → Option Receipt
  | .ftOnTransfer senderId amount target input output maxGasFee data => do
    let psbt ← c.withdrawPsbt host height target input output data
    c.createBtcPendingInfo host env senderId amount target psbt maxGasFee
  | .activeUtxoManagement accountId input output => do
    let psbt ← c.managementPsbt host height input output
    c.createActiveUtxoManagementPendingInfo host env accountId psbt
  | .rbf method accountId id output data predecessor => do
    c.requirePendingSignCapacity accountId
    let psbt ← c.rbfPsbt host height id output data
    c.finishRbf host env method accountId id psbt predecessor
  | .executeRefund call data => do
    let request ← c.loadRefundRequestForExecute env call.utxoStorageKey call.timelockSec
    let inputs ← c.refundExecutionInputs host request
    let psbt ← c.refundPsbt host height request inputs data
    c.finalizeRefundWithPsbt host env call request psbt inputs.refundAmount
  | _ => none

end Contract

/-! ### Plain receipts -/

/-- A receipt that creates no transaction and leaves no promise that was asked for. -/
structure Receipt.Plain (receipt : Receipt) : Prop where
  promises : ∀ p ∈ receipt.promises, p.asked = false
  marks : ∀ info payee, Mark.created info payee ∉ receipt.marks

end SatoshiBridge
