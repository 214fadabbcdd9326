import SatoshiBridge.Model.Psbt

/-!
# Pending transactions

The record of a transaction of the bridge that is not final yet, its kind and its stage. The
assertions of the source on kinds and stages all read the same two projections of the state.
-/

set_option autoImplicit false
set_option relaxedAutoImplicit false

namespace SatoshiBridge

inductive PendingInfoStage
  | pendingSign | pendingVerify | pendingBurn
deriving DecidableEq

structure OriginalState where
  stage : PendingInfoStage
  maxGasFee : ℕ
  lastRbfTimeSec : Option ℕ
  cancelRbfReserved : Option ℕ
deriving DecidableEq

structure RbfState where
  stage : PendingInfoStage
  originalTxId : Txid
deriving DecidableEq

inductive PendingInfoState
  | withdrawOriginal (state : OriginalState)
  | withdrawUserRbf (state : RbfState)
  | withdrawCancelRbf (state : RbfState)
  | activeUtxoManagementOriginal (state : OriginalState)
  | activeUtxoManagementRbf (state : RbfState)
  | activeUtxoManagementCancelRbf (state : RbfState)
  | refund (state : OriginalState)
deriving DecidableEq

namespace PendingInfoState

def stage : PendingInfoState → PendingInfoStage
  | withdrawOriginal s | activeUtxoManagementOriginal s | refund s => s.stage
  | withdrawUserRbf s | withdrawCancelRbf s | activeUtxoManagementRbf s
  | activeUtxoManagementCancelRbf s => s.stage

def setStage (stage : PendingInfoStage) : PendingInfoState → PendingInfoState
  | withdrawOriginal s => withdrawOriginal { s with stage := stage }
  | withdrawUserRbf s => withdrawUserRbf { s with stage := stage }
  | withdrawCancelRbf s => withdrawCancelRbf { s with stage := stage }
  | activeUtxoManagementOriginal s => activeUtxoManagementOriginal { s with stage := stage }
  | activeUtxoManagementRbf s => activeUtxoManagementRbf { s with stage := stage }
  | activeUtxoManagementCancelRbf s => activeUtxoManagementCancelRbf { s with stage := stage }
  | refund s => refund { s with stage := stage }

def isWithdrawRelated : PendingInfoState → Bool
  | withdrawOriginal _ | withdrawUserRbf _ | withdrawCancelRbf _ => true
  | _ => false

def isActiveUtxoManagementRelated : PendingInfoState → Bool
  | activeUtxoManagementOriginal _ | activeUtxoManagementRbf _
  | activeUtxoManagementCancelRbf _ => true
  | _ => false

def isRefund : PendingInfoState → Bool
  | refund _ => true
  | _ => false

def isWithdrawCancelRbf : PendingInfoState → Bool
  | withdrawCancelRbf _ => true
  | _ => false

/-- The original an RBF transaction replaces. -/
def originalTxId : PendingInfoState → Option Txid
  | withdrawUserRbf s | withdrawCancelRbf s | activeUtxoManagementRbf s
  | activeUtxoManagementCancelRbf s => some s.originalTxId
  | _ => none

/-- The state of an original withdrawal or active management; refunds are not replaced. -/
def originalState : PendingInfoState → Option OriginalState
  | withdrawOriginal s | activeUtxoManagementOriginal s => some s
  | _ => none

def setOriginalState (s : OriginalState) : PendingInfoState → PendingInfoState
  | withdrawOriginal _ => withdrawOriginal s
  | activeUtxoManagementOriginal _ => activeUtxoManagementOriginal s
  | other => other

end PendingInfoState

structure BTCPendingInfo where
  accountId : AccountId
  btcPendingId : Txid
  transferAmount : ℕ
  actualReceivedAmount : ℕ
  withdrawFee : ℕ
  gasFee : ℕ
  burnAmount : ℕ
  psbt : PsbtWrapper
  vutxos : List UTXO
  signatures : List (Option SignatureResponse)
  txBytesWithSign : Option SignedTransaction
  createTimeSec : ℕ
  lastSignTimeSec : ℕ
  state : PendingInfoState
deriving DecidableEq

namespace BTCPendingInfo

def assertPendingSign (info : BTCPendingInfo) : Option Unit :=
  require (info.state.stage = .pendingSign)

def assertPendingVerify (info : BTCPendingInfo) : Option Unit :=
  require (info.state.stage = .pendingVerify)

/-- `get_original_tx_id`. -/
abbrev getOriginalTxId (info : BTCPendingInfo) : Option Txid := info.state.originalTxId

def assertWithdrawRelatedPendingVerifyTx (info : BTCPendingInfo) : Option Unit := do
  require info.state.isWithdrawRelated
  info.assertPendingVerify

def assertRefundPendingVerifyTx (info : BTCPendingInfo) : Option Unit := do
  require info.state.isRefund
  info.assertPendingVerify

def assertRefundRelated (info : BTCPendingInfo) : Option Unit :=
  require info.state.isRefund

def assertActiveUtxoManagementRelatedPendingVerifyTx (info : BTCPendingInfo) : Option Unit := do
  require info.state.isActiveUtxoManagementRelated
  info.assertPendingVerify

def assertActiveUtxoManagementOriginalPendingVerifyTx (info : BTCPendingInfo) : Option Unit :=
  match info.state with
  | .activeUtxoManagementOriginal s => require (s.stage = .pendingVerify)
  | _ => none

def assertWithdrawOriginalPendingVerifyTx (info : BTCPendingInfo) : Option Unit :=
  match info.state with
  | .withdrawOriginal s => require (s.stage = .pendingVerify)
  | _ => none

/-- `get_max_gas_fee`. -/
def getMaxGasFee (info : BTCPendingInfo) : Option ℕ := do
  let s ← info.state.originalState
  some s.maxGasFee

/-- `update_max_gas_fee`. -/
def updateMaxGasFee (info : BTCPendingInfo) (gasFee nowSec : ℕ) : Option BTCPendingInfo := do
  let s ← info.state.originalState
  let s' := { s with maxGasFee := gasFee, lastRbfTimeSec := some nowSec }
  some { info with state := info.state.setOriginalState s' }

/-- `do_cancel`. -/
def doCancel (info : BTCPendingInfo) (gasFee cancelRbfReserved nowSec : ℕ) :
    Option BTCPendingInfo := do
  let s ← info.state.originalState
  let s' := { s with
    maxGasFee := max s.maxGasFee gasFee
    lastRbfTimeSec := some nowSec
    cancelRbfReserved := some cancelRbfReserved }
  some { info with state := info.state.setOriginalState s' }

/-- `get_cancel_rbf_reserved`. -/
def getCancelRbfReserved (info : BTCPendingInfo) : Option (Option ℕ) := do
  let s ← info.state.originalState
  some s.cancelRbfReserved

def assertNotCanceled (info : BTCPendingInfo) : Option Unit := do
  let reserved ← info.getCancelRbfReserved
  require (reserved = none)

def toPendingVerifyStage (info : BTCPendingInfo) : BTCPendingInfo :=
  { info with state := info.state.setStage .pendingVerify }

/-- `to_pending_burn_stage`; a refund burns nothing. -/
def toPendingBurnStage (info : BTCPendingInfo) : Option BTCPendingInfo := do
  require (¬info.state.isRefund)
  some { info with state := info.state.setStage .pendingBurn }

def isAllSigned (info : BTCPendingInfo) : Bool := info.signatures.all Option.isSome

/-- `get_transaction`. -/
def getTransaction (info : BTCPendingInfo) : Option Transaction := do
  let signed ← info.txBytesWithSign
  some signed.tx

end BTCPendingInfo

/-- `init_rbf_btc_pending_info`. The source leaves the id and the psbt empty until
`set_rbf_pending_info` writes them; here they are arguments. -/
def initRbfBtcPendingInfo (original : BTCPendingInfo) (state : PendingInfoState) (nowSec : ℕ)
    (btcPendingId : Txid) (psbt : PsbtWrapper) : BTCPendingInfo where
  accountId := original.accountId
  btcPendingId := btcPendingId
  transferAmount := original.transferAmount
  actualReceivedAmount := original.actualReceivedAmount
  withdrawFee := original.withdrawFee
  gasFee := original.gasFee
  burnAmount := original.burnAmount
  psbt := psbt
  vutxos := original.vutxos
  signatures := List.replicate original.signatures.length none
  txBytesWithSign := none
  createTimeSec := nowSec
  lastSignTimeSec := 0
  state := state

/-! ### Projections of updated states -/

namespace PendingInfoState

variable (state : PendingInfoState) (stage' : PendingInfoStage) (s : OriginalState)

@[simp] theorem stage_setStage : (state.setStage stage').stage = stage' := by
  cases state <;> rfl

@[simp] theorem isWithdrawRelated_setStage :
    (state.setStage stage').isWithdrawRelated = state.isWithdrawRelated := by
  cases state <;> rfl

@[simp] theorem isActiveUtxoManagementRelated_setStage :
    (state.setStage stage').isActiveUtxoManagementRelated
      = state.isActiveUtxoManagementRelated := by
  cases state <;> rfl

@[simp] theorem isRefund_setStage : (state.setStage stage').isRefund = state.isRefund := by
  cases state <;> rfl

@[simp] theorem isWithdrawCancelRbf_setStage :
    (state.setStage stage').isWithdrawCancelRbf = state.isWithdrawCancelRbf := by
  cases state <;> rfl

@[simp] theorem originalTxId_setStage :
    (state.setStage stage').originalTxId = state.originalTxId := by
  cases state <;> rfl

@[simp] theorem originalState_setStage :
    (state.setStage stage').originalState
      = state.originalState.map fun s ↦ { s with stage := stage' } := by
  cases state <;> rfl

@[simp] theorem isWithdrawRelated_setOriginalState :
    (state.setOriginalState s).isWithdrawRelated = state.isWithdrawRelated := by
  cases state <;> rfl

@[simp] theorem isActiveUtxoManagementRelated_setOriginalState :
    (state.setOriginalState s).isActiveUtxoManagementRelated
      = state.isActiveUtxoManagementRelated := by
  cases state <;> rfl

@[simp] theorem isRefund_setOriginalState :
    (state.setOriginalState s).isRefund = state.isRefund := by
  cases state <;> rfl

@[simp] theorem isWithdrawCancelRbf_setOriginalState :
    (state.setOriginalState s).isWithdrawCancelRbf = state.isWithdrawCancelRbf := by
  cases state <;> rfl

@[simp] theorem originalTxId_setOriginalState :
    (state.setOriginalState s).originalTxId = state.originalTxId := by
  cases state <;> rfl

end PendingInfoState

end SatoshiBridge
