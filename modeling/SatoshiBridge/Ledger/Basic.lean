import Mathlib.Algebra.BigOperators.Group.Multiset.Basic
import Mathlib.Algebra.Order.Group.Multiset
import Mathlib.Data.Set.Insert
import SatoshiBridge.Model.Laws
import SatoshiBridge.Model.System

/-!
# The ledger of the bridge

What the properties of the bridge are about: the coins and who may spend them, the pending
transactions, the refund requests, the protocol fees, the promises in flight and the history. A
ledger forgets how the contract stores these and everything else the contract stores; promises in
flight are unordered, because their results arrive in any order.
-/

set_option autoImplicit false
set_option relaxedAutoImplicit false

namespace SatoshiBridge

/-- The five protocol fee counters. -/
structure Fees where
  collected : ℕ
  available : ℕ
  claimed : ℕ
  reserved : ℕ
  forGas : ℕ

namespace Fees

/-- A protocol fee comes in. -/
def collect (fees : Fees) (amount : ℕ) : Fees :=
  { fees with
    collected := fees.collected + amount
    available := fees.available + amount }

/-- The counters a fee is added to have room for it. -/
structure HasRoom (fees : Fees) (amount : ℕ) : Prop where
  collected : fees.collected + amount < 2 ^ 128
  available : fees.available + amount < 2 ^ 128

/-- `fees'` has moved `amount` from available to reserved. -/
structure Reserves (amount : ℕ) (fees fees' : Fees) : Prop where
  collected : fees'.collected = fees.collected
  available : fees'.available + amount = fees.available
  claimed : fees'.claimed = fees.claimed
  reserved : fees'.reserved = fees.reserved + amount
  forGas : fees'.forGas = fees.forGas

/-- `fees'` has released a reservation, of which `used` was paid for gas. -/
structure Releases (amount used : ℕ) (fees fees' : Fees) : Prop where
  collected : fees'.collected = fees.collected
  available : fees'.available + used = fees.available + amount
  claimed : fees'.claimed = fees.claimed
  reserved : fees'.reserved + amount = fees.reserved
  forGas : fees'.forGas = fees.forGas + used
  used_le : used ≤ amount

@[simp] theorem collect_zero (fees : Fees) : fees.collect 0 = fees := rfl

theorem Reserves.refl (fees : Fees) : Reserves 0 fees fees := ⟨rfl, rfl, rfl, rfl, rfl⟩

theorem Releases.refl (fees : Fees) : Releases 0 0 fees fees :=
  ⟨rfl, rfl, rfl, rfl, rfl, le_refl 0⟩

end Fees

structure Ledger where
  chain : Chain
  token : AccountId
  ready : Bool
  roles : Finset (Role × AccountId)
  refundTimelockSec : ℕ
  unsafeRefundTimelockSec : ℕ
  utxos : FiniteMap OutPoint UTXO
  inProgress : FiniteMap OutPoint UTXO
  verified : Finset OutPoint
  pendings : FiniteMap Txid BTCPendingInfo
  requests : FiniteMap OutPoint RefundRequest
  accounts : Set AccountId
  lostFound : FiniteMap AccountId ℕ
  fees : Fees
  inflight : Multiset Promise
  log : List Mark

/-- The fee counters of a contract. -/
def Contract.fees (c : Contract) : Fees where
  collected := c.accCollectedProtocolFee
  available := c.curAvailableProtocolFee
  claimed := c.accClaimedProtocolFee
  reserved := c.curReservedProtocolFee
  forGas := c.accProtocolFeeForGas

/-- The account, empty when there is none. -/
def Contract.account (c : Contract) (accountId : AccountId) : Account :=
  (c.accounts.lookup accountId).getD (Account.new accountId)

/-- The ledger of a contract with promises in flight and a history. -/
def Contract.ledger (c : Contract) (inflight : Multiset Promise) (log : List Mark) : Ledger where
  chain := c.config.chain
  token := c.config.nbtcAccountId
  ready := c.config.changeAddress.isSome
  roles := c.roles
  refundTimelockSec := c.config.refundTimelockSec
  unsafeRefundTimelockSec := c.config.unsafeRefundTimelockSec
  utxos := c.utxos
  inProgress := c.utxosInProgress
  verified := c.verifiedDepositUtxo
  pendings := c.btcPendingInfos
  requests := c.refundRequests
  accounts := {accountId | accountId ∈ c.accounts}
  lostFound := c.lostFound
  fees := c.fees
  inflight := inflight
  log := log

/-- The ledger of a system. -/
def Sys.ledger (s : Sys) : Ledger := s.contract.ledger s.inflight s.log

/-! ### Readings of pending transactions -/

/-- The kind of a pending transaction, without its stage and what an original keeps account of. -/
inductive PendingKind
  | withdrawOriginal
  | withdrawUserRbf (originalTxId : Txid)
  | withdrawCancelRbf (originalTxId : Txid)
  | activeUtxoManagementOriginal
  | activeUtxoManagementRbf (originalTxId : Txid)
  | activeUtxoManagementCancelRbf (originalTxId : Txid)
  | refund

namespace PendingKind

def originalTxId : PendingKind → Option Txid
  | withdrawUserRbf id | withdrawCancelRbf id | activeUtxoManagementRbf id
  | activeUtxoManagementCancelRbf id => some id
  | withdrawOriginal | activeUtxoManagementOriginal | refund => none

def isWithdrawRelated : PendingKind → Bool
  | withdrawOriginal | withdrawUserRbf _ | withdrawCancelRbf _ => true
  | _ => false

def isRefund : PendingKind → Bool
  | refund => true
  | _ => false

end PendingKind

namespace PendingInfoState

def kind : PendingInfoState → PendingKind
  | withdrawOriginal _ => .withdrawOriginal
  | withdrawUserRbf s => .withdrawUserRbf s.originalTxId
  | withdrawCancelRbf s => .withdrawCancelRbf s.originalTxId
  | activeUtxoManagementOriginal _ => .activeUtxoManagementOriginal
  | activeUtxoManagementRbf s => .activeUtxoManagementRbf s.originalTxId
  | activeUtxoManagementCancelRbf s => .activeUtxoManagementCancelRbf s.originalTxId
  | refund _ => .refund

variable (state : PendingInfoState)

theorem originalTxId_kind : state.kind.originalTxId = state.originalTxId := by
  cases state <;> rfl

theorem isWithdrawRelated_kind : state.kind.isWithdrawRelated = state.isWithdrawRelated := by
  cases state <;> rfl

theorem isRefund_kind : state.kind.isRefund = state.isRefund := by
  cases state <;> rfl

@[simp] theorem kind_setStage (stage : PendingInfoStage) :
    (state.setStage stage).kind = state.kind := by
  cases state <;> rfl

@[simp] theorem kind_setOriginalState (s : OriginalState) :
    (state.setOriginalState s).kind = state.kind := by
  cases state <;> rfl

end PendingInfoState

namespace BTCPendingInfo

/-- The outpoints a pending transaction spends. -/
abbrev inputs (info : BTCPendingInfo) : List OutPoint := info.psbt.getUtxoStorageKeys

/-- What a pending transaction holds of the reserved protocol fees. -/
def reservation (info : BTCPendingInfo) : ℕ :=
  match info.state with
  | .withdrawOriginal s => s.cancelRbfReserved.getD 0
  | .activeUtxoManagementOriginal s => s.maxGasFee
  | _ => 0

/-- What confirming a pending transaction uses of the reservation of its family. -/
def usage (info : BTCPendingInfo) : ℕ :=
  match info.state with
  | .withdrawCancelRbf _ => info.burnAmount - (info.transferAmount - info.withdrawFee)
  | .activeUtxoManagementOriginal _ | .activeUtxoManagementRbf _
  | .activeUtxoManagementCancelRbf _ => info.burnAmount
  | _ => 0

end BTCPendingInfo

/-! ### Readings of promises -/

namespace Promise

/-- The deposit a promise carries towards its registration. -/
def depositInfo : Promise → Option PendingUTXOInfo
  | verifyDeposit _ _ _ _ info _ _ | verifySafeDeposit _ _ _ info _
  | mint _ _ _ _ _ _ _ info _ | safeMint _ _ _ _ info _ => some info
  | _ => none

/-- The transaction whose burn a promise awaits. -/
def burns : Promise → Option Txid
  | withdrawBurn _ _ _ _ _ txId _ | activeUtxoManagementBurn _ _ _ _ txId => some txId
  | _ => none

/-- The transaction whose inclusion a promise awaits, and whether as a withdrawal. -/
def verifies : Promise → Option (Txid × Bool)
  | verifyWithdraw txId _ => some (txId, true)
  | verifyActiveUtxoManagement txId _ => some (txId, false)
  | _ => none

/-- The tokens that came with the call a promise continues, and their sender. -/
def brings : Promise → Option (AccountId × ℕ)
  | ftOnTransfer senderId amount _ _ _ _ _ => some (senderId, amount)
  | _ => none

end Promise

/-- The tokens that come with a call, and their sender. -/
def Method.brings : Method → Option (AccountId × ℕ)
  | ftOnTransfer senderId amount _ => some (senderId, amount)
  | _ => none

/-! ### Readings of the history -/

namespace Mark

/-- The coins a mark registers. -/
@[simp] def adds : Mark → List OutPoint
  | utxoAdded keys => keys
  | _ => []

/-- The coins a mark takes out, each with the transaction it was taken for. -/
@[simp] def spends : Mark → List (OutPoint × Txid)
  | utxoRemoved keys id => keys.map fun key ↦ (key, id)
  | _ => []

end Mark

/-- The coins ever registered, in order. -/
def registered (log : List Mark) : List OutPoint := log.flatMap Mark.adds

/-- The coins ever taken out, in order, each with the transaction it was taken for. -/
def spentBy (log : List Mark) : List (OutPoint × Txid) := log.flatMap Mark.spends

@[simp] theorem registered_append (log log' : List Mark) :
    registered (log ++ log') = registered log ++ registered log' := List.flatMap_append

@[simp] theorem spentBy_append (log log' : List Mark) :
    spentBy (log ++ log') = spentBy log ++ spentBy log' := List.flatMap_append

end SatoshiBridge
