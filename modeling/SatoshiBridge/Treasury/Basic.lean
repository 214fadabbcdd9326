import SatoshiBridge.Invariants.Burns
import SatoshiBridge.Model.World
import SatoshiBridge.Properties.Completions
import SatoshiBridge.Properties.Inputs

/-!
# What the bridge holds and what it owes

The coins that back the tokens and the tokens the bridge has promised to somebody, as sums over its
state. Pending transactions enter both sums through their originals alone, so every step moves the
sums by what it creates or settles.
-/

set_option autoImplicit false
set_option relaxedAutoImplicit false

namespace SatoshiBridge

/-! ### Readings of pending transactions -/

namespace BTCPendingInfo

/-- The coins an original has taken out. -/
def originalCoins (info : BTCPendingInfo) : ℕ :=
  match info.state with
  | .withdrawOriginal _ | .activeUtxoManagementOriginal _ => inputAmount info.vutxos
  | _ => 0

/-- The tokens the bridge keeps for an original withdrawal. -/
def escrow (info : BTCPendingInfo) : ℕ :=
  match info.state with
  | .withdrawOriginal _ => info.transferAmount
  | _ => 0

/-- What the confirmation of a transaction costs the bridge: what is burnt, and the fee of a
withdrawal. -/
def debit (info : BTCPendingInfo) : ℕ :=
  info.burnAmount + if info.state.isWithdrawRelated then info.withdrawFee else 0

end BTCPendingInfo

/-- The sum of a reading over the pending transactions. -/
def pendingTotal (f : BTCPendingInfo → ℕ) (pendings : FiniteMap Txid BTCPendingInfo) : ℕ :=
  FiniteMap.total (fun _ info ↦ f info) pendings

/-- The sum of the balances of stored coins. -/
def coinTotal (utxos : FiniteMap OutPoint UTXO) : ℕ :=
  FiniteMap.total (fun _ utxo ↦ utxo.balance) utxos

/-- The coins of the bridge: those it stores, those of deposits in progress and those its pending
originals have taken out. -/
def coinsHeld (utxos utxosInProgress : FiniteMap OutPoint UTXO)
    (pendings : FiniteMap Txid BTCPendingInfo) : ℕ :=
  coinTotal utxos + coinTotal utxosInProgress + pendingTotal BTCPendingInfo.originalCoins pendings

/-- The tokens the bridge owes: the protocol fees it may spend or has reserved, the amounts of the
pending withdrawals and what was lost and found. -/
def tokensOwed (fees : Fees) (pendings : FiniteMap Txid BTCPendingInfo)
    (lostFound : FiniteMap AccountId ℕ) : ℕ :=
  fees.available + fees.reserved + pendingTotal BTCPendingInfo.escrow pendings +
    FiniteMap.total (fun _ amount ↦ amount) lostFound

/-- The coins of the bridge. -/
def Ledger.coins (l : Ledger) : ℕ := coinsHeld l.utxos l.inProgress l.pendings

/-- The tokens the bridge owes. -/
def Ledger.owes (l : Ledger) : ℕ := tokensOwed l.fees l.pendings l.lostFound

/-! ### Readings of promises -/

/-- Whether a call has been answered with a value. -/
def Stage.succeeded : Stage → Bool
  | answered result => result.isSuccess
  | _ => false

namespace Promise

/-- The tokens of the bridge that a promise will use, or that its callback will find booked. -/
def owed : Promise → Stage → ℕ
  | burnDetached _ _ amount _ relayerFee, stage =>
    if stage = .waiting then amount + relayerFee else 0
  | safeMint _ _ amount _ _ _, .answered result => if result.isRefundRequired then amount else 0
  | mint _ _ _ protocolFee _ _ _ _ _, stage | withdrawBurn _ _ _ _ _ _ protocolFee, stage =>
    if stage.succeeded then protocolFee else 0
  | transferNbtc _ _ amount, stage | withdrawProtocolFee _ _ amount, stage =>
    if stage.succeeded then 0 else amount
  | ftOnTransfer _ amount _ _ _ _ _, _ => amount
  | _, _ => 0

/-- The tokens for a deposit in progress that are not minted. -/
def unminted : Promise → Stage → ℕ
  | mint _ _ mintAmount protocolFee _ relayerFee _ _ _, stage =>
    if stage.succeeded then 0 else mintAmount + protocolFee + relayerFee
  | safeMint _ _ amount _ _ _, stage => if stage = .waiting then amount else 0
  | _, _ => 0

/-- The tokens of a reverted deposit that are still to be burnt. -/
def unburnt : Promise → Stage → ℕ
  | burnDetached _ _ amount _ _, stage => if stage = .waiting then amount else 0
  | _, _ => 0

end Promise

/-- The sum of a reading over the promises in flight, as if none had been executed yet. -/
def Ledger.waiting (g : Promise → Stage → ℕ) (l : Ledger) : ℕ :=
  (l.inflight.map fun p ↦ g p .waiting).sum

namespace Cause

/-- The tokens that come with a step. -/
def owed : Cause → ℕ
  | call _ method => (method.brings.map Prod.snd).getD 0
  | answer _ p result | lost p result => p.owed (.answered result)

/-- What an answered promise has not minted. -/
def unminted : Cause → ℕ
  | call _ _ => 0
  | answer _ p result | lost p result => p.unminted (.answered result)

/-- The transaction a step confirms. -/
def confirms : Cause → Option Txid
  | answer _ p result => if result.isSuccess then p.burns else none
  | call _ _ | lost _ _ => none

/-- A reading of the transaction a step confirms. -/
def confirmed (g : BTCPendingInfo → ℕ) (cause : Cause) (l : Ledger) : ℕ :=
  ((cause.confirms.bind l.pendings.lookup).map g).getD 0

end Cause

/-! ### Originals -/

/-- A reading that only originals have, and that stays with them. -/
structure ReadsOriginals (host : Host) (f : BTCPendingInfo → ℕ) : Prop where
  carries : ∀ {old info}, Carries host old info → f info = f old
  child : ∀ {info root}, info.state.originalTxId = some root → f info = 0
  refund : ∀ {info}, info.state.isRefund = true → f info = 0

theorem BTCPendingInfo.originalCoins_eq (info : BTCPendingInfo) : info.originalCoins =
    match info.state.kind with
    | .withdrawOriginal | .activeUtxoManagementOriginal => inputAmount info.vutxos
    | _ => 0 := by
  unfold originalCoins
  cases info.state <;> rfl

theorem BTCPendingInfo.escrow_eq (info : BTCPendingInfo) : info.escrow =
    match info.state.kind with
    | .withdrawOriginal => info.transferAmount
    | _ => 0 := by
  unfold escrow
  cases info.state <;> rfl

variable {host : Host} {Completes : Ledger → OutPoint → Prop} {cause : Cause} {l l' : Ledger}
  {f : BTCPendingInfo → ℕ} {pendings : FiniteMap Txid BTCPendingInfo}

theorem readsOriginals_originalCoins : ReadsOriginals host BTCPendingInfo.originalCoins where
  carries := by
    intro old info h
    rw [BTCPendingInfo.originalCoins_eq, BTCPendingInfo.originalCoins_eq, h.kind, h.vutxos]
  child := by
    intro info root h
    unfold BTCPendingInfo.originalCoins
    cases hstate : info.state with
    | withdrawOriginal | activeUtxoManagementOriginal =>
      rw [hstate] at h
      cases h
    | _ => rfl
  refund := by
    intro info h
    unfold BTCPendingInfo.originalCoins
    cases hstate : info.state with
    | withdrawOriginal | activeUtxoManagementOriginal =>
      rw [hstate] at h
      cases h
    | _ => rfl

theorem readsOriginals_escrow : ReadsOriginals host BTCPendingInfo.escrow where
  carries := by
    intro old info h
    rw [BTCPendingInfo.escrow_eq, BTCPendingInfo.escrow_eq, h.kind, h.transferAmount]
  child := by
    intro info root h
    unfold BTCPendingInfo.escrow
    cases hstate : info.state with
    | withdrawOriginal =>
      rw [hstate] at h
      cases h
    | _ => rfl
  refund := by
    intro info h
    unfold BTCPendingInfo.escrow
    cases hstate : info.state with
    | withdrawOriginal =>
      rw [hstate] at h
      cases h
    | _ => rfl

namespace ReadsOriginals

variable (hf : ReadsOriginals host f)

include hf

theorem insert_carried {id : Txid} {old info : BTCPendingInfo}
    (hold : pendings.lookup id = some old) (hcarries : Carries host old info) :
    pendingTotal f (pendings.insert id info) = pendingTotal f pendings := by
  have hreplace := FiniteMap.total_replace (f := fun _ info ↦ f info) info hold
  have hsame := hf.carries hcarries
  unfold pendingTotal
  omega

theorem insert_refund {id : Txid} {info : BTCPendingInfo} (hfresh : pendings.lookup id = none)
    (hrefund : info.state.isRefund = true) :
    pendingTotal f (pendings.insert id info) = pendingTotal f pendings := by
  have hinsert := FiniteMap.total_insert_new (f := fun _ info ↦ f info) info hfresh
  have hnone := hf.refund hrefund
  unfold pendingTotal
  omega

theorem erase_refund {id : Txid} {info : BTCPendingInfo} (hinfo : pendings.lookup id = some info)
    (hrefund : info.state.isRefund = true) :
    pendingTotal f (pendings.erase id) = pendingTotal f pendings := by
  have herase := FiniteMap.total_erase (f := fun _ info ↦ f info) hinfo
  have hnone := hf.refund hrefund
  unfold pendingTotal
  omega

theorem replace {id : Txid} {o o' info : BTCPendingInfo} {payee : Option String} {extra : ℕ}
    (h : Replaces host l id o o' info payee extra) :
    pendingTotal f ((l.pendings.insert id o').insert info.btcPendingId info) =
      pendingTotal f l.pendings := by
  have hfresh : (l.pendings.insert id o').lookup info.btcPendingId = none := by
    rw [AList.lookup_insert_ne h.id_ne.symm]
    exact h.fresh
  have hinsert := FiniteMap.total_insert_new (f := fun _ info ↦ f info) info hfresh
  have hchild := hf.child h.states.2.2.1
  have hcarried := hf.insert_carried h.original h.carries
  unfold pendingTotal at hcarried ⊢
  omega

/-- What is dropped was no original. -/
theorem discard {ids : List Txid} {rest : FiniteMap Txid BTCPendingInfo}
    {infos : List BTCPendingInfo} (htakes : FiniteMap.takeAll pendings ids = some (rest, infos))
    (hdroppable : ∀ info ∈ infos, Droppable info) :
    pendingTotal f rest = pendingTotal f pendings := by
  have htotal : pendingTotal f pendings = (infos.map f).sum + pendingTotal f rest :=
    FiniteMap.total_takeAll htakes
  have hnone : (infos.map f).sum = 0 := by
    refine List.sum_eq_zero fun n hn ↦ ?_
    obtain ⟨info, hinfo, rfl⟩ := List.mem_map.mp hn
    rcases hdroppable info hinfo with ⟨hchild, _⟩ | hrefund
    · obtain ⟨root, hroot⟩ := Option.ne_none_iff_exists'.mp hchild
      exact hf.child hroot
    · exact hf.refund hrefund
  omega

/-- Settling a family takes out what its original has. -/
theorem settle {txId : Txid} {info o : BTCPendingInfo} {tx : Transaction}
    (h : Commits l txId info o tx) :
    pendingTotal f ((l.pendings.erase (info.root txId)).erase txId) + f o =
      pendingTotal f l.pendings := by
  have hroot := FiniteMap.total_erase (f := fun _ info ↦ f info) h.original
  unfold pendingTotal
  cases hchild : info.state.originalTxId with
  | none =>
    rw [BTCPendingInfo.root_of_original hchild] at hroot ⊢
    rw [FiniteMap.erase_erase_self]
    omega
  | some root =>
    rw [BTCPendingInfo.root_of_child hchild] at hroot ⊢
    by_cases hid : txId = root
    · rw [hid, FiniteMap.erase_erase_self]
      omega
    · have hpending : (l.pendings.erase root).lookup txId = some info := by
        rw [AList.lookup_erase_ne hid]
        exact h.pending
      have htxId := FiniteMap.total_erase (f := fun _ info ↦ f info) hpending
      have hnone := hf.child hchild
      omega

end ReadsOriginals

end SatoshiBridge
