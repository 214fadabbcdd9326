import SatoshiBridge.Invariants.Burns
import SatoshiBridge.Model.SampleRun

/-!
# Burn callbacks

The tokens are burnt before the callback runs. When the light client attests one transaction of a
family at most, the callback settles the family after a successful burn, and takes the transaction
back to the verify stage after a failed one. A coin that is registered again lets a transaction
change its kind under a burn, and then the callback panics.
-/

set_option autoImplicit false
set_option relaxedAutoImplicit false

namespace SatoshiBridge

variable {host : Host} {c : Contract} {inflight : Multiset Promise} {log : List Mark} {txId : Txid}
  {info o : BTCPendingInfo} {withdraw : Bool}

/-! ### Nothing panics -/

theorem registerChange_of_settleable (laws : host.ReadsAddresses) (hkeyed : c.Keyed host)
    (h : (c.ledger inflight log).Settleable txId withdraw info o) :
    ∃ utxos change, c.registerChange host info txId = some ({ c with utxos := utxos }, change) := by
  obtain ⟨signed, hsigned⟩ := Option.ne_none_iff_exists'.mp h.signed
  have htx : info.getTransaction = some signed.tx := by
    rw [BTCPendingInfo.getTransaction, hsigned]
    rfl
  have hchange := hkeyed.getChangeScriptPubkey_of_ready laws h.ready
  rw [Contract.registerChange, htx, Option.bind_eq_bind, Option.bind_some, hchange]
  exact ⟨_, _, rfl⟩

theorem removeFromVerifyList_of_mem {accountId : AccountId} (h : accountId ∈ c.accounts)
    (id : Txid) : ∃ accounts,
      c.removeFromVerifyList accountId id = some { c with accounts := accounts } := by
  obtain ⟨account, haccount⟩ := FiniteMap.mem_iff_lookup.mp h
  rw [Contract.removeFromVerifyList, Contract.internalUnwrapMutAccount, haccount]
  exact ⟨_, rfl⟩

theorem releaseReserved_of_le {reserved used : ℕ} (hreserved : reserved ≤ c.curReservedProtocolFee)
    (hused : used ≤ reserved) :
    ∃ c', c.releaseReserved reserved used = some c' ∧ c'.btcPendingInfos = c.btcPendingInfos := by
  rw [Contract.releaseReserved, checkedSub_of_le hreserved, checkedSub_of_le hused]
  exact ⟨_, rfl, rfl⟩

/-- What a withdrawal uses of a reservation is computed without underflow. -/
theorem usedReserved_eq (hrelated : info.state.isWithdrawRelated = true)
    (hfee : info.withdrawFee ≤ info.transferAmount) :
    Contract.usedReserved info = some info.usage := by
  unfold Contract.usedReserved BTCPendingInfo.usage
  cases hstate : info.state with
  | withdrawCancelRbf =>
    rw [checkedSub_of_le hfee]
    rfl
  | withdrawOriginal | withdrawUserRbf => rfl
  | activeUtxoManagementOriginal | activeUtxoManagementRbf | activeUtxoManagementCancelRbf
  | refund =>
    rw [hstate] at hrelated
    cases hrelated

/-- A withdrawal releases what its original reserved. -/
theorem releaseIfPositive_of_le {reserved used : ℕ}
    (hreserved : reserved ≤ c.curReservedProtocolFee) (hused : used ≤ reserved) :
    ∃ c', (if 0 < reserved then c.releaseReserved reserved used else some c) = some c' ∧
      c'.btcPendingInfos = c.btcPendingInfos := by
  by_cases hpositive : 0 < reserved
  · rw [if_pos hpositive]
    exact releaseReserved_of_le hreserved hused
  · rw [if_neg hpositive]
    exact ⟨c, rfl, rfl⟩

/-! ### Families -/

/-- The confirmed transaction is the only one of the two that is left. -/
structure Contract.OriginalGone (c : Contract) (txId : Txid) (info : BTCPendingInfo) : Prop where
  pending : c.btcPendingInfos.lookup txId = some info
  original : info.root txId ≠ txId → c.btcPendingInfos.lookup (info.root txId) = none

/-- An original is in a state that keeps account of its family. -/
theorem Ledger.Settleable.originalState {l : Ledger} (h : l.Settleable txId withdraw info o) :
    ∃ s, o.state.originalState = some s := by
  have hchild := h.originalTxId
  have hrefund := h.originalNotRefund
  cases hstate : o.state with
  | withdrawOriginal s | activeUtxoManagementOriginal s => exact ⟨s, rfl⟩
  | withdrawUserRbf | withdrawCancelRbf | activeUtxoManagementRbf
  | activeUtxoManagementCancelRbf =>
    rw [hstate] at hchild
    cases hchild
  | refund =>
    rw [hstate] at hrefund
    cases hrefund

/-- A confirmed transaction without an original is one. -/
theorem Ledger.Settleable.eq_of_original {l : Ledger} (h : l.Settleable txId withdraw info o)
    (horiginal : info.state.originalTxId = none) : o = info := by
  have ho := h.original
  rw [BTCPendingInfo.root_of_original horiginal, h.pending, Option.some.injEq] at ho
  exact ho.symm

/-- A replacement is not its own original. -/
theorem Ledger.Settleable.ne_of_child {l : Ledger} {root : Txid}
    (h : l.Settleable txId withdraw info o) (hchild : info.state.originalTxId = some root) :
    txId ≠ root := by
  intro hid
  have ho := h.original
  rw [BTCPendingInfo.root_of_child hchild, ← hid, h.pending, Option.some.injEq] at ho
  rw [ho, h.originalTxId] at hchild
  cases hchild

/-- When the original of a replacement is removed, the replacement is left. -/
theorem Ledger.Settleable.originalGone {root : Txid}
    (h : (c.ledger inflight log).Settleable txId withdraw info o)
    (hchild : info.state.originalTxId = some root) {c' : Contract}
    (hpendings : c'.btcPendingInfos = c.btcPendingInfos.erase root) :
    c'.OriginalGone txId info where
  pending := by
    rw [hpendings, AList.lookup_erase_ne (h.ne_of_child hchild)]
    exact h.pending
  original := by
    intro _
    rw [hpendings, BTCPendingInfo.root_of_child hchild]
    exact AList.lookup_erase _ _

theorem Ledger.Settleable.isOriginal (h : (c.ledger inflight log).Settleable txId withdraw info o)
    (horiginal : info.state.originalTxId = none) {c' : Contract}
    (hpendings : c'.btcPendingInfos = c.btcPendingInfos) : c'.OriginalGone txId info where
  pending := by
    rw [hpendings]
    exact h.pending
  original := fun hne ↦ absurd (BTCPendingInfo.root_of_original horiginal txId) hne

theorem settleWithdraw_of_settleable
    (h : (c.ledger inflight log).Settleable txId true info o) :
    ∃ c', c.settleWithdraw info txId = some c' ∧ c'.OriginalGone txId info := by
  obtain ⟨s, hs⟩ := h.originalState
  have hreservation := BTCPendingInfo.reservation_of_withdraw hs h.originalRelated
  have hreserved : s.cancelRbfReserved.getD 0 ≤ c.curReservedProtocolFee :=
    hreservation ▸ h.reserved
  have hused : info.usage ≤ s.cancelRbfReserved.getD 0 := hreservation ▸ h.usage
  have husage := usedReserved_eq h.related (h.fee rfl)
  cases hchild : info.state.originalTxId with
  | some root =>
    have ho := h.original
    rw [BTCPendingInfo.root_of_child hchild] at ho
    have hlookup : c.btcPendingInfos.lookup root = some o := ho
    have hgetter : info.getOriginalTxId = some root := hchild
    obtain ⟨accounts, haccounts⟩ := removeFromVerifyList_of_mem
      (c := { c with rbfTxs := c.rbfTxs.erase root }) h.account root
    obtain ⟨c', hrelease, hpendings⟩ := releaseIfPositive_of_le
      (c := { c with
        rbfTxs := c.rbfTxs.erase root
        accounts := accounts
        btcPendingInfos := c.btcPendingInfos.erase root }) hreserved hused
    refine ⟨c', ?_, h.originalGone hchild hpendings⟩
    simp only [Contract.settleWithdraw, hgetter, haccounts, Contract.internalRemoveBtcPendingInfo,
      hlookup, BTCPendingInfo.getCancelRbfReserved, hs, husage, Option.bind_eq_bind,
      Option.bind_some]
    exact hrelease
  | none =>
    have hgetter : info.getOriginalTxId = none := hchild
    rw [h.eq_of_original hchild] at hs
    obtain ⟨accounts, haccounts⟩ := removeFromVerifyList_of_mem (c := c) h.account txId
    obtain ⟨c', hrelease, hpendings⟩ := releaseIfPositive_of_le
      (c := { c with
        accounts := accounts
        rbfTxs := c.rbfTxs.erase txId }) hreserved (Nat.zero_le _)
    refine ⟨c', ?_, h.isOriginal hchild hpendings⟩
    simp only [Contract.settleWithdraw, hgetter, haccounts, BTCPendingInfo.getCancelRbfReserved,
      hs, Option.bind_eq_bind, Option.bind_some]
    exact hrelease

theorem settleActiveUtxoManagement_of_settleable (hrefund : info.state.isRefund = false)
    (h : (c.ledger inflight log).Settleable txId false info o) :
    ∃ c', c.settleActiveUtxoManagement info txId = some c' ∧ c'.OriginalGone txId info := by
  obtain ⟨s, hs⟩ := h.originalState
  have hreservation := BTCPendingInfo.reservation_of_active hs h.originalRelated
  have hreserved : s.maxGasFee ≤ c.curReservedProtocolFee := hreservation ▸ h.reserved
  have hused : info.burnAmount ≤ s.maxGasFee := by
    rw [← BTCPendingInfo.usage_of_active h.related hrefund, ← hreservation]
    exact h.usage
  cases hchild : info.state.originalTxId with
  | some root =>
    have ho := h.original
    rw [BTCPendingInfo.root_of_child hchild] at ho
    have hlookup : c.btcPendingInfos.lookup root = some o := ho
    have hgetter : info.getOriginalTxId = some root := hchild
    obtain ⟨accounts, haccounts⟩ := removeFromVerifyList_of_mem
      (c := { c with rbfTxs := c.rbfTxs.erase root }) h.account root
    obtain ⟨c', hrelease, hpendings⟩ := releaseReserved_of_le
      (c := { c with
        rbfTxs := c.rbfTxs.erase root
        accounts := accounts
        btcPendingInfos := c.btcPendingInfos.erase root }) hreserved hused
    refine ⟨c', ?_, h.originalGone hchild hpendings⟩
    simp only [Contract.settleActiveUtxoManagement, hgetter, haccounts,
      Contract.internalRemoveBtcPendingInfo, hlookup, BTCPendingInfo.getMaxGasFee, hs,
      Option.bind_eq_bind, Option.bind_some]
    exact hrelease
  | none =>
    have hgetter : info.getOriginalTxId = none := hchild
    rw [h.eq_of_original hchild] at hs
    obtain ⟨accounts, haccounts⟩ := removeFromVerifyList_of_mem (c := c) h.account txId
    obtain ⟨c', hrelease, hpendings⟩ := releaseReserved_of_le
      (c := { c with accounts := accounts }) hreserved hused
    refine ⟨{ c' with rbfTxs := c'.rbfTxs.erase txId }, ?_, h.isOriginal hchild hpendings⟩
    simp only [Contract.settleActiveUtxoManagement, hgetter, haccounts,
      BTCPendingInfo.getMaxGasFee, hs, hrelease, Option.bind_eq_bind, Option.bind_some]

/-! ### The callbacks -/

/-- Registering change leaves everything a family is settled with. -/
theorem Ledger.Settleable.withUtxos (h : (c.ledger inflight log).Settleable txId withdraw info o)
    (utxos : FiniteMap OutPoint UTXO) :
    (({ c with utxos := utxos } : Contract).ledger inflight log).Settleable txId withdraw info o :=
  ⟨h.pending, h.original, h.signed, h.ready, h.owner, h.account, h.related, h.originalRelated,
    h.originalTxId, h.originalNotRefund, h.usage, h.reserved, h.fee⟩

/-- What the callback of a burn leaves of a transaction and its original: both are gone after a
success, and the transaction is in the verify stage after a failure. -/
def Contract.Answered (c : Contract) (txId : Txid) (info : BTCPendingInfo)
    (result : PromiseResult) :
    Prop :=
  if result.isSuccess = true then
    c.btcPendingInfos.lookup txId = none ∧ c.btcPendingInfos.lookup (info.root txId) = none
  else c.btcPendingInfos.lookup txId = some info.toPendingVerifyStage

/-- The transaction itself is removed last. -/
theorem Contract.OriginalGone.removed (h : c.OriginalGone txId info) :
    (c.btcPendingInfos.erase txId).lookup txId = none ∧
      (c.btcPendingInfos.erase txId).lookup (info.root txId) = none := by
  refine ⟨AList.lookup_erase _ _, ?_⟩
  by_cases hroot : info.root txId = txId
  · rw [hroot]
    exact AList.lookup_erase _ _
  · rw [AList.lookup_erase_ne hroot]
    exact h.original hroot

theorem burnFailed_answered {result : PromiseResult} (hfailed : ¬result.isSuccess = true) :
    (c.burnFailed info txId).contract.Answered txId info result := by
  rw [Contract.Answered, if_neg hfailed]
  exact AList.lookup_insert _

/-! ### What does not fit -/

/-- What the callback of a burn adds up: the collected fees, and what a confirmed cancellation does
not give back. -/
def Contract.sums (c : Contract) : Promise → List ℕ
  | .withdrawBurn _ _ _ _ _ txId protocolFee =>
    (c.accCollectedProtocolFee + protocolFee) ::
      ((c.btcPendingInfos.lookup txId).toList.filter (·.state.isWithdrawCancelRbf)).map
        fun info ↦ info.withdrawFee + info.burnAmount
  | _ => []

/-- These sums are `u128`s. -/
def Contract.SumsFit (c : Contract) (p : Promise) : Prop := ∀ n ∈ c.sums p, n < 2 ^ 128

instance (c : Contract) (p : Promise) : Decidable (c.SumsFit p) :=
  inferInstanceAs (Decidable (∀ n ∈ c.sums p, n < 2 ^ 128))

theorem sumsFit_withdrawBurn {token account relayer : AccountId}
    {amount relayerFee protocolFee : ℕ} :
    c.SumsFit (.withdrawBurn token account amount relayer relayerFee txId protocolFee) ↔
      c.accCollectedProtocolFee + protocolFee < 2 ^ 128 ∧
        ∀ info ∈ c.btcPendingInfos.lookup txId, info.state.isWithdrawCancelRbf = true →
          info.withdrawFee + info.burnAmount < 2 ^ 128 := by
  unfold Contract.SumsFit Contract.sums
  simp only [List.forall_mem_cons, List.forall_mem_map, List.mem_filter, Option.mem_toList,
    Option.mem_def, and_imp]

/-- Settling a family collects no fee, and what is available was collected. -/
theorem Settles.room {c' : Contract} {reserved used : OriginalState → ℕ} {fee : ℕ}
    (h : Settles c info txId reserved used c') (hbalanced : c.fees.Balanced) :
    c'.fees.HasRoom fee ↔ c.accCollectedProtocolFee + fee < 2 ^ 128 := by
  obtain ⟨_, s, fees, _, _, _, _, _, hreleases, _, _, rfl⟩ := h.settles
  have hcollected : fees.collected = c.accCollectedProtocolFee := hreleases.collected
  have hsettled := hreleases.balanced hbalanced
  constructor
  · intro hroom
    have hfit : fees.collected + fee < 2 ^ 128 := hroom.collected
    omega
  · intro hfit
    unfold Fees.Balanced at hsettled
    constructor
    · change fees.collected + fee < 2 ^ 128
      omega
    · change fees.available + fee < 2 ^ 128
      omega

theorem verifyWithdrawBurnCallback_answers (laws : host.ReadsAddresses) (hkeyed : c.Keyed host)
    (h : (c.ledger inflight log).Settleable txId true info o) (hbalanced : c.fees.Balanced)
    {protocolFee : ℕ} (hroom : c.accCollectedProtocolFee + protocolFee < 2 ^ 128)
    (hsum : info.state.isWithdrawCancelRbf = true → info.withdrawFee + info.burnAmount < 2 ^ 128)
    (result : PromiseResult) :
    ∃ receipt, c.verifyWithdrawBurnCallback host result txId protocolFee = some receipt ∧
      receipt.contract.Answered txId info result := by
  have hinfo : c.btcPendingInfos.lookup txId = some info := h.pending
  have hassert : Contract.assertCancelRefund info = some () := require_eq_some.mpr hsum
  by_cases hsuccess : result.isSuccess = true
  · obtain ⟨utxos, change, hregister⟩ := registerChange_of_settleable laws hkeyed h
    obtain ⟨c', hsettle, hgone⟩ := settleWithdraw_of_settleable (h.withUtxos utxos)
    have hsettles := settleWithdraw_spec hsettle hinfo
    have hcollect := collectIfPositive_eq_some.mpr
      ⟨fun _ ↦ (hsettles.room hbalanced).mpr hroom, rfl⟩
    have hlookup : (c'.collected protocolFee).btcPendingInfos.lookup txId = some info :=
      hgone.pending
    simp only [Contract.verifyWithdrawBurnCallback, Contract.internalUnwrapBtcPendingInfo, hinfo,
      hassert, hsuccess, hregister, hsettle, hcollect, Contract.internalRemoveBtcPendingInfo,
      hlookup, Option.bind_eq_bind, Option.bind_some, if_true]
    refine ⟨_, rfl, ?_⟩
    rw [Contract.Answered, if_pos hsuccess]
    exact hgone.removed
  · simp only [Contract.verifyWithdrawBurnCallback, Contract.internalUnwrapBtcPendingInfo, hinfo,
      hassert, if_neg hsuccess, Option.bind_eq_bind, Option.bind_some]
    exact ⟨_, rfl, burnFailed_answered hsuccess⟩

/-- A burn that succeeded is settled only where the sums fit. -/
theorem verifyWithdrawBurnCallback_sumsFit {result : PromiseResult} {protocolFee : ℕ}
    {receipt : Receipt} (hbalanced : c.fees.Balanced) (hfit : c.accCollectedProtocolFee < 2 ^ 128)
    (hsuccess : result.isSuccess = true)
    (h : c.verifyWithdrawBurnCallback host result txId protocolFee = some receipt) :
    c.accCollectedProtocolFee + protocolFee < 2 ^ 128 ∧
      ∀ info ∈ c.btcPendingInfos.lookup txId, info.state.isWithdrawCancelRbf = true →
        info.withdrawFee + info.burnAmount < 2 ^ 128 := by
  cases verifyWithdrawBurnCallback_inv h with
  | burnt _ _ _ info _ _ _ hinfo hassert hregister hsettle hroom _ =>
    constructor
    · obtain ⟨_, _, _, _, _, rfl⟩ := registerChange_inv hregister
      rcases Nat.eq_zero_or_pos protocolFee with rfl | hpositive
      · exact hfit
      · exact ((settleWithdraw_spec hsettle hinfo).room hbalanced).mp (hroom hpositive)
    · intro info' hinfo'
      rw [hinfo] at hinfo'
      cases hinfo'
      exact require_eq_some.mp hassert
  | failed _ hfailed _ => exact absurd hsuccess hfailed

theorem verifyActiveUtxoManagementBurnCallback_answers (laws : host.ReadsAddresses)
    (hkeyed : c.Keyed host) (hrefund : info.state.isRefund = false)
    (h : (c.ledger inflight log).Settleable txId false info o) (result : PromiseResult) :
    ∃ receipt, c.verifyActiveUtxoManagementBurnCallback host result txId = some receipt ∧
      receipt.contract.Answered txId info result := by
  have hinfo : c.btcPendingInfos.lookup txId = some info := h.pending
  by_cases hsuccess : result.isSuccess = true
  · obtain ⟨utxos, change, hregister⟩ := registerChange_of_settleable laws hkeyed h
    obtain ⟨c', hsettle, hgone⟩ :=
      settleActiveUtxoManagement_of_settleable hrefund (h.withUtxos utxos)
    simp only [Contract.verifyActiveUtxoManagementBurnCallback,
      Contract.internalUnwrapBtcPendingInfo, hinfo, hsuccess, hregister, hsettle,
      Contract.internalRemoveBtcPendingInfo, hgone.pending, Option.bind_eq_bind, Option.bind_some,
      if_true]
    refine ⟨_, rfl, ?_⟩
    rw [Contract.Answered, if_pos hsuccess]
    exact hgone.removed
  · simp only [Contract.verifyActiveUtxoManagementBurnCallback,
      Contract.internalUnwrapBtcPendingInfo, hinfo, if_neg hsuccess, Option.bind_eq_bind,
      Option.bind_some]
    exact ⟨_, rfl, burnFailed_answered hsuccess⟩

/-! ### Reachable states -/

/-- A burn in flight has a pending transaction, an original and the account of their owner, and its
callback succeeds with every answer. -/
def Contract.SettlesBurn (host : Host) (c : Contract) (p : Promise) (txId : Txid) : Prop :=
  ∃ info original, c.btcPendingInfos.lookup txId = some info ∧
    c.btcPendingInfos.lookup (info.root txId) = some original ∧
    original.accountId ∈ c.accounts ∧
    ∀ env result, ∃ receipt, c.callback host env result p = some receipt ∧
      receipt.contract.Answered txId info result

/-- The callback of a burn in flight does its work, whatever the token answers, where its sums
fit. -/
theorem Contract.settlesBurn (laws : host.Lawful) (hkeyed : c.Keyed host)
    (hreached : Ledger.Reached host Ledger.Unfinished (c.ledger inflight log))
    (honce : AttestsOnce log) {p : Promise} (hp : p ∈ inflight) (hburns : p.burns = some txId)
    (hsums : c.SumsFit p) : c.SettlesBurn host p txId := by
  have hreads := laws.toReadsAddresses
  have hsettleable {withdraw : Bool} (hsettles : p.settles = some (txId, withdraw)) :
      ∃ info o, info.state.isRefund = false ∧
        (c.ledger inflight log).Settleable txId withdraw info o :=
    hreached.settleable laws honce hp hburns hsettles
  cases p with
  | withdrawBurn token account amount relayer relayerFee id protocolFee =>
    cases hburns
    obtain ⟨info, o, _, hfamily⟩ := hsettleable rfl
    obtain ⟨hroom, hcancels⟩ := sumsFit_withdrawBurn.mp hsums
    refine ⟨info, o, hfamily.pending, hfamily.original, ?_, fun env result ↦ ?_⟩
    · rw [hfamily.owner]
      exact hfamily.account
    · exact verifyWithdrawBurnCallback_answers hreads hkeyed hfamily hreached.fees_balanced hroom
        (hcancels info hfamily.pending) result
  | activeUtxoManagementBurn token account amount relayer id =>
    cases hburns
    obtain ⟨info, o, hrefund, hfamily⟩ := hsettleable rfl
    refine ⟨info, o, hfamily.pending, hfamily.original, ?_, fun env result ↦ ?_⟩
    · rw [hfamily.owner]
      exact hfamily.account
    · exact verifyActiveUtxoManagementBurnCallback_answers hreads hkeyed hrefund hfamily result
  | _ => cases hburns

/-- The callback of a burn that succeeded panics where its sums do not fit. -/
theorem Contract.sumsFit_of_callback {Completes : Ledger → OutPoint → Prop} {env : Env}
    {p : Promise} {result : PromiseResult} {receipt : Receipt}
    (hreached : Ledger.Reached host Completes (c.ledger inflight log))
    (hsuccess : result.isSuccess = true) (h : c.callback host env result p = some receipt) :
    c.SumsFit p := by
  cases p with
  | withdrawBurn token account amount relayer relayerFee id protocolFee =>
    exact sumsFit_withdrawBurn.mpr
      (verifyWithdrawBurnCallback_sumsFit hreached.fees_balanced hreached.fees_fit hsuccess h)
  | _ => exact fun n hn ↦ absurd hn List.not_mem_nil

/-- While only deposits in progress are completed by hand and the light client attests no two
transactions of one family, the callback of every burn in flight does its work where its sums fit,
and nowhere else. -/
theorem Sys.Reachable.burns_settle (laws : host.Lawful) {s : Sys}
    (h : Reachable host unfinished s) (honce : AttestsOnce s.log) {p : Promise}
    (hp : p ∈ s.inflight) (hburns : p.burns = some txId) :
    s.contract.SettlesBurn host p txId ↔ s.contract.SumsFit p := by
  have hreads := laws.toReadsAddresses
  have hkeyed : s.contract.Keyed host := (Reachable.wellShaped hreads h).keyed
  have hreached := h.ofUnfinished hreads
  constructor
  · rintro ⟨_, _, _, _, _, hanswers⟩
    obtain ⟨receipt, hreceipt, _⟩ := hanswers ⟨"", "", 0, 0, false, false, false⟩ (.value .unit)
    exact Contract.sumsFit_of_callback hreached rfl hreceipt
  · intro hsums
    exact Contract.settlesBurn laws hkeyed hreached honce (Multiset.mem_coe.mpr hp) hburns hsums

/-! ### Samples -/

namespace Sample

/-- The withdrawal of Alice is attested. -/
def attestedWithdrawal : List Action :=
  signedWithdrawal ++
    [.call (env "relayer" 5 0) (.verifyWithdrawV2 2), .callback 0 (env bridge 5 0) confirmed]

/-- The DAO spends the coin of Alice, verified twice; one of the two is answered and burnt. The
coin is registered again, Alice withdraws it as the DAO did, and the other answer comes when the
withdrawal is signed. -/
def withdrawnLater : List Action :=
  donate 10 ++ sync ++ deposit aliceMsg 0 ++ manage ++
    [.call (env "relayer" 7 0) (.signBtcTransaction 2 0 0),
      .callback 0 (env bridge 7 0) signed,
      .call (env "relayer" 8 0) (.verifyWithdrawV2 2),
      .call (env "relayer" 8 0) (.verifyWithdrawV2 2),
      .callback 0 (env bridge 8 0) confirmed,
      .callback 1 (env bridge 8 0) done,
      .call (env "dao" 9 1) (.completeFailedDepositMint aliceMsg (.full [0]) 0 0),
      .call (env "nbtc" 9 0) (.ftOnTransfer "alice" 1000
        (.withdraw bridge [⟨0, 0⟩] [⟨990, Numbering.word 0⟩] none none)),
      .call (env "relayer" 10 0) (.signBtcTransaction 2 0 0),
      .callback 1 (env bridge 10 0) signed,
      .callback 0 (env bridge 11 0) confirmed]

end Sample

/-- The light client attested no two transactions of one family when it attested one transaction
only, however often. -/
theorem AttestsOnce.of_replicate {log : List Mark} (n : ℕ) (txId root : Txid)
    (h : attestations log = List.replicate n (txId, root)) : AttestsOnce log := by
  intro root' id id' hid hid'
  rw [h] at hid hid'
  have hsame := List.eq_of_mem_replicate hid
  have hsame' := List.eq_of_mem_replicate hid'
  rw [Prod.mk.injEq] at hsame hsame'
  exact hsame.1.trans hsame'.1.symm

/-- The burn of the withdrawal of Alice. -/
theorem burns_settle_withdrawal :
    ∃ s p, Sample.after Sample.attestedWithdrawal = some s ∧ p ∈ s.inflight ∧ p.burns = some 2 ∧
      s.contract.SumsFit p ∧ s.contract.SettlesBurn (Sample.host false) p 2 := by
  have hrun : (Sample.after Sample.attestedWithdrawal).map
      (fun s ↦ (s.inflight.map (fun p ↦ (p.burns, decide (s.contract.SumsFit p))),
        attestations s.log)) = some ([(some 2, true)], [(2, 2)]) := by
    decide +kernel
  obtain ⟨s, hs, heq⟩ := Option.map_eq_some_iff.mp hrun
  rw [Prod.mk.injEq] at heq
  have hmem : (some 2, true) ∈
      s.inflight.map (fun p ↦ (p.burns, decide (s.contract.SumsFit p))) := by
    rw [heq.1]
    exact List.mem_singleton_self _
  obtain ⟨p, hp, hburn⟩ := List.mem_map.mp hmem
  obtain ⟨hburns, hfits⟩ := Prod.mk.inj hburn
  have hsums := of_decide_eq_true hfits
  have honce : AttestsOnce s.log := .of_replicate 1 2 2 heq.2
  have hreach : Sys.Reachable (Sample.host false) Sys.unfinished s := Sample.reaches (by decide) hs
  exact ⟨s, p, hs, hp, hburns, hsums,
    (hreach.burns_settle (Sample.host_lawful false) honce hp hburns).mpr hsums⟩

/-- The burn is answered as one of active management when the transaction is a withdrawal: the
reservation that the callback releases is not there. -/
theorem burn_unsettled :
    ∃ s p, Sys.Reachable (Sample.host false) Sys.always s ∧ AttestsOnce s.log ∧ p ∈ s.inflight ∧
      p.burns = some 2 ∧ ¬s.contract.SettlesBurn (Sample.host false) p 2 := by
  have hrun : (Sample.after Sample.withdrawnLater).map (fun s ↦
      (s.inflight.map (fun p ↦ (p.burns, (s.contract.callback (Sample.host false)
        (Sample.env Sample.bridge 12 0) Sample.done p).isSome)), attestations s.log)) =
      some ([(some 2, false)], [(2, 2), (2, 2)]) := by
    decide +kernel
  obtain ⟨s, hs, heq⟩ := Option.map_eq_some_iff.mp hrun
  rw [Prod.mk.injEq] at heq
  have hmem : (some 2, false) ∈ s.inflight.map (fun p ↦ (p.burns,
      (s.contract.callback (Sample.host false) (Sample.env Sample.bridge 12 0)
        Sample.done p).isSome)) := by
    rw [heq.1]
    exact List.mem_singleton_self _
  obtain ⟨p, hp, hpanics⟩ := List.mem_map.mp hmem
  rw [Prod.mk.injEq] at hpanics
  have honce : AttestsOnce s.log := .of_replicate 2 2 2 heq.2
  refine ⟨s, p, Sample.reachesAlways hs, honce, hp, hpanics.1, fun hsettles ↦ ?_⟩
  obtain ⟨info, original, _, _, _, hanswers⟩ := hsettles
  obtain ⟨receipt, hreceipt, _⟩ := hanswers (Sample.env Sample.bridge 12 0) Sample.done
  rw [hreceipt] at hpanics
  cases hpanics.2

end SatoshiBridge
