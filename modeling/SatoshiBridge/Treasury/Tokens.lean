import SatoshiBridge.Treasury.Coins

/-!
# The tokens cover the promises

How a step moves what the bridge owes against the tokens that come with it. What is burnt for a
family, the fee of its withdrawal and what a cancellation gives back are together what the user sent
and what the cancellation uses of the reserved fees.
-/

set_option autoImplicit false
set_option relaxedAutoImplicit false

namespace SatoshiBridge

variable {host : Host} {Completes : Ledger → OutPoint → Prop} {cause : Cause} {l l' : Ledger}

/-! ### What a confirmation costs -/

/-- The cost of a confirmation is what the user sent and what it uses of a reservation. -/
theorem Payment.debit_le {chain : Chain} {payee : Option String} {info : BTCPendingInfo}
    (h : Payment host chain payee info) (hrefund : info.state.isRefund = false)
    (hfee : info.state.isWithdrawRelated = true → info.withdrawFee ≤ info.transferAmount) :
    Contract.cancelRefund info + info.debit ≤
      (if info.state.isWithdrawRelated then info.transferAmount else 0) + info.usage := by
  obtain ⟨_, hkind⟩ := h
  unfold Contract.cancelRefund BTCPendingInfo.debit BTCPendingInfo.usage
  cases hstate : info.state <;> rw [hstate] at hkind hfee hrefund
  case withdrawOriginal | withdrawUserRbf =>
    have hburn := hkind.1
    change 0 + (info.burnAmount + info.withdrawFee) ≤ info.transferAmount + 0
    omega
  case withdrawCancelRbf =>
    have hfee := hfee rfl
    change info.transferAmount - (info.withdrawFee + info.burnAmount) +
      (info.burnAmount + info.withdrawFee) ≤
        info.transferAmount + (info.burnAmount - (info.transferAmount - info.withdrawFee))
    omega
  case activeUtxoManagementOriginal | activeUtxoManagementRbf | activeUtxoManagementCancelRbf =>
    change 0 + (info.burnAmount + 0) ≤ 0 + info.burnAmount
    omega
  case refund => cases hrefund

/-- The escrow of an original of a withdrawal is what the user sent. -/
theorem BTCPendingInfo.escrow_of_original {o : BTCPendingInfo} (h : o.state.originalTxId = none) :
    o.escrow = if o.state.isWithdrawRelated then o.transferAmount else 0 := by
  unfold escrow
  cases hstate : o.state with
  | withdrawUserRbf | withdrawCancelRbf =>
    rw [hstate] at h
    cases h
  | _ => rfl

/-- The cost of a confirmation is in the escrow and in the reservation of the original. -/
theorem Ledger.Reached.debit_le (laws : host.Lawful)
    (h : Ledger.Reached host Ledger.Unfinished l) {id : Txid} {info o : BTCPendingInfo}
    (hinfo : l.pendings.lookup id = some info) (hrefund : info.state.isRefund = false)
    (ho : l.pendings.lookup (info.root id) = some o) :
    Contract.cancelRefund info + info.debit ≤ o.escrow + info.usage ∧
      info.usage ≤ o.reservation := by
  have hpaying : l.Paying host := h.paying laws.toReadsAddresses
  obtain ⟨payee, ⟨_, hpayment⟩, _⟩ := hpaying id info hinfo
  cases hchild : info.state.originalTxId with
  | none =>
    have hsame := ho
    rw [BTCPendingInfo.root_of_original hchild, hinfo, Option.some.injEq] at hsame
    rw [← hsame, BTCPendingInfo.escrow_of_original hchild]
    exact ⟨hpayment.debit_le hrefund fun hrelated ↦ hpaying.withdrawFee_le hinfo hrelated hchild,
      (h.prepared laws).usage id info hinfo hchild⟩
  | some root =>
    rw [BTCPendingInfo.root_of_child hchild] at ho
    have hof := (h.staged laws).family id info root o hinfo hchild ho
    have hcovers := h.covered laws id info root o hinfo hchild ho
    have hdebit := hpayment.debit_le hrefund fun hrelated ↦ by
      rw [hcovers.withdrawFee, hcovers.transferAmount]
      exact hpaying.withdrawFee_le ho (hcovers.related.symm.trans hrelated) hof.original
    rw [hcovers.related, hcovers.transferAmount] at hdebit
    rw [BTCPendingInfo.escrow_of_original hof.original]
    exact ⟨hdebit, hcovers.usage⟩

/-- The callback of a withdrawal uses what its transaction uses. -/
theorem withdrawUsage_eq {info : BTCPendingInfo} {reserved : ℕ}
    (hrelated : info.state.isWithdrawRelated = true) (h : info.usage ≤ reserved) :
    withdrawUsage info reserved = info.usage := by
  unfold withdrawUsage
  unfold BTCPendingInfo.usage at h ⊢
  cases hstate : info.state with
  | withdrawOriginal | withdrawUserRbf =>
    rw [if_neg (by simp [PendingInfoState.isWithdrawCancelRbf])]
  | withdrawCancelRbf =>
    rw [hstate] at h
    dsimp only at h ⊢
    split
    · rfl
    · rename_i hnone
      simp only [PendingInfoState.isWithdrawCancelRbf, and_true] at hnone
      omega
  | activeUtxoManagementOriginal | activeUtxoManagementRbf | activeUtxoManagementCancelRbf
  | refund =>
    rw [hstate] at hrelated
    cases hrelated

/-! ### Settled families -/

section Settle

variable {p : Promise} {txId : Txid} {withdraw : Bool} {info o : BTCPendingInfo} {tx : Transaction}
  {s : OriginalState} {fees : Fees}
  (laws : host.Lawful) (hreached : Ledger.Reached host Ledger.Unfinished (cause.before l))
  (hcommits : Commits l txId info o tx) (hstate : o.state.originalState = some s)

include laws hreached hcommits hstate

/-- A family is settled by the callback for its kind. -/
theorem Commits.related (hp : p ∈ cause.taken) (hsettles : p.settles = some (txId, withdraw)) :
    info.state.isWithdrawRelated = withdraw ∧ o.state.isWithdrawRelated = withdraw := by
  have hsorted := hreached.sorted laws p (Multiset.mem_add.mpr (Or.inl hp)) txId withdraw hsettles
  have horiginal := hsorted.original (hreached.spending laws) hreached.identified hcommits.pending
    (hcommits.isRefund hstate) hcommits.original
  obtain ⟨_, _, _, hinfos, _⟩ := hsorted
  exact ⟨hinfos info hcommits.pending, horiginal⟩

/-- The callback of a withdrawal uses what its transaction uses. -/
theorem Commits.withdrawUsage_eq (hp : p ∈ cause.taken) (hsettles : p.settles = some (txId, true)) :
    withdrawUsage info (s.cancelRbfReserved.getD 0) = info.usage := by
  obtain ⟨hrelated, horiginal⟩ := hcommits.related laws hreached hstate hp hsettles
  have husage := (hreached.debit_le laws hcommits.pending (hcommits.isRefund hstate)
    hcommits.original).2
  rw [BTCPendingInfo.reservation_of_withdraw hstate horiginal] at husage
  exact SatoshiBridge.withdrawUsage_eq hrelated husage

/-- The callback of active management uses what its transaction uses. -/
theorem Commits.burnAmount_eq (hp : p ∈ cause.taken) (hsettles : p.settles = some (txId, false)) :
    info.burnAmount = info.usage := by
  obtain ⟨hrelated, _⟩ := hcommits.related laws hreached hstate hp hsettles
  exact (BTCPendingInfo.usage_of_active hrelated (hcommits.isRefund hstate)).symm

/-- Settling a family releases the cost of its confirmation, with what is given back. -/
theorem Commits.owes_le {amount : ℕ} (hfees : Fees.Releases amount info.usage l.fees fees) :
    (l.settle host txId info tx fees).owes + Contract.cancelRefund info + info.debit ≤ l.owes := by
  have hdebit := (hreached.debit_le laws hcommits.pending (hcommits.isRefund hstate)
    hcommits.original).1
  have horiginals : ReadsOriginals host BTCPendingInfo.escrow := readsOriginals_escrow
  have hsettled := horiginals.settle hcommits
  have havailable := hfees.available
  have hreserved := hfees.reserved
  simp only [Ledger.owes, tokensOwed, Ledger.settle]
  omega

end Settle

/-! ### One step -/

/-- What a call schedules uses the tokens that come with it at most. -/
theorem Issued.owed {env : Env} {method : Method} {p : Promise} (h : Issued host env method l p) :
    p.owed .waiting = (p.brings.map Prod.snd).getD 0 := by
  cases p with
  | burnDetached | transferNbtc | withdrawProtocolFee => exact h.elim
  | _ => rfl

theorem BurnOf.owed {token : AccountId} {info : BTCPendingInfo} {txId : Txid} {withdraw : Bool}
    {p : Promise} (h : BurnOf token info txId withdraw p) : p.owed .waiting = 0 := by
  cases h <;> rfl

theorem Mints.owed {token signer : AccountId} {info : PendingUTXOInfo} {p m : Promise}
    (h : Mints token signer info p m) : m.owed .waiting = 0 := by
  cases h <;> rfl

/-- The tokens of a failed safe mint are burnt by the bridge. -/
theorem Promise.mintRevert_owed {m : Promise} {result : PromiseResult}
    (h : m.minted result = false) (token bridge signer : AccountId) :
    ((m.mintRevert token bridge signer).map fun p ↦ p.owed .waiting).sum ≤
      m.owed (.answered result) := by
  cases m with
  | safeMint =>
    have hrefund : result.isRefundRequired = true := by simpa [Promise.minted] using h
    unfold Promise.owed
    dsimp only
    rw [if_pos hrefund]
    exact le_refl _
  | _ => exact Nat.zero_le _

/-- The fee of a successful mint is with the bridge. -/
theorem Promise.mintFee_le {m : Promise} {result : PromiseResult} (h : m.minted result = true) :
    m.mintFee ≤ m.owed (.answered result) := by
  cases m with
  | mint =>
    have hsuccess : (Stage.answered result).succeeded = true := h
    unfold Promise.owed
    dsimp only
    rw [if_pos hsuccess]
    exact le_refl _
  | _ => exact Nat.zero_le _

/-- The tokens an original keeps came with it. -/
theorem CreatesOriginal.escrow_le {info : BTCPendingInfo} {payee : Option String}
    {rest : FiniteMap OutPoint UTXO} (h : CreatesOriginal host l info payee rest)
    (hbuilds : cause.Builds info.incoming) : info.escrow ≤ cause.owed := by
  rw [BTCPendingInfo.escrow_of_original h.originalTxId]
  by_cases hrelated : info.state.isWithdrawRelated = true
  · rw [if_pos hrelated]
    unfold BTCPendingInfo.incoming at hbuilds
    rw [if_pos hrelated] at hbuilds
    cases cause with
    | call env method =>
      have hbrings : method.brings = _ := hbuilds
      rw [Cause.owed, hbrings]
      exact le_refl _
    | answer env p result =>
      cases p with
      | ftOnTransfer =>
        cases hbuilds
        exact le_refl _
      | activeUtxoManagement | rbf => cases hbuilds
      | _ => exact hbuilds.elim
    | lost => exact hbuilds.elim
  · rw [if_neg hrelated]
    exact Nat.zero_le _

/-- A step confirms nothing unless it settles a family. -/
theorem Cause.confirmed_eq_zero {g : BTCPendingInfo → ℕ}
    (h : ∀ p ∈ cause.taken, p.burns = none) : cause.confirmed g l = 0 := by
  cases cause with
  | call | lost => rfl
  | answer env p result =>
    have hnone : (Cause.answer env p result).confirms = none := by
      unfold Cause.confirms
      dsimp only
      rw [h p (Multiset.mem_singleton_self p), ite_self]
    rw [Cause.confirmed, hnone]
    rfl

theorem Cause.Builds.burns {incoming : Option (AccountId × ℕ)} (h : cause.Builds incoming) :
    ∀ p ∈ cause.taken, p.burns = none := by
  cases cause with
  | call => exact fun p hp ↦ absurd hp (Multiset.notMem_zero p)
  | lost => exact h.elim
  | answer env q result =>
    intro p hp
    rw [Multiset.mem_singleton.mp hp]
    cases q with
    | withdrawBurn | activeUtxoManagementBurn => exact h.elim
    | _ => rfl

theorem Cause.Ignored.burns (h : cause.Ignored) : ∀ p ∈ cause.taken, p.burns = none := by
  cases cause with
  | call => exact fun p hp ↦ absurd hp (Multiset.notMem_zero p)
  | lost => exact h.elim
  | answer env q result =>
    intro p hp
    rw [Multiset.mem_singleton.mp hp]
    cases q with
    | withdrawBurn | activeUtxoManagementBurn => exact h.elim
    | _ => rfl

theorem Promise.burns_of_mintInfo {m : Promise} {info : PendingUTXOInfo}
    (h : m.mintInfo = some info) : m.burns = none := by
  cases m with
  | withdrawBurn | activeUtxoManagementBurn => cases h
  | _ => rfl

theorem Promise.burns_of_verifies {p : Promise} {txId : Txid} {withdraw : Bool}
    (h : p.verifies = some (txId, withdraw)) : p.burns = none := by
  cases p with
  | withdrawBurn | activeUtxoManagementBurn => cases h
  | _ => rfl

section Step

variable (laws : host.Lawful) (hreached : Ledger.Reached host Ledger.Unfinished (cause.before l))

include laws hreached

/-- A step takes on no more than the tokens that come with it, and a confirmation takes what it
costs off. -/
theorem Effect.owes_le (h : Effect host Ledger.Nowhere cause l l') :
    l'.owes + l'.waiting Promise.owed + cause.confirmed BTCPendingInfo.debit l ≤
      l.owes + l.waiting Promise.owed + cause.owed := by
  have horiginals : ReadsOriginals host BTCPendingInfo.escrow := readsOriginals_escrow
  cases h with
  | complete env method key utxo fee accounts hbrings hguard => exact hguard.elim
  | issue env method p hissued hbrings =>
    have howed := hissued.owed
    rw [← hbrings] at howed
    simp only [Ledger.owes, Ledger.waiting, Multiset.map_cons, Multiset.sum_cons, Cause.owed,
      Cause.confirmed, Cause.confirms, Option.bind_none, Option.map_none, Option.getD_none]
    omega
  | begin env p m result info hmints =>
    have howed := hmints.owed
    have hnone : p.burns = none := by
      cases hmints <;> rfl
    rw [Cause.confirmed_eq_zero fun q hq ↦ by rw [Multiset.mem_singleton.mp hq, hnone]]
    simp only [Ledger.owes, Ledger.waiting, Multiset.map_cons, Multiset.sum_cons]
    omega
  | finish env m result info accounts hinfo hminted =>
    have hfee := Promise.mintFee_le hminted
    have hnone : m.burns = none := Promise.burns_of_mintInfo hinfo
    rw [Cause.confirmed_eq_zero fun q hq ↦ by rw [Multiset.mem_singleton.mp hq, hnone]]
    simp only [Ledger.owes, tokensOwed, Fees.collect, Ledger.waiting, Cause.owed]
    omega
  | revert env m result info hinfo hminted =>
    have howed := Promise.mintRevert_owed hminted l.token host.currentAccountId env.signer
    have hnone : m.burns = none := Promise.burns_of_mintInfo hinfo
    rw [Cause.confirmed_eq_zero fun q hq ↦ by rw [Multiset.mem_singleton.mp hq, hnone]]
    simp only [Ledger.owes, Ledger.waiting, Multiset.map_add, Multiset.sum_add, Cause.owed]
    omega
  | create cause info payee rest fees accounts hcreates hfees hbuilds =>
    have hescrow := hcreates.escrow_le hbuilds
    have hinsert : pendingTotal BTCPendingInfo.escrow (l.pendings.insert info.btcPendingId info) =
        info.escrow + pendingTotal BTCPendingInfo.escrow l.pendings :=
      FiniteMap.total_insert_new _ hcreates.fresh
    have havailable := hfees.available
    have hreserved := hfees.reserved
    rw [Cause.confirmed_eq_zero hbuilds.burns]
    simp only [Ledger.owes, tokensOwed, Ledger.waiting]
    omega
  | replace cause id o o' info payee extra fees hreplaces hfees hbuilds =>
    have hsame := horiginals.replace hreplaces
    have havailable := hfees.available
    have hreserved := hfees.reserved
    rw [Cause.confirmed_eq_zero hbuilds.burns]
    simp only [Ledger.owes, tokensOwed, Ledger.waiting]
    omega
  | sign env accountId id signIndex payload path keyVersion result info info' hpending hsigns =>
    have hsame := horiginals.insert_carried hpending hsigns.carries
    rw [Cause.confirmed_eq_zero fun q hq ↦ by rw [Multiset.mem_singleton.mp hq]; rfl]
    simp only [Ledger.owes, tokensOwed, Ledger.waiting]
    omega
  | attest env p burn result txId withdraw info hverifies hpending hstage hrefund hburn =>
    have hsame := horiginals.insert_carried hpending
      (.of_state info (PendingInfoState.kind_setStage info.state .pendingBurn))
    have howed := hburn.owed
    have hnone : p.burns = none := Promise.burns_of_verifies hverifies
    rw [Cause.confirmed_eq_zero fun q hq ↦ by rw [Multiset.mem_singleton.mp hq, hnone]]
    simp only [Ledger.owes, tokensOwed, Ledger.waiting, Multiset.map_cons, Multiset.sum_cons]
    omega
  | burnFailed env p result txId info hburns hfailed hpending =>
    have hsame : pendingTotal BTCPendingInfo.escrow
        (l.pendings.insert txId info.toPendingVerifyStage) =
          pendingTotal BTCPendingInfo.escrow l.pendings :=
      horiginals.insert_carried hpending (.of_state info (PendingInfoState.kind_setStage _ _))
    simp only [Ledger.owes, tokensOwed, Ledger.waiting, Cause.confirmed, Cause.confirms, hfailed,
      Bool.false_eq_true, if_false, Option.bind_none, Option.map_none, Option.getD_none]
    omega
  | commitWithdraw env token account relayer amount relayerFee txId protocolFee result info o tx s
      fees hsuccess hcommits hstate hfees =>
    rw [hcommits.withdrawUsage_eq laws hreached hstate (Multiset.mem_singleton_self _) rfl] at hfees
    have howes := hcommits.owes_le laws hreached hstate hfees
    have hsent : ((refundTransfer l.token info).map fun p ↦ p.owed .waiting).sum =
        Contract.cancelRefund info := by
      unfold refundTransfer
      split
      · rfl
      · rename_i hnone
        rw [Nat.eq_zero_of_not_pos hnone]
        rfl
    rw [Cause.confirmed_answer rfl hsuccess hcommits.pending]
    have hfee : (Cause.answer env (.withdrawBurn token account amount relayer relayerFee txId
        protocolFee) result).owed = protocolFee := if_pos hsuccess
    simp only [Ledger.owes, tokensOwed, Fees.collect, Ledger.settle, Ledger.waiting,
      Multiset.map_add, Multiset.sum_add] at howes ⊢
    omega
  | commitActive env token account relayer amount txId result info o tx s fees hsuccess hcommits
      hstate hfees =>
    rw [hcommits.burnAmount_eq laws hreached hstate (Multiset.mem_singleton_self _) rfl] at hfees
    have howes := hcommits.owes_le laws hreached hstate hfees
    rw [Cause.confirmed_answer rfl hsuccess hcommits.pending]
    simp only [Ledger.owes, Ledger.settle, Ledger.waiting] at howes ⊢
    omega
  | discard env method ids rest infos hbrings htakes hdroppable =>
    have hsame := horiginals.discard htakes hdroppable
    simp only [Ledger.owes, tokensOwed, Ledger.waiting, Cause.confirmed, Cause.confirms,
      Option.bind_none, Option.map_none, Option.getD_none]
    omega
  | claim env method amount hbrings hentry =>
    have herase := FiniteMap.total_erase (f := fun _ amount ↦ amount) hentry
    simp only [Ledger.owes, tokensOwed, Ledger.waiting, Multiset.map_cons, Multiset.sum_cons,
      Cause.confirmed, Cause.confirms, Option.bind_none, Option.map_none, Option.getD_none]
    change _ + (amount + _) + _ ≤ _
    omega
  | transferFailed env token account amount result hfailed =>
    have hinsert := Balances.supply_insert l.lostFound account
      ((l.lostFound.lookup account).getD 0 + amount)
    have howed : (Cause.answer env (.transferNbtc token account amount) result).owed = amount :=
      if_neg (ne_true_of_eq_false hfailed)
    rw [Cause.confirmed_eq_zero fun q hq ↦ by rw [Multiset.mem_singleton.mp hq]; rfl]
    unfold Balances.supply Balances.balance at hinsert
    simp only [Ledger.owes, tokensOwed, Ledger.waiting]
    omega
  | withdrawFee env method amount hbrings hamount =>
    simp only [Ledger.owes, tokensOwed, Ledger.waiting, Multiset.map_cons, Multiset.sum_cons,
      Cause.confirmed, Cause.confirms, Option.bind_none, Option.map_none, Option.getD_none]
    change _ + (amount + _) + _ ≤ _
    omega
  | feeFailed env token receiver amount claimed result hfailed =>
    have howed : (Cause.answer env (.withdrawProtocolFee token receiver amount) result).owed =
        amount := if_neg (ne_true_of_eq_false hfailed)
    rw [Cause.confirmed_eq_zero fun q hq ↦ by rw [Multiset.mem_singleton.mp hq]; rfl]
    simp only [Ledger.owes, tokensOwed, Ledger.waiting]
    omega
  | refund cause call request info nowSec accounts hcall hcreates =>
    have hrefund : info.state.isRefund = true := by
      rw [hcreates.kind]
      rfl
    have hsame := horiginals.insert_refund hcreates.fresh hrefund
    have hnone : ∀ p ∈ cause.taken, p.burns = none := by
      rcases hcall with ⟨env, data, result, rfl⟩ | ⟨env, data, rfl, _⟩
      · intro p hp
        rw [Multiset.mem_singleton.mp hp]
        rfl
      · exact fun p hp ↦ absurd hp (Multiset.notMem_zero p)
    rw [Cause.confirmed_eq_zero hnone]
    simp only [Ledger.owes, tokensOwed, Ledger.waiting]
    omega
  | finalizeRefund env txId confirmations result info key hpending hrefund =>
    have hsame := horiginals.erase_refund hpending hrefund
    rw [Cause.confirmed_eq_zero fun q hq ↦ by rw [Multiset.mem_singleton.mp hq]; rfl]
    simp only [Ledger.owes, tokensOwed, Ledger.waiting]
    omega
  | ignore cause hignored =>
    rw [Cause.confirmed_eq_zero hignored.burns]
    omega
  | collectFee env method senderId amount hbrings =>
    simp only [Ledger.owes, tokensOwed, Fees.collect, Ledger.waiting, Cause.owed, hbrings,
      Option.map_some, Option.getD_some, Cause.confirmed, Cause.confirms, Option.bind_none,
      Option.map_none, Option.getD_none]
    omega
  | configure | reject | lose =>
    simp only [Ledger.owes, Ledger.waiting, Cause.confirmed, Cause.confirms, Option.bind_none,
      Option.map_none, Option.getD_none]
    omega
  | setKey | request =>
    rw [Cause.confirmed_eq_zero fun q hq ↦ by rw [Multiset.mem_singleton.mp hq]; rfl]
    simp only [Ledger.owes, Ledger.waiting]
    omega

end Step

end SatoshiBridge
