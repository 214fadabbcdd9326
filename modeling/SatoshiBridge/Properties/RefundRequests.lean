import SatoshiBridge.Properties.DepositUses

/-!
# Refund requests and the refunds that execute them

A third party can reject a request only when its deposit is final. A pending refund keeps its
executed request until a refund of the same outpoint is finalised, so that dropping a refund whose
request is gone drops nothing that could still confirm.
-/

set_option autoImplicit false
set_option relaxedAutoImplicit false

namespace SatoshiBridge

variable {host : Host} {s : Sys}

namespace Sys

/-- What a rejection by a third party has checked. -/
theorem rejectRefund_checks {c : Contract} {env : Env} {key : OutPoint} {receipt : Receipt}
    (h : c.rejectRefund env key = some receipt) (hdao : c.aclHasRole .dao env.predecessor = false)
    (hoperator : c.aclHasRole .operator env.predecessor = false) :
    (∃ request, c.refundRequests.lookup key = some request ∧ request.executed = false) ∧
      key ∈ c.verifiedDepositUtxo ∧ key ∉ c.utxosInProgress := by
  simp only [Contract.rejectRefund, Option.bind_eq_bind, Option.bind_eq_some_iff,
    require_eq_some, Option.some.injEq, exists_and_left, exists_const, hdao, hoperator] at h
  obtain ⟨hexecuted, hdeposited, request, hrequest, _⟩ := h
  rw [hrequest] at hexecuted
  have hchecks : key ∈ c.verifiedDepositUtxo ∧ (c.utxosInProgress.lookup key).isNone := by
    rcases hdeposited with hprivileged | hchecks
    · cases hprivileged
    · exact hchecks
  refine ⟨⟨request, hrequest, hexecuted⟩, hchecks.1, ?_⟩
  exact AList.lookup_eq_none.mp (Option.isNone_iff_eq_none.mp hchecks.2)

/-- When a third party rejects the request of an outpoint, its deposit is final: the mint has
succeeded, none is in flight and the outpoint stays verified. An executed request goes away only
when a refund of its outpoint is finalised, whoever acts. -/
theorem Reachable.reject_refund_final (laws : host.Lawful) (h : Reachable host never s)
    (key : OutPoint) :
    (∀ env receipt, s.contract.rejectRefund env key = some receipt →
      s.contract.aclHasRole .dao env.predecessor = false →
      s.contract.aclHasRole .operator env.predecessor = false →
        s.Finalised key ∧
        (∀ p ∈ s.inflight, ∀ info ∈ p.mintInfo, info.utxoStorageKey ≠ key) ∧
        ∀ s', Runs host never s s' → key ∈ s'.contract.verifiedDepositUtxo) ∧
    (∀ request action s', s.contract.refundRequests.lookup key = some request →
      request.executed = true → Allowed host never s action → s.exec host action = some s' →
        (∃ kept, s'.contract.refundRequests.lookup key = some kept ∧ kept.executed = true) ∨
          ∃ txId, s'.log = s.log ++ [.refundFinalised txId key]) := by
  have hunfinished := h.ofNever.ofUnfinished laws.toReadsAddresses
  have hlife := (hunfinished.lives laws).life key
  constructor
  · intro env receipt hreject hdao hoperator
    obtain ⟨⟨request, hrequest, hexecuted⟩, hverified, hprogress⟩ :=
      rejectRefund_checks hreject hdao hoperator
    have hclaims := hunfinished.claims laws key
    have hnotRefunded : ¬s.ledger.Refunded key := by
      intro hrefunded
      have htrue := hclaims.requested request hrequest hrefunded
      rw [hexecuted] at htrue
      cases htrue
    have hfinalised : s.Finalised key := by
      rcases hclaims.verified hverified with hin | hdeposited | hrefunded
      · exact absurd hin hprogress
      · rcases hdeposited with hfinalised | hcompleted
        · exact hfinalised
        · exact absurd hcompleted ((h.nowhere laws).not_completed key)
      · exact absurd hrefunded hnotRefunded
    refine ⟨hfinalised, ?_, ?_⟩
    · have hnone := hlife.no_mints hprogress
      rw [Ledger.mints, Multiset.countP_eq_zero] at hnone
      intro p hp info hinfo hkey
      rw [Option.mem_def] at hinfo
      refine hnone p (Multiset.mem_coe.mpr hp) ?_
      rw [hinfo, Option.map_some, hkey]
    · intro s' hruns
      have h' : Reachable host never s' := h.runs hruns
      have hlife' := ((h'.ofNever.ofUnfinished laws.toReadsAddresses).lives laws).life key
      exact (hlife'.deposited (Or.inl (hruns.mem_log hfinalised))).1
  · intro request action s' hrequest hexecuted hallowed hexec
    have hguard : ∀ s k, never s k → Ledger.Nowhere s.ledger k := fun _ _ hnever ↦ hnever
    obtain ⟨cause, mid, hmid, heffect, _⟩ :=
      exec_effect laws.toReadsAddresses hguard
        (Reachable.wellShaped laws.toReadsAddresses h) hallowed hexec
    have hbefore : (cause.before mid).Executed key := by
      rw [← hmid]
      exact ⟨request, hrequest, hexecuted⟩
    rcases heffect.executed_kept hbefore with hkept | ⟨txId, hlog, _⟩
    · exact Or.inl hkept
    · refine Or.inr ⟨txId, ?_⟩
      rw [show s.log = mid.log from congrArg Ledger.log hmid]
      exact hlog

/-- Every pending refund of an outpoint has the executed request beside it, or another refund of the
outpoint was finalised; and `remove_refund_pending_tx_id` drops only refunds of the second kind. -/
theorem Reachable.pending_refund_guarded (laws : host.Lawful) (h : Reachable host always s)
    {txId : Txid} {info : BTCPendingInfo}
    (hpending : s.contract.btcPendingInfos.lookup txId = some info)
    (hrefund : info.state.isRefund = true) {key : OutPoint} (hkey : key ∈ info.inputs) :
    ((∃ request, s.contract.refundRequests.lookup key = some request ∧ request.executed = true) ∨
      ∃ txId', txId' ≠ txId ∧ Mark.refundFinalised txId' key ∈ s.log) ∧
    ∀ env receipt, s.contract.removeRefundPendingTxId env txId = some receipt →
      ∃ txId', txId' ≠ txId ∧ Mark.refundFinalised txId' key ∈ s.log := by
  have hguarded := (Reachable.anytime laws.toReadsAddresses h).guarded laws
  have hkept := hguarded txId info hpending hrefund key hkey
  refine ⟨hkept, ?_⟩
  intro env receipt hremove
  rcases hkept with ⟨request, hrequest, _⟩ | hother
  · simp only [Contract.removeRefundPendingTxId, Contract.internalUnwrapBtcPendingInfo,
      Option.bind_eq_bind, Option.bind_eq_some_iff, require_eq_some] at hremove
    obtain ⟨_, _, _, _, info', hinfo', _, _, key', hinput, _, hnone, _⟩ := hremove
    have hsame : info' = info := Option.some.inj (hinfo'.symm.trans hpending)
    have hkeys : key' = key := by
      unfold Contract.refundUtxoStorageKey at hinput
      rw [hsame] at hinput
      split at hinput
      · rename_i only honly
        rw [show info.inputs = [only] from honly, List.mem_singleton] at hkey
        rw [hkey]
        exact (Option.some.inj hinput).symm
      · cases hinput
    rw [hkeys] at hnone
    have hlookup : s.contract.refundRequests.lookup key = some request := hrequest
    rw [hlookup] at hnone
    cases hnone
  · exact hother

end Sys

/-- Somebody rejects the request for Alice's coin once her deposit is there. -/
theorem reject_refund_final_sample :
    ∃ s receipt, Sample.after (Sample.sync ++ Sample.requestRefund Sample.aliceMsg 0 50 ++
        Sample.deposit Sample.aliceMsg 0) = some s ∧
      s.contract.rejectRefund (Sample.env "bob" 5 0) ⟨0, 0⟩ = some receipt ∧
      s.Finalised ⟨0, 0⟩ := by
  have hrun : ((Sample.after (Sample.sync ++ Sample.requestRefund Sample.aliceMsg 0 50 ++
      Sample.deposit Sample.aliceMsg 0)).map fun s ↦
        ((s.contract.rejectRefund (Sample.env "bob" 5 0) ⟨0, 0⟩).isSome,
          s.contract.aclHasRole .dao "bob", s.contract.aclHasRole .operator "bob")) =
      some (true, false, false) := by decide +kernel
  obtain ⟨s, hs, hfacts⟩ := Option.map_eq_some_iff.mp hrun
  simp only [Prod.mk.injEq] at hfacts
  obtain ⟨hsome, hdao, hoperator⟩ := hfacts
  obtain ⟨receipt, hreceipt⟩ := Option.isSome_iff_exists.mp hsome
  have hreach : Sys.Reachable (Sample.host false) Sys.never s := Sample.reaches (by decide) hs
  exact ⟨s, receipt, hs, hreceipt, ((hreach.reject_refund_final (Sample.host_lawful false)
    ⟨0, 0⟩).1 _ receipt hreceipt hdao hoperator).1⟩

/-- The refund of Bob's coin is pending. -/
theorem pending_refund_guarded_sample :
    ∃ s info, Sample.after (Sample.sync ++ Sample.requestRefund Sample.bobMsg 2 50 ++
        Sample.executeRefund ⟨0, 2⟩) = some s ∧
      s.contract.btcPendingInfos.lookup 6 = some info ∧
      ((∃ request, s.contract.refundRequests.lookup ⟨0, 2⟩ = some request ∧
        request.executed = true) ∨
          ∃ txId', txId' ≠ 6 ∧ Mark.refundFinalised txId' ⟨0, 2⟩ ∈ s.log) := by
  have hrun : ((Sample.after (Sample.sync ++ Sample.requestRefund Sample.bobMsg 2 50 ++
      Sample.executeRefund ⟨0, 2⟩)).map fun s ↦
        (s.contract.btcPendingInfos.lookup 6).map fun info ↦
          (info.state.isRefund, info.inputs)) = some (some (true, [⟨0, 2⟩])) := by
    decide +kernel
  obtain ⟨s, hs, hlookup⟩ := Option.map_eq_some_iff.mp hrun
  obtain ⟨info, hinfo, hfacts⟩ := Option.map_eq_some_iff.mp hlookup
  rw [Prod.mk.injEq] at hfacts
  have hreach : Sys.Reachable (Sample.host false) Sys.always s := Sample.reaches (by decide) hs
  exact ⟨s, info, hs, hinfo, (hreach.pending_refund_guarded (Sample.host_lawful false) hinfo
    hfacts.1 (by rw [hfacts.2]; exact List.mem_cons_self)).1⟩

end SatoshiBridge
