import SatoshiBridge.Invariants.Spending
import SatoshiBridge.Properties.DepositUses

/-!
# Completing a deposit by hand

`complete_failed_deposit_mint` is for a deposit that was minted and whose mint callback never came
through. It looks at the collections as they are now, and a coin that was spent or sent back is in
none of them any more. So it also accepts deposits that are over. It accepts exactly the right ones
when it is called for deposits that are still in progress, minted and without a callback to come,
and then no outpoint is registered twice, nor after it was spent or refunded.
-/

set_option autoImplicit false
set_option relaxedAutoImplicit false

namespace SatoshiBridge

variable {host : Host} {s s' : Sys}

/-! ### Every coin is registered once -/

/-- The coins of a transaction are at different indices. -/
theorem Contract.changeUtxos_nodup (script : ScriptBuf) (txId : Txid) (outputs : List TxOut) :
    ((Contract.changeUtxos host script txId outputs).map Prod.fst).Nodup := by
  have hsub : ∀ indexed : List (TxOut × ℕ),
      ((indexed.filterMap fun e ↦
        if e.1.scriptPubkey = script then
          some (generateUtxoStorageKey txId e.2,
            (⟨host.currentAccountId, [], e.2, e.1.value⟩ : UTXO))
        else none).map fun e ↦ e.1.vout).Sublist (indexed.map Prod.snd) := by
    intro indexed
    induction indexed with
    | nil => exact List.Sublist.refl []
    | cons e rest ih =>
      by_cases hscript : e.1.scriptPubkey = script
      · simpa [List.filterMap_cons, hscript] using ih
      · simpa [List.filterMap_cons, hscript] using ih.cons e.2
  have hindices := (hsub outputs.zipIdx).nodup (List.nodup_zipIdx_map_snd outputs)
  refine List.Nodup.of_map OutPoint.vout ?_
  rw [List.map_map]
  exact hindices

/-- No coin is registered twice while only unfinished deposits are completed by hand. -/
theorem Ledger.Reached.registered_nodup (laws : host.Lawful) {l : Ledger}
    (h : Ledger.Reached host Ledger.Unfinished l) : (registered l.log).Nodup := by
  have hinit : ∀ l : Ledger, l.Initial → (registered l.log).Nodup := by
    intro l h₀
    rw [h₀.log]
    exact List.nodup_nil
  refine Ledger.Reached.induct hinit (fun cause l l' hreached hl heffect ↦ ?_) l h
  have hl : (registered l.log).Nodup := hl
  have hspending : l.Spending host := (hreached.spending laws).of_before
  cases heffect.coins with
  | same hutxos hregistered => rwa [hregistered]
  | deposited key utxo hkey hutxos hregistered =>
    have hfresh : key ∉ registered l.log := (hreached.lives laws).fresh hkey
    rw [hregistered]
    exact List.Nodup.append hl (List.nodup_singleton key) (List.disjoint_singleton.mpr hfresh)
  | taken info payee rest hcreates hutxos hregistered => rwa [hregistered]
  | settled txId info o tx hcommits hutxos hregistered =>
    rw [hregistered]
    refine List.Nodup.append hl (Contract.changeUtxos_nodup _ _ _) fun key hold hnew ↦ ?_
    obtain ⟨⟨_, utxo⟩, hentry, rfl⟩ := List.mem_map.mp hnew
    exact hspending.change_fresh laws hreached hcommits hentry hold

/-! ### Refunds that are over -/

/-- A refunded outpoint keeps its executed request until a refund of it is finalised. -/
theorem Ledger.Reached.refunded_executed {Completes : Ledger → OutPoint → Prop} {l : Ledger}
    (h : Ledger.Reached host Completes l) {key : OutPoint} (hkey : l.Refunded key) :
    l.Executed key ∨ ∃ txId, Mark.refundFinalised txId key ∈ l.log := by
  revert hkey
  have hinit : ∀ l : Ledger, l.Initial → l.Refunded key →
      l.Executed key ∨ ∃ txId, Mark.refundFinalised txId key ∈ l.log := by
    rintro l h₀ ⟨call, request, info, nowSec, hm, _⟩
    rw [h₀.log] at hm
    exact absurd hm List.not_mem_nil
  refine Ledger.Reached.induct hinit (fun cause l l' _ hl heffect hkey ↦ ?_) l h
  obtain ⟨call, request, info, nowSec, hm, rfl⟩ := hkey
  rcases heffect.refundCreated hm with hold | ⟨_, hstored, _⟩
  · rcases hl ⟨call, request, info, nowSec, hold, rfl⟩ with hexecuted | ⟨txId, hfinalised⟩
    · have hexecuted : l.Executed call.utxoStorageKey := hexecuted
      rcases heffect.executed_kept hexecuted with hkept | ⟨txId, hlog, _⟩
      · exact Or.inl hkept
      · exact Or.inr ⟨txId, by rw [hlog]; simp⟩
    · exact Or.inr ⟨txId, heffect.mem_log hfinalised⟩
  · exact Or.inl ⟨_, hstored, rfl⟩

/-! ### Calls -/

namespace Sys

/-- A call of `complete_failed_deposit_mint` for the outpoint succeeds. -/
def Completes (host : Host) (s s' : Sys) (key : OutPoint) : Prop :=
  ∃ env depositMsg txBytes txSummary vout protocolFee,
    internalResolveDepositTx host txBytes = some txSummary ∧
      key = generateUtxoStorageKey txSummary.txId vout ∧
      s.exec host (.call env (.completeFailedDepositMint depositMsg txBytes vout protocolFee)) =
        some s'

/-- The deposit of the outpoint was verified and minted, and its mint callback never completed. -/
structure Minted (s : Sys) (key : OutPoint) : Prop where
  verified : Mark.depositStarted key ∈ s.log
  minted : Mark.mintCallbackLost key true ∈ s.log
  unfinalised : Mark.depositFinalised key ∉ s.log
  unregistered : key ∉ registered s.log
  unrefunded : ¬s.Refunding key
  available : key ∉ s.contract.unavailableUtxos
  answered : ∀ promise ∈ s.inflight, ∀ info ∈ promise.mintInfo, info.utxoStorageKey ≠ key

/-- Only a deposit still in progress whose mint succeeded and whose callback was lost may be
completed by hand. -/
def mintLost : Guard := fun s key ↦
  unfinished s key ∧ Mark.mintCallbackLost key true ∈ s.log

/-- What the call looks at. -/
theorem Completes.checks {key : OutPoint} (h : s.Completes host s' key) :
    key ∈ s.contract.verifiedDepositUtxo ∧ s.contract.utxos.lookup key = none ∧
      s.contract.unavailableUtxos.lookup key = none ∧
      s.contract.refundRequests.lookup key = none := by
  obtain ⟨env, depositMsg, txBytes, txSummary, vout, protocolFee, htx, rfl, hexec⟩ := h
  simp only [exec, Contract.call, Contract.completeFailedDepositMint, Option.bind_eq_bind,
    Option.bind_eq_some_iff, require_eq_some, exists_and_left, exists_const] at hexec
  obtain ⟨_, ⟨_, _, summary, htx', info, hinfo, hverified, hutxo, hunavailable, hrequest, _⟩, _⟩ :=
    hexec
  have hkey : info.utxoStorageKey = generateUtxoStorageKey txSummary.txId vout := by
    rw [htx, Option.some.injEq] at htx'
    simp only [Contract.internalBuildDepositUtxoInfo, Option.bind_eq_bind,
      Option.bind_eq_some_iff, Option.some.injEq] at hinfo
    obtain ⟨_, _, _, _, _, _, _, _, rfl⟩ := hinfo
    rw [htx']
  rw [hkey] at hverified hutxo hunavailable hrequest
  exact ⟨hverified, Option.isNone_iff_eq_none.mp hutxo,
    Option.isNone_iff_eq_none.mp hunavailable, Option.isNone_iff_eq_none.mp hrequest⟩

/-- A successful call completes a deposit that is as it should be exactly if it is still in
progress, minted and without a callback to come. -/
theorem Completes.minted_iff (laws : host.Lawful) (h : Reachable host unfinished s)
    {key : OutPoint} (hcompletes : s.Completes host s' key) : s.Minted key ↔ mintLost s key := by
  obtain ⟨hverified, _, hunavailable, hrequest⟩ := hcompletes.checks
  have hreached := h.ofUnfinished laws.toReadsAddresses
  have hlife := (hreached.lives laws).life key
  constructor
  · intro hminted
    refine ⟨⟨?_, hminted.answered⟩, hminted.minted⟩
    rcases (hreached.claims laws key).verified hverified with hprogress | hdeposited | hrefunded
    · exact AList.lookup_isSome.mpr hprogress
    · exact absurd (hlife.deposited hdeposited).2 hminted.unregistered
    · -- An executed request would still be stored, so a refund was finalised.
      rcases hreached.refunded_executed hrefunded with ⟨request, hstored, _⟩ | hfinalised
      · have hnone : s.ledger.requests.lookup key = none := hrequest
        rw [hnone] at hstored
        cases hstored
      · exact absurd (Or.inr hfinalised) hminted.unrefunded
  · rintro ⟨⟨hprogress, hanswered⟩, hlost⟩
    obtain ⟨_, hregistered, hrefunded, hstarted, _⟩ :=
      hlife.inProgress (AList.lookup_isSome.mp hprogress)
    refine ⟨hstarted, hlost, ?_, hregistered, ?_, AList.lookup_eq_none.mp hunavailable, hanswered⟩
    · exact fun hfinalised ↦ hregistered (hlife.deposited (Or.inl hfinalised)).2
    · exact fun hrefunding ↦ hrefunded (hrefunding.refunded laws h)

/-- Under the guard exactly the minted deposits are completed, and what is registered is new: it was
not registered before, not spent and not sent back. -/
theorem Reachable.completions (laws : host.Lawful) (h : Reachable host mintLost s) :
    (∀ s' key, s.Completes host s' key → (s.Minted key ↔ mintLost s key)) ∧
      (∀ key ∈ s.contract.utxos, key ∈ registered s.log) ∧ (registered s.log).Nodup ∧
      ∀ s' marks, Runs host mintLost s s' → s'.log = s.log ++ marks → ∀ key ∈ registered marks,
        key ∉ registered s.log ∧ (∀ id, (key, id) ∉ spentBy s.log) ∧ ¬s.Refunding key := by
  have hunfinished : Reachable host unfinished s := h.weaken fun _ _ hkey ↦ hkey.1
  have hreached := hunfinished.ofUnfinished laws.toReadsAddresses
  have hspending := hreached.spending laws
  refine ⟨fun s' key hcompletes ↦ hcompletes.minted_iff laws hunfinished, hspending.stored,
    hreached.registered_nodup laws, ?_⟩
  intro s' marks hruns hlog key hkey
  have h' : Reachable host unfinished s' :=
    Reachable.weaken (fun _ _ hkey ↦ hkey.1) (h.runs hruns)
  have hreached' := h'.ofUnfinished laws.toReadsAddresses
  have hnodup : (registered s'.log).Nodup := hreached'.registered_nodup laws
  rw [hlog, registered_append] at hnodup
  have hfresh : key ∉ registered s.log := fun hold ↦ hnodup.disjoint hold hkey
  refine ⟨hfresh, fun id hspent ↦ hfresh (hspending.spent key id hspent), fun hrefunding ↦ ?_⟩
  have hrefunded : s'.ledger.Refunded key :=
    Refunded.runs hruns (hrefunding.refunded laws h)
  have hregistered : key ∈ registered s'.ledger.log := by
    change key ∈ registered s'.log
    rw [hlog, registered_append]
    exact List.mem_append_right _ hkey
  exact (((hreached'.lives laws).life key).refunded hrefunded).2 hregistered

end Sys

namespace Sample

/-- The mint of Alice succeeds and its callback is lost. -/
def lostMint : List Action := sync ++ beginDeposit aliceMsg 0 ++ [.lose 0 done]

/-- The DAO completes the deposit of Alice. -/
def complete : Action :=
  .call (env "dao" 6 1) (.completeFailedDepositMint aliceMsg (.full [0]) 0 0)

theorem completes_of (h : s.exec (Sample.host false) complete = some s') :
    s.Completes (Sample.host false) s' ⟨0, 0⟩ := by
  have htx : (internalResolveDepositTx (Sample.host false) (.full [0])).map
      DepositTxSummary.txId = some 0 := by
    decide +kernel
  obtain ⟨txSummary, hsummary, htxId⟩ := Option.map_eq_some_iff.mp htx
  refine ⟨env "dao" 6 1, aliceMsg, .full [0], txSummary, 0, 0, hsummary, ?_, h⟩
  rw [htxId]

end Sample

/-- Alice's deposit is minted and its callback lost; the DAO completes it. -/
theorem completions_lost_mint :
    ∃ s s', Sys.Reachable (Sample.host false) Sys.mintLost s ∧
      s.Completes (Sample.host false) s' ⟨0, 0⟩ ∧ s.Minted ⟨0, 0⟩ := by
  have hrun : (Sample.after Sample.lostMint).map (fun s ↦
      ((s.exec (Sample.host false) Sample.complete).isSome,
        (s.contract.utxosInProgress.lookup ⟨0, 0⟩).isSome, s.inflight.length,
        decide (Mark.mintCallbackLost ⟨0, 0⟩ true ∈ s.log))) = some (true, true, 0, true) := by
    decide +kernel
  obtain ⟨s, hs, hreads⟩ := Option.map_eq_some_iff.mp hrun
  simp only [Prod.mk.injEq, decide_eq_true_eq] at hreads
  obtain ⟨hexec, hprogress, hinflight, hlost⟩ := hreads
  obtain ⟨s', hs'⟩ := Option.isSome_iff_exists.mp hexec
  have hreach : Sys.Reachable (Sample.host false) Sys.mintLost s := Sample.reaches (by decide) hs
  have hcompletes : s.Completes (Sample.host false) s' ⟨0, 0⟩ :=
    Sample.completes_of hs'
  have hguard : Sys.mintLost s ⟨0, 0⟩ := by
    refine ⟨⟨hprogress, ?_⟩, hlost⟩
    rw [List.length_eq_zero_iff.mp hinflight]
    exact fun promise hpromise ↦ absurd hpromise List.not_mem_nil
  exact ⟨s, s', hreach, hcompletes,
    ((hreach.completions (Sample.host_lawful false)).1 s' _ hcompletes).mpr hguard⟩

/-- A withdrawn and confirmed coin is completed as if its mint had been lost. -/
theorem completed_after_spending :
    ∃ s s', Sys.Reachable (Sample.host false) Sys.always s ∧
      s.Completes (Sample.host false) s' ⟨0, 0⟩ ∧ ¬s.Minted ⟨0, 0⟩ ∧
      (⟨0, 0⟩, 2) ∈ spentBy s.log ∧ ¬(registered s'.log).Nodup := by
  have hrun : (Sample.after (Sample.signedWithdrawal ++ Sample.settle 2)).bind (fun s ↦
      (s.exec (Sample.host false) Sample.complete).map fun s' ↦
        (decide (⟨0, 0⟩ ∈ registered s.log), decide ((⟨0, 0⟩, 2) ∈ spentBy s.log),
          decide (registered s'.log).Nodup)) = some (true, true, false) := by
    decide +kernel
  obtain ⟨s, hs, hexec⟩ := Option.bind_eq_some_iff.mp hrun
  obtain ⟨s', hs', hreads⟩ := Option.map_eq_some_iff.mp hexec
  simp only [Prod.mk.injEq, decide_eq_true_eq, decide_eq_false_iff_not] at hreads
  obtain ⟨hregistered, hspent, htwice⟩ := hreads
  exact ⟨s, s', Sample.reachesAlways hs, Sample.completes_of hs',
    fun hminted ↦ hminted.unregistered hregistered, hspent, htwice⟩

end SatoshiBridge
