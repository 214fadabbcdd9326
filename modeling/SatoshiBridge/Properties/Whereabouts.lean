import SatoshiBridge.Invariants.Whereabouts
import SatoshiBridge.Model.SampleRun
import SatoshiBridge.Treasury.Coins

/-!
# No coin is lost

A coin the bridge has registered is stored, locked or spent, in one place only, and it only moves
on. Every coin goes back to deposits: it is one, or it is the change of a confirmed transaction that
the bridge built from registered coins.
-/

set_option autoImplicit false
set_option relaxedAutoImplicit false

namespace SatoshiBridge

namespace Sys

variable {host : Host} {guard : Guard} {s s' : Sys}

/-! ### One place -/

/-- The coin is at this place of the contract. -/
def At (s : Sys) (key : OutPoint) : Place → Prop
  | .stored => key ∈ s.contract.utxos
  | .pending root => ∃ o, s.contract.btcPendingInfos.lookup root = some o ∧ IsOriginal o ∧
      key ∈ o.inputs
  | .spent root => (key, root) ∈ spentBy s.log ∧ ∃ id, Mark.committed id root ∈ s.log

theorem at_ledger {key : OutPoint} {place : Place} : s.ledger.At key place ↔ s.At key place := by
  cases place <;> exact Iff.rfl

/-- What was taken out for a root is locked under it or spent by its family. -/
theorem Reachable.taken (laws : host.Lawful) (h : Reachable host unfinished s) {key : OutPoint}
    {root : Txid} (hkey : (key, root) ∈ spentBy s.log) :
    s.At key (.pending root) ∨ s.At key (.spent root) :=
  (h.ofUnfinished laws.toReadsAddresses).kept.taken key root hkey

/-- The coins registered or taken out stay so in the history. -/
theorem Runs.mem_flatMap {α : Type} {f : Mark → List α} {a : α} (h : Runs host guard s s')
    (ha : a ∈ s.log.flatMap f) : a ∈ s'.log.flatMap f := by
  obtain ⟨m, hm, hmem⟩ := List.mem_flatMap.mp ha
  exact List.mem_flatMap.mpr ⟨m, Runs.mem_log h hm, hmem⟩

/-- A coin has been registered exactly when it is somewhere; it is nowhere else at the same time,
and later it is where that place leads. -/
theorem Reachable.one_place (laws : host.Lawful) (h : Reachable host unfinished s)
    (key : OutPoint) :
    (key ∈ registered s.log ↔ ∃ place, s.At key place) ∧
      ∀ place, s.At key place → (∀ place', s.At key place' → place' = place) ∧
        ∀ s', Runs host unfinished s s' → ∃ place', s'.At key place' ∧ place.Leads place' := by
  have hreached := h.ofUnfinished laws.toReadsAddresses
  have hspending := hreached.spending laws
  refine ⟨hreached.registered_iff laws, fun place hplace ↦ ⟨fun place' hplace' ↦ ?_,
    fun s' hruns ↦ ?_⟩⟩
  · exact hspending.at_unique hreached.identified (at_ledger.mpr hplace') (at_ledger.mpr hplace)
  · have hlater : Reachable host unfinished s' := h.runs hruns
    cases place with
    | stored =>
      have hregistered := Runs.mem_flatMap hruns (hspending.stored key hplace)
      obtain ⟨place', hplace'⟩ :=
        ((hlater.ofUnfinished laws.toReadsAddresses).registered_iff laws).mp hregistered
      exact ⟨place', hplace', .anywhere place'⟩
    | pending root =>
      have htaken : (key, root) ∈ spentBy s.log :=
        hspending.of_locked hreached.identified (at_ledger.mpr hplace)
      rcases hlater.taken laws (Runs.mem_flatMap hruns htaken) with hwaits | hsettles
      · exact ⟨.pending root, hwaits, .waits root⟩
      · exact ⟨.spent root, hsettles, .settles root⟩
    | spent root =>
      obtain ⟨htaken, id, hcommitted⟩ := hplace
      exact ⟨.spent root, ⟨Runs.mem_flatMap hruns htaken, id, Runs.mem_log hruns hcommitted⟩,
        .stays root⟩

/-- The withdrawal of Alice has locked her coin. -/
theorem one_place_cancellation :
    ∃ s, Sample.after Sample.cancelledWithdrawal = some s ∧ s.At ⟨0, 0⟩ (.pending 2) ∧
      ∀ s', Runs (Sample.host false) unfinished s s' →
        ∃ place', s'.At ⟨0, 0⟩ place' ∧ (Place.pending 2).Leads place' := by
  have hrun : ((Sample.after Sample.cancelledWithdrawal).bind fun s ↦
      (s.contract.btcPendingInfos.lookup 2).map fun o ↦
        (o.state.originalTxId, o.state.isRefund, o.inputs)) = some (none, false, [⟨0, 0⟩]) := by
    decide +kernel
  obtain ⟨s, hs, hsome⟩ := Option.bind_eq_some_iff.mp hrun
  obtain ⟨o, ho, hfacts⟩ := Option.map_eq_some_iff.mp hsome
  rw [Prod.mk.injEq, Prod.mk.injEq] at hfacts
  have hreach : Reachable (Sample.host false) unfinished s := Sample.reaches (by decide) hs
  have hplace : s.At ⟨0, 0⟩ (.pending 2) := by
    refine ⟨o, ho, ⟨hfacts.1, hfacts.2.1⟩, ?_⟩
    rw [hfacts.2.2]
    exact List.mem_singleton_self _
  have hone := hreach.one_place (Sample.host_lawful false) ⟨0, 0⟩
  exact ⟨s, hs, hplace, (hone.2 (.pending 2) hplace).2⟩

/-! ### Where coins come from -/

/-- The coin is an output of a confirmed transaction to the change address. -/
def ChangeOf (host : Host) (s : Sys) (key : OutPoint) : Prop :=
  ∃ root info output, Mark.committed key.txid root ∈ s.log ∧
    s.ledger.Settled host key.txid root info ∧ info.psbt.vout[key.vout]? = some output ∧
    output.scriptPubkey = host.changeScript s.contract.config.chain

/-- Every coin is a deposit or the change of a transaction that the bridge built and confirmed, not
both; and what such a transaction spends was taken out for its family, and comes back as change or
is burnt. -/
structure Lineage (host : Host) (s : Sys) : Prop where
  registered : ∀ key, key ∈ registered s.log ↔ s.ledger.Deposited key ∨ s.ChangeOf host key
  disjoint : ∀ key, s.ledger.Deposited key → ¬s.ChangeOf host key
  deposits : ∀ key, s.ledger.Deposited key →
    ∃ utxo, IsDeposit host s.contract.config.chain key utxo
  settled : ∀ id root, Mark.committed id root ∈ s.log → ∃ info,
    s.ledger.Settled host id root info ∧ inputAmount info.vutxos ≤
      changeAmount host s.contract.config.chain info.psbt.vout + info.burnAmount

/-- An output of a settled transaction to the change address is change. -/
theorem ChangeOf.isChange {key : OutPoint} (h : s.ChangeOf host key) :
    ∃ utxo, IsChange host s.contract.config.chain key utxo := by
  obtain ⟨root, info, output, _, hsettled, houtput, hscript⟩ := h
  refine ⟨⟨host.currentAccountId, [], key.vout, output.value⟩, ⟨rfl, rfl, ?_⟩, rfl⟩
  refine ⟨info.psbt.vout, .transaction (info.psbt.transaction host) hsettled.txid rfl, ?_⟩
  rw [houtput]
  exact congrArg (fun script ↦ some (TxOut.mk output.value script)) hscript

/-- While only deposits in progress are completed by hand, every coin goes back to deposits: what is
registered was deposited or is the change of a settled transaction, and a settled transaction is
worth the coins it spends. -/
theorem Reachable.lineage (laws : host.Lawful) (h : Reachable host unfinished s) :
    s.Lineage host := by
  have hreached := h.ofUnfinished laws.toReadsAddresses
  have hspending := hreached.spending laws
  have hsettles := hreached.settles laws
  refine ⟨fun key ↦ ⟨fun hkey ↦ ?_, fun hkey ↦ ?_⟩, fun key hdeposited hchange ↦ ?_,
    hspending.deposits, fun id root hm ↦ ?_⟩
  · rcases (hreached.lives laws).origin key hkey with hdeposited | ⟨utxo, hholds, hpath⟩
    · exact Or.inl hdeposited
    · rcases hspending.origin key hkey with hdeposited | ⟨root, hm⟩
      · exact Or.inl hdeposited
      · right
        obtain ⟨info, hsettled⟩ := hsettles key.txid root hm
        obtain ⟨outputs, hshows, hat⟩ := hholds.pays
        have hown : ShowsOutputs host key.txid info.psbt.vout :=
          .transaction (info.psbt.transaction host) hsettled.txid rfl
        rw [hshows.unique laws hown, hpath] at hat
        exact ⟨root, info, _, hm, hsettled, hat, rfl⟩
  · rcases hkey with hdeposited | ⟨root, info, output, hm, hsettled, houtput, hscript⟩
    · exact (((hreached.lives laws).life key).deposited hdeposited).2
    · exact hsettled.change key.vout output houtput hscript
  · obtain ⟨utxo, hdeposit⟩ := hspending.deposits key hdeposited
    obtain ⟨utxo', hchange'⟩ := hchange.isChange
    exact hdeposit.not_change laws hchange'
  · obtain ⟨info, hsettled⟩ := hsettles id root hm
    obtain ⟨payee, hpayment⟩ := hsettled.payment
    exact ⟨info, hsettled, hpayment.inputs_le hsettled.refund⟩

/-- The coin of Alice was deposited, the coin her withdrawal has paid to the bridge is change. -/
theorem lineage_withdrawal :
    ∃ s, Sample.after (Sample.cancelledWithdrawal ++ Sample.settle 2) = some s ∧
      s.ledger.Deposited ⟨0, 0⟩ ∧ s.ChangeOf (Sample.host false) ⟨2, 0⟩ ∧
      s.Lineage (Sample.host false) := by
  have hrun : (Sample.after (Sample.cancelledWithdrawal ++ Sample.settle 2)).map (fun s ↦
      (registered s.log, decide (Mark.depositFinalised ⟨0, 0⟩ ∈ s.log),
        decide (Mark.depositFinalised ⟨2, 0⟩ ∈ s.log),
        decide (Mark.depositCompleted ⟨2, 0⟩ ∈ s.log))) =
      some ([⟨0, 0⟩, ⟨2, 0⟩], true, false, false) := by
    decide +kernel
  obtain ⟨s, hs, hfacts⟩ := Option.map_eq_some_iff.mp hrun
  simp only [Prod.mk.injEq, decide_eq_true_eq, decide_eq_false_iff_not] at hfacts
  obtain ⟨hregistered, hdeposited, hfinalised, hcompleted⟩ := hfacts
  have hreach : Reachable (Sample.host false) unfinished s := Sample.reaches (by decide) hs
  have hlineage := hreach.lineage (Sample.host_lawful false)
  have hchange : s.ChangeOf (Sample.host false) ⟨2, 0⟩ := by
    have hmem : ⟨2, 0⟩ ∈ registered s.log := by
      rw [hregistered]
      exact List.mem_cons_of_mem _ (List.mem_singleton_self _)
    rcases (hlineage.registered ⟨2, 0⟩).mp hmem with hdeposit | hchange
    · exact (hdeposit.elim hfinalised hcompleted).elim
    · exact hchange
  exact ⟨s, hs, Or.inl hdeposited, hchange, hlineage⟩

end Sys

end SatoshiBridge
