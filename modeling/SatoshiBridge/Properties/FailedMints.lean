import SatoshiBridge.Invariants.ErasedDeposits
import SatoshiBridge.Properties.BlockLimit

/-!
# Deposits whose mint fails

A run with a deposit whose mint failed is compared with the run that never saw the two callbacks of
that deposit. The books agree afterwards, and so does every later decision, provided that
`get_confirmations` does not answer for some amounts and panic for others.
-/

set_option autoImplicit false
set_option relaxedAutoImplicit false

namespace SatoshiBridge

variable {host : Host}

namespace DepositRun

theorem run_append {steps rest : List RunStep} : ∀ {r : DepositRun},
    r.run host (steps ++ rest) = (r.run host steps).run host rest := by
  induction steps with
  | nil => exact rfl
  | cons s steps ih => exact ih

theorem admits_append {steps rest : List RunStep} : ∀ {r : DepositRun},
    r.Admits host (steps ++ rest) ↔ r.Admits host steps ∧ (r.run host steps).Admits host rest := by
  induction steps with
  | nil => exact fun {_} ↦ (true_and _).to_iff.symm
  | cons s steps ih =>
    intro r
    change (r.Allowed s ∧ (r.after host s).Admits host (steps ++ rest)) ↔ _
    rw [ih]
    exact and_assoc.symm

end DepositRun

open DepositRun in
/-- A deposit that is accepted and whose mint fails leaves no trace: whatever happens in between is
decided alike without it, and then the books are those of the run without it at any later time and
every later step is decided alike. -/
theorem failed_mint_leaves_no_trace {r : DepositRun} (h : r.Reached host) {env env' : Env}
    {p mint : Promise} {inclusion : TxInclusionInfo} {result : PromiseResult}
    {between later : List RunStep} (halike : r.contract.config.AnswersAlike)
    (haccepted : r.decision host (.deposit (.verify env p inclusion)) = true)
    (hmint : mint = p.mintOf host r.contract.config.nbtcAccountId env.signer
      inclusion.txBlockHeight)
    (hfailed : mint.minted result = false)
    (hadmits : r.Admits host (.deposit (.verify env p inclusion) ::
      (between ++ .deposit (.settle env' mint result) :: later)))
    (hother : ∀ s ∈ between, ¬s.Settles mint)
    (hsame : (r.after host (.deposit (.verify env p inclusion))).decisions host between =
      r.decisions host between) :
    (r.run host (.deposit (.verify env p inclusion) ::
        (between ++ .deposit (.settle env' mint result) :: later))).contract.books =
      (r.run host (between ++ later)).contract.books ∧
    (r.run host (.deposit (.verify env p inclusion) ::
        (between ++ [.deposit (.settle env' mint result)]))).decisions host later =
      (r.run host between).decisions host later := by
  obtain ⟨x, hexec⟩ := Option.isSome_iff_exists.mp haccepted
  have hafter : r.after host (.deposit (.verify env p inclusion)) = x := by
    change r.next host (.verify env p inclusion) = x
    rw [next, hexec]
    rfl
  have hr := h.sound
  have hrest := hadmits.2
  obtain ⟨⟨info, delta, hchecks, hsum⟩, htip, hblock, _⟩ := hadmits.1
  have hx : x.Sound := by
    rw [← hafter]
    exact Lead.sound_after hr hadmits.1
  obtain ⟨info', delta', required, hstep⟩ := exec_verify hexec
  have hchecks' := hchecks.symm.trans hstep.checks
  cases hchecks'
  obtain ⟨l, hl, hleads⟩ := Lead.leads_of_verify hr htip hblock hsum hstep
  rw [← hmint] at hl
  rw [hafter, admits_append] at hrest
  obtain ⟨hbetween, hsettle, hlater⟩ := hrest
  rw [hafter] at hsame
  -- Up to the failure the first run is ahead by the deposit.
  have hnot : ∀ l' ∈ some l, ∀ s ∈ between, ¬s.Settles l'.mint := by
    intro l' hl' s hs
    rw [Option.mem_some_iff] at hl'
    rw [← hl', hl]
    exact hother s hs
  obtain ⟨hahead, hxrun, hrrun⟩ := hleads.run hx hr hbetween hnot hsame
  -- The failure takes it back.
  have hinfo : mint.mintInfo = some l.info := by
    rw [← hl]
    exact l.mintInfo
  have hcounted : mint.counted = some l.deposit := by
    rw [← hl]
    exact l.counted
  have hroom : (x.run host between).contract.RoomFor mint result := by
    intro hminted
    rw [hfailed] at hminted
    cases hminted
  obtain ⟨z, hzexec⟩ := Option.isSome_iff_exists.mp
    ((@exec_settle_isSome host (x.run host between) env' _ _ _ hinfo hcounted result).mpr hroom)
  have hzstep := exec_settle hinfo hcounted hzexec
  have hz : (x.run host between).after host (.deposit (.settle env' mint result)) = z := by
    change (x.run host between).next host (.settle env' mint result) = z
    rw [next, hzexec]
    rfl
  rw [hz] at hlater
  rw [hfailed, ← hl] at hzstep
  have hlevel : Lead.Leads none z (r.run host between) := hahead.take_back hxrun hrrun hzstep
  have hzsound : z.Sound := by
    rw [← hz]
    exact Lead.sound_after hxrun hsettle
  have hconfig : z.contract.config.AnswersAlike := by
    rw [hzstep.config, Lead.config_run hx hbetween, hstep.config]
    exact halike
  have hlaterSame : z.decisions host later = (r.run host between).decisions host later :=
    hlevel.decisions hzsound hrrun hconfig hlater
  have hnone : ∀ l' ∈ (none : Option Lead), ∀ s ∈ later, ¬s.Settles l'.mint :=
    fun l' hl' ↦ absurd hl' (Option.not_mem_none l')
  obtain ⟨hend, _⟩ := hlevel.run hzsound hrrun hlater hnone hlaterSame
  constructor
  · rw [run_append]
    change ((r.after host (.deposit (.verify env p inclusion))).run host
      (between ++ .deposit (.settle env' mint result) :: later)).contract.books = _
    rw [hafter, run_append]
    change (((x.run host between).after host (.deposit (.settle env' mint result))).run host
      later).contract.books = _
    rw [hz]
    exact hend.books.symm
  · change ((r.after host (.deposit (.verify env p inclusion))).run host
      (between ++ [.deposit (.settle env' mint result)])).decisions host later = _
    rw [hafter, run_append]
    change ((x.run host between).after host
      (.deposit (.settle env' mint result))).decisions host later = _
    rw [hz]
    exact hlaterSame

namespace Sample

/-- A table with a bound that is not written as its own digits. -/
def signedBounds : Config :=
  { config with confirmationsStrategy := (AList.singleton "1000000" 2).insert "+3" 2 }

/-- The inclusion of a safe deposit arrives. -/
def arrival (vout balance blockHeight tipHeight : ℕ) : DepositAction :=
  .verify (env bridge 1 0)
    (.verifySafeDeposit "alice" balance "" (fundingInfo vout balance) 1) ⟨blockHeight, tipHeight⟩

/-- The mint of such a deposit. -/
def arrivalMint (vout balance blockHeight : ℕ) : Promise :=
  .safeMint "nbtc" "alice" balance none (fundingInfo vout balance) (some blockHeight)

/-- Its mint returns nothing. -/
def failure (vout balance blockHeight : ℕ) : DepositAction :=
  .settle (env bridge 2 0) (arrivalMint vout balance blockHeight) (.value (.u128 0))

theorem arrival_allowed {r : DepositRun} {vout balance blockHeight tipHeight : ℕ}
    (hkept : blockSum r.kept blockHeight + balance ≤ u128Max) (htip : r.tip ≤ tipHeight)
    (hblock : blockHeight ≤ tipHeight) (hdelta : r.contract.config.confirmationsDelta = 1) :
    r.Allowed (.deposit (arrival vout balance blockHeight tipHeight)) := by
  refine ⟨⟨_, _, rfl, hkept⟩, htip, hblock, ?_⟩
  rintro info delta hchecks
  cases hchecks
  rw [hdelta]
  exact le_max_left _ _

/-- A deposit of 5 in block 111 whose mint fails, and one of 2 in block 100, from a new contract. -/
def failedThenLater : List RunStep :=
  [.deposit (arrival 0 5 111 120), .deposit (failure 0 5 111), .deposit (arrival 1 2 100 120)]

theorem config_answers (amount : ℕ) : (config.getConfirmations amount).isSome = true := by
  have hkeys : config.confirmationsStrategy.keys.mapM parseU128 = some [1000000] := by
    decide +kernel
  have hlookup : config.confirmationsStrategy.lookup (toString 1000000) = some 2 := by
    decide +kernel
  have hentries : config.confirmationsStrategy.entries ≠ [] := by decide +kernel
  unfold Config.getConfirmations
  rw [require_of hentries, hkeys]
  by_cases hsmall : amount < 1000000
  · simp [hsmall, hlookup]
  · simp [hsmall, hlookup]

/-- What such a run comes to, under the table of the sample and under the one with a sign. -/
theorem failedThenLater_decisions (config : Config)
    (hconfig : config = Sample.config ∨ config = signedBounds) :
    ∃ c, Contract.new (env "dao" 0 0) config = some c ∧
      (DepositRun.mk c [] [] 0).Admits (Sample.host false) failedThenLater ∧
      (DepositRun.mk c [] [] 0).decisions (Sample.host false) failedThenLater =
        [true, true, true] := by
  have hrun : ((Contract.new (env "dao" 0 0) config).map fun c ↦
      let start := DepositRun.mk c [] [] 0
      let first := start.after (Sample.host false) (.deposit (arrival 0 5 111 120))
      let second := first.after (Sample.host false) (.deposit (failure 0 5 111))
      decide (c.config.confirmationsDelta = 1 ∧ first.mints = [arrivalMint 0 5 111] ∧
        second.kept = [] ∧ second.tip = 120 ∧ second.contract.config.confirmationsDelta = 1 ∧
        start.decisions (Sample.host false) failedThenLater = [true, true, true])) =
      some true := by
    rcases hconfig with rfl | rfl
    · decide +kernel
    · decide +kernel
  obtain ⟨c, hnew, hfacts⟩ := Option.map_eq_some_iff.mp hrun
  obtain ⟨hdelta, hmints, hkept, htip, hdelta', hdecisions⟩ := of_decide_eq_true hfacts
  refine ⟨c, hnew, ⟨?_, ⟨?_, trivial⟩, ?_, trivial⟩, hdecisions⟩
  · exact arrival_allowed (show 0 + 5 ≤ u128Max by decide) (show 0 ≤ 120 by decide) (by decide)
      hdelta
  · change arrivalMint 0 5 111 ∈ ((DepositRun.mk c [] [] 0).after (Sample.host false)
      (.deposit (arrival 0 5 111 120))).mints
    rw [hmints]
    exact List.mem_cons_self
  · refine arrival_allowed ?_ ?_ (by decide) hdelta'
    · rw [hkept]
      decide
    · rw [htip]

end Sample

/-- A table whose bounds are all written as their digits. -/
theorem failed_mint_leaves_no_trace_digits :
    ∃ c, Contract.new (Sample.env "dao" 0 0) Sample.config = some c ∧
      ((DepositRun.mk c [] [] 0).run (Sample.host false)
        [.deposit (Sample.arrival 0 5 111 120), .deposit (Sample.failure 0 5 111)]).decisions
        (Sample.host false) [.deposit (Sample.arrival 1 2 100 120)] =
      (DepositRun.mk c [] [] 0).decisions (Sample.host false)
        [.deposit (Sample.arrival 1 2 100 120)] := by
  obtain ⟨c, hnew, hadmits, hdecisions⟩ :=
    Sample.failedThenLater_decisions Sample.config (Or.inl rfl)
  have hreached := @DepositRun.Reached.start (Sample.host false) _ _ _ hnew
  have hconfig : c.config = Sample.config := Contract.config_new hnew
  have halike : c.config.AnswersAlike := by
    intro a b
    rw [hconfig, Sample.config_answers a, Sample.config_answers b]
  have hsteps : (DepositRun.mk c [] [] 0).Admits (Sample.host false)
    (.deposit (Sample.arrival 0 5 111 120) :: ([] ++ .deposit (Sample.failure 0 5 111) ::
      [.deposit (Sample.arrival 1 2 100 120)])) := hadmits
  have hmint : Sample.arrivalMint 0 5 111 = Promise.mintOf (Sample.host false)
      c.config.nbtcAccountId Sample.bridge 111
      (.verifySafeDeposit "alice" 5 "" (Sample.fundingInfo 0 5) 1) := by
    rw [hconfig]
    rfl
  exact ⟨c, hnew, (failed_mint_leaves_no_trace hreached halike (List.cons.inj hdecisions).1 hmint
    rfl hsteps (fun s hs ↦ absurd hs List.not_mem_nil) rfl).2⟩

/-- Under a bound written with a sign, a deposit of 2 is rejected, and accepted once another one has
failed. -/
theorem failed_mint_lets_deposit_pass :
    ∃ c, Contract.new (Sample.env "dao" 0 0) Sample.signedBounds = some c ∧
      (DepositRun.mk c [] [] 0).Reached (Sample.host false) ∧
      (DepositRun.mk c [] [] 0).Admits (Sample.host false) Sample.failedThenLater ∧
      (Sample.arrivalMint 0 5 111).minted (.value (.u128 0)) = false ∧
      ((DepositRun.mk c [] [] 0).run (Sample.host false)
        [.deposit (Sample.arrival 0 5 111 120), .deposit (Sample.failure 0 5 111)]).decisions
        (Sample.host false) [.deposit (Sample.arrival 1 2 100 120)] ≠
      (DepositRun.mk c [] [] 0).decisions (Sample.host false)
        [.deposit (Sample.arrival 1 2 100 120)] := by
  obtain ⟨c, hnew, hadmits, hdecisions⟩ :=
    Sample.failedThenLater_decisions Sample.signedBounds (Or.inr rfl)
  refine ⟨c, hnew, .start hnew, hadmits, rfl, ?_⟩
  have hrun : ((Contract.new (Sample.env "dao" 0 0) Sample.signedBounds).map fun c ↦
      (DepositRun.mk c [] [] 0).decisions (Sample.host false)
        [.deposit (Sample.arrival 1 2 100 120)]) = some [false] := by decide +kernel
  rw [hnew, Option.map_some, Option.some.injEq] at hrun
  rw [hrun]
  intro hsame
  change [_] = [false] at hsame
  have hlater := (List.cons.inj (List.cons.inj (List.cons.inj hdecisions).2).2).1
  have hfalse := (List.cons.inj hsame).1
  exact absurd (hlater.symm.trans hfalse) (by decide)

end SatoshiBridge
