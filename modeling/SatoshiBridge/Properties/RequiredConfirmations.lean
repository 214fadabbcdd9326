import SatoshiBridge.Ledger.Basic
import SatoshiBridge.Model.SampleRun

/-!
# The view of required confirmations

`get_required_confirmations` reads the ring with `peek` and picks the delta by the flag it is given;
the deposit callbacks write the ring with `bump` and were given their delta by the call. The tiers
agree always. The deltas agree in the standard flow; the safe flow takes the plain delta of the
relayer even for a message that carries an extra message.
-/

set_option autoImplicit false
set_option relaxedAutoImplicit false

namespace SatoshiBridge

variable {host : Host} {env : Env} {c : Contract}

/-- The depth of a block under a tip. -/
def depthAt (blockHeight tipHeight : ℕ) : ℕ := tipHeight - blockHeight + 1

/-- Every depth from one on occurs above any block. -/
theorem depthAt_of_pos (blockHeight : ℕ) {depth : ℕ} (h : 0 < depth) :
    depthAt blockHeight (blockHeight + (depth - 1)) = depth := by
  unfold depthAt
  omega

/-! ### The ring -/

/-- What `peek` announces is what `bump` answers. -/
theorem BlockAmountRing.bump_answer (ring : BlockAmountRing) (blockHeight amount : ℕ) :
    (ring.bump blockHeight amount).2 = ring.peek blockHeight amount := by
  unfold bump peek
  cases ring.cell blockHeight with
  | none => rfl
  | some cell =>
    dsimp only
    by_cases hsame : cell.blockHeight = blockHeight
    · rw [if_pos hsame, if_pos hsame]
    · rw [if_neg hsame, if_neg hsame]
      by_cases hnewer : blockHeight < cell.blockHeight
      · rw [if_pos hnewer, if_pos hnewer]
      · rw [if_neg hnewer, if_neg hnewer]

/-- The check of a callback is made against the tier the view reads. -/
theorem Contract.bumpAndCheckConfirmations_isSome {blockHeight tipHeight amount delta : ℕ} :
    (c.bumpAndCheckConfirmations blockHeight tipHeight amount delta).isSome ↔
      ∃ tier, c.requiredConfirmations blockHeight amount = some tier ∧
        tier + delta ≤ depthAt blockHeight tipHeight := by
  rw [Option.isSome_iff_exists]
  simp only [bumpAndCheckConfirmations, BlockAmountRing.bump_answer, Option.bind_eq_bind,
    Option.bind_eq_some_iff, require_eq_some, Option.some.injEq, exists_and_left, exists_const]
  constructor
  · rintro ⟨_, tier, htier, hdepth, _⟩
    exact ⟨tier, htier, hdepth⟩
  · rintro ⟨tier, htier, hdepth⟩
    exact ⟨_, tier, htier, hdepth, rfl⟩

/-! ### The calls -/

/-- Whether a scheduled deposit callback passes its confirmation check. -/
def Promise.passesCheck (c : Contract) (blockHeight tipHeight : ℕ) : Promise → Bool
  | verifyDeposit _ _ _ _ info _ delta | verifySafeDeposit _ _ _ info delta =>
    (c.processInclusionAndCheck (.value (.inclusion (some ⟨blockHeight, tipHeight⟩))) info
      delta).isSome
  | _ => false

/-- The delta the two deposit flows give their callbacks. -/
def Contract.depositDelta (host : Host) (c : Contract) (relayer : AccountId) (msg : DepositMsg) :
    ℕ :=
  if isSafeDeposit host msg = true ∨ msg.extraMsg.isSome = false then c.relayerDelta relayer
  else c.extraMsgRelayerDelta relayer

/-- The delta the view adds for a relayer and a message. -/
def Contract.announcedDelta (c : Contract) (relayer : AccountId) (msg : DepositMsg) : ℕ :=
  if msg.extraMsg.isSome = true then c.extraMsgRelayerDelta relayer else c.relayerDelta relayer

theorem Contract.confirmationsDeltaFor_announced (relayer : AccountId) (msg : DepositMsg) :
    c.confirmationsDeltaFor (some relayer) ((some msg.extraMsg.isSome).getD false) =
      c.announcedDelta relayer msg := by
  unfold announcedDelta
  cases msg.extraMsg <;> rfl

/-- The deltas differ at most for a safe deposit with an extra message. -/
theorem Contract.depositDelta_eq_announced {relayer : AccountId} {msg : DepositMsg}
    (h : ¬(isSafeDeposit host msg = true ∧ msg.extraMsg.isSome = true)) :
    c.depositDelta host relayer msg = c.announcedDelta relayer msg := by
  unfold depositDelta announcedDelta
  by_cases hextra : msg.extraMsg.isSome = true
  · have hsafe : isSafeDeposit host msg ≠ true := fun hsafe ↦ h ⟨hsafe, hextra⟩
    rw [if_pos hextra, if_neg (by simp [hsafe, hextra])]
  · have hnone : msg.extraMsg.isSome = false := Bool.eq_false_iff.mpr hextra
    rw [if_neg hextra, if_pos (Or.inr hnone)]

theorem Contract.processInclusionAndCheck_isSome {blockHeight tipHeight delta : ℕ}
    {info : PendingUTXOInfo} :
    (c.processInclusionAndCheck (.value (.inclusion (some ⟨blockHeight, tipHeight⟩))) info
        delta).isSome ↔
      ∃ tier, c.requiredConfirmations blockHeight info.utxo.balance = some tier ∧
        tier + delta ≤ depthAt blockHeight tipHeight := by
  rw [← bumpAndCheckConfirmations_isSome]
  simp only [processInclusionAndCheck, PromiseResult.expectInclusion, Option.bind_eq_bind,
    Option.bind_some, Option.isSome_bind, Option.isSome_some]
  cases c.bumpAndCheckConfirmations blockHeight tipHeight info.utxo.balance delta <;> rfl

/-- A call of `verify_deposit_v2` schedules one callback, which is checked with the delta of its
flow. -/
theorem verifyDepositV2_schedules {msg : DepositMsg} {txBytes : DepositTxProof}
    {vout txIndex : ℕ} {receipt : Receipt}
    (hcall : c.verifyDepositV2 host env msg txBytes vout txIndex = some receipt) :
    receipt.contract = c ∧ ∃ p info, receipt.promises = [p] ∧ p.depositInfo = some info ∧
      ∀ blockHeight tipHeight, p.passesCheck c blockHeight tipHeight = true ↔
        ∃ tier, c.requiredConfirmations blockHeight info.utxo.balance = some tier ∧
          tier + c.depositDelta host env.predecessor msg ≤ depthAt blockHeight tipHeight := by
  simp only [Contract.verifyDepositV2, Option.bind_eq_bind, Option.bind_eq_some_iff] at hcall
  obtain ⟨_, _, _, _, _, _, summary, _, hflow⟩ := hcall
  by_cases hsafe : isSafeDeposit host msg = true
  · have hdelta : c.depositDelta host env.predecessor msg = c.relayerDelta env.predecessor :=
      if_pos (Or.inl hsafe)
    simp only [if_pos hsafe, Contract.internalSafeVerifyDepositEntry,
      Contract.internalSafeVerifyDeposit, Option.bind_eq_bind, Option.bind_eq_some_iff,
      Option.some.injEq] at hflow
    obtain ⟨_, _, _, _, info, _, _, _, rfl⟩ := hflow
    refine ⟨rfl, _, info, rfl, rfl, fun blockHeight tipHeight ↦ ?_⟩
    rw [hdelta]
    exact Contract.processInclusionAndCheck_isSome
  · simp only [if_neg hsafe, Contract.internalVerifyDepositEntry,
      Contract.internalVerifyDeposit, Option.bind_eq_bind, Option.bind_eq_some_iff,
      Option.some.injEq, Prod.exists] at hflow
    obtain ⟨_, _, _, _, info, _, _, _, _, _, _, _, _, _, _, rfl⟩ := hflow
    refine ⟨rfl, _, info, rfl, rfl, fun blockHeight tipHeight ↦ ?_⟩
    have hdelta : c.depositDelta host env.predecessor msg =
        if msg.extraMsg.isNone = true then c.relayerDelta env.predecessor
        else c.extraMsgRelayerDelta env.predecessor := by
      unfold Contract.depositDelta
      cases msg.extraMsg with
      | none => rw [Option.isSome_none, Option.isNone_none, if_pos (Or.inr rfl), if_pos rfl]
      | some => rw [if_neg (by simp [hsafe]), if_neg (by simp)]
    rw [hdelta]
    exact Contract.processInclusionAndCheck_isSome

/-! ### Enforcement and view -/

/-- Two requirements are met at the same depths of some block or differ by their deltas only below
the depth of one. -/
theorem forall_depth_iff {tier delta delta' : ℕ} :
    (∀ depth, 0 < depth → (tier + delta ≤ depth ↔ tier + delta' ≤ depth)) ↔
      delta = delta' ∨ (tier + delta ≤ 1 ∧ tier + delta' ≤ 1) := by
  constructor
  · intro h
    have hleft := h (max 1 (tier + delta)) (by omega)
    have hright := h (max 1 (tier + delta')) (by omega)
    omega
  · rintro (rfl | hle) depth hdepth
    · exact Iff.rfl
    · omega

/-- A scheduled deposit callback passes its check exactly at the depths the view announces for the
caller and the message, unless a safe deposit carries an extra message and the two deltas of the
relayer make a difference. -/
theorem view_agrees_iff {msg : DepositMsg} {txBytes : DepositTxProof} {vout txIndex : ℕ}
    {receipt : Receipt}
    (hcall : c.verifyDepositV2 host env msg txBytes vout txIndex = some receipt) :
    receipt.contract = c ∧ ∃ p info, receipt.promises = [p] ∧ p.depositInfo = some info ∧
      ((∀ blockHeight tipHeight, p.passesCheck c blockHeight tipHeight = true ↔
          ∃ required, c.getRequiredConfirmations blockHeight info.utxo.balance
              (some env.predecessor) (some msg.extraMsg.isSome) = some required ∧
            required ≤ depthAt blockHeight tipHeight) ↔
        (isSafeDeposit host msg = true → msg.extraMsg.isSome = true →
          c.relayerDelta env.predecessor = c.extraMsgRelayerDelta env.predecessor ∨
          ∀ blockHeight tier,
            c.requiredConfirmations blockHeight info.utxo.balance = some tier →
              tier + c.relayerDelta env.predecessor ≤ 1 ∧
                tier + c.extraMsgRelayerDelta env.predecessor ≤ 1)) := by
  obtain ⟨hcontract, p, info, hp, hinfo, hpasses⟩ := verifyDepositV2_schedules hcall
  refine ⟨hcontract, p, info, hp, hinfo, ?_⟩
  have hview (blockHeight tipHeight : ℕ) :
      (∃ required, c.getRequiredConfirmations blockHeight info.utxo.balance
          (some env.predecessor) (some msg.extraMsg.isSome) = some required ∧
        required ≤ depthAt blockHeight tipHeight) ↔
      ∃ tier, c.requiredConfirmations blockHeight info.utxo.balance = some tier ∧
        tier + c.announcedDelta env.predecessor msg ≤ depthAt blockHeight tipHeight := by
    simp only [Contract.getRequiredConfirmations, Option.bind_eq_bind, Option.bind_eq_some_iff,
      Option.some.injEq, Contract.confirmationsDeltaFor_announced]
    constructor
    · rintro ⟨_, ⟨tier, htier, rfl⟩, hdepth⟩
      exact ⟨tier, htier, hdepth⟩
    · rintro ⟨tier, htier, hdepth⟩
      exact ⟨_, ⟨tier, htier, rfl⟩, hdepth⟩
  simp only [hpasses, hview]
  constructor
  · intro hagree hsafe hextra
    rw [Contract.depositDelta, if_pos (Or.inl hsafe), Contract.announcedDelta, if_pos hextra]
      at hagree
    by_cases hdelta : c.relayerDelta env.predecessor = c.extraMsgRelayerDelta env.predecessor
    · exact Or.inl hdelta
    · right
      intro blockHeight tier htier
      have hdepths : ∀ depth, 0 < depth → (tier + c.relayerDelta env.predecessor ≤ depth ↔
          tier + c.extraMsgRelayerDelta env.predecessor ≤ depth) := by
        intro depth hpos
        have hat := hagree blockHeight (blockHeight + (depth - 1))
        rw [depthAt_of_pos blockHeight hpos, htier] at hat
        simpa only [Option.some.injEq, exists_eq_left'] using hat
      exact (forall_depth_iff.mp hdepths).resolve_left hdelta
  · intro hcond blockHeight tipHeight
    refine exists_congr fun tier ↦ and_congr_right fun htier ↦ ?_
    by_cases hsafe : isSafeDeposit host msg = true ∧ msg.extraMsg.isSome = true
    · rw [Contract.depositDelta, if_pos (Or.inl hsafe.1), Contract.announcedDelta,
        if_pos hsafe.2]
      refine forall_depth_iff.mpr ?_ (depthAt blockHeight tipHeight) (Nat.succ_pos _)
      exact (hcond hsafe.1 hsafe.2).imp_right fun h ↦ h blockHeight tier htier
    · rw [Contract.depositDelta_eq_announced hsafe]

/-- Carol's safe deposit with an extra message, at a depth of three. -/
theorem sample_safe_deposit :
    ∃ s receipt p info, Sample.after Sample.sync = some s ∧
      s.contract.verifyDepositV2 (Sample.host false)
        (Sample.env "relayer" 1 requiredBalanceForDeposit) Sample.carolMsg (.full [0]) 3 1
          = some receipt ∧
      receipt.promises = [p] ∧ p.depositInfo = some info ∧
      p.passesCheck s.contract 100 102 = true ∧
      s.contract.getRequiredConfirmations 100 info.utxo.balance (some "relayer")
        (some Sample.carolMsg.extraMsg.isSome) = some 5 := by
  have hrun : ((Sample.after Sample.sync).bind fun s ↦
      (s.contract.verifyDepositV2 (Sample.host false)
        (Sample.env "relayer" 1 requiredBalanceForDeposit) Sample.carolMsg (.full [0]) 3 1).bind
        fun receipt ↦ receipt.promises.head?.bind fun p ↦ p.depositInfo.map fun info ↦
          (receipt.promises.length, p.passesCheck s.contract 100 102,
            s.contract.getRequiredConfirmations 100 info.utxo.balance (some "relayer")
              (some Sample.carolMsg.extraMsg.isSome))) = some (1, true, some 5) := by
    decide +kernel
  simp only [Option.bind_eq_some_iff, Option.map_eq_some_iff, Prod.mk.injEq] at hrun
  obtain ⟨s, hs, receipt, hreceipt, p, hhead, info, hinfo, hone, hpasses, hview⟩ := hrun
  have hp : receipt.promises = [p] := by
    obtain ⟨q, hq⟩ := List.length_eq_one_iff.mp hone
    rw [hq, List.head?_cons, Option.some.injEq] at hhead
    rw [hq, hhead]
  exact ⟨s, receipt, p, info, hs, hreceipt, hp, hinfo, hpasses, hview⟩

/-- What the condition says about the deposit of Carol. -/
theorem view_agrees_iff_safe_deposit :
    ∃ (s : Sys) (receipt : Receipt), Sample.after Sample.sync = some s ∧
      s.contract.verifyDepositV2 (Sample.host false)
        (Sample.env "relayer" 1 requiredBalanceForDeposit) Sample.carolMsg (.full [0]) 3 1
          = some receipt ∧
      receipt.contract = s.contract ∧ ∃ p info, receipt.promises = [p] ∧
        p.depositInfo = some info ∧
        ((∀ blockHeight tipHeight, p.passesCheck s.contract blockHeight tipHeight = true ↔
            ∃ required, s.contract.getRequiredConfirmations blockHeight info.utxo.balance
                (some "relayer") (some Sample.carolMsg.extraMsg.isSome) = some required ∧
              required ≤ depthAt blockHeight tipHeight) ↔
          (isSafeDeposit (Sample.host false) Sample.carolMsg = true →
            Sample.carolMsg.extraMsg.isSome = true →
            s.contract.relayerDelta "relayer" = s.contract.extraMsgRelayerDelta "relayer" ∨
            ∀ blockHeight tier,
              s.contract.requiredConfirmations blockHeight info.utxo.balance = some tier →
                tier + s.contract.relayerDelta "relayer" ≤ 1 ∧
                  tier + s.contract.extraMsgRelayerDelta "relayer" ≤ 1)) := by
  obtain ⟨s, receipt, _, _, hs, hcall, _⟩ := sample_safe_deposit
  exact ⟨s, receipt, hs, hcall, view_agrees_iff hcall⟩

/-- A safe deposit with an extra message passes at a depth of three where the view asks for five. -/
theorem safe_deposit_passes_below_view :
    ∃ s receipt p info, Sample.after Sample.sync = some s ∧
      s.contract.verifyDepositV2 (Sample.host false)
        (Sample.env "relayer" 1 requiredBalanceForDeposit) Sample.carolMsg (.full [0]) 3 1
          = some receipt ∧
      receipt.promises = [p] ∧ p.depositInfo = some info ∧
      ¬(p.passesCheck s.contract 100 102 = true ↔
        ∃ required, s.contract.getRequiredConfirmations 100 info.utxo.balance (some "relayer")
            (some Sample.carolMsg.extraMsg.isSome) = some required ∧
          required ≤ depthAt 100 102) := by
  obtain ⟨s, receipt, p, info, hs, hreceipt, hp, hinfo, hpasses, hview⟩ := sample_safe_deposit
  refine ⟨s, receipt, p, info, hs, hreceipt, hp, hinfo, fun hagree ↦ ?_⟩
  obtain ⟨required, hrequired, hdepth⟩ := hagree.mp hpasses
  rw [hview, Option.some.injEq] at hrequired
  rw [← hrequired] at hdepth
  exact absurd hdepth (by decide)

end SatoshiBridge
