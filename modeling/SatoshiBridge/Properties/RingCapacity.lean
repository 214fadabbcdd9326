import SatoshiBridge.Invariants.DepositRuns
import SatoshiBridge.Invariants.ResidentBlocks
import SatoshiBridge.Origins.Receipts
import SatoshiBridge.Properties.ConfirmationTiers

/-!
# The capacity of the ring

The ring always has the capacity its configuration asks for, and as long as the tips reported to the
deposit callbacks do not go back, a block that is refused or evicted lies as deep as any tier may
ask.
-/

set_option autoImplicit false
set_option relaxedAutoImplicit false

namespace SatoshiBridge

variable {host : Host} {env : Env} {c c' : Contract} {receipt : Receipt}

/-! ### Receipts and the window -/

/-- Calls that do not edit the configuration leave the window as it is. -/
theorem call_window {method : Method} (hedit : ¬(Action.call env method).editsConfig)
    (h : c.call host env method = some receipt) : receipt.contract.window = c.window := by
  have hconfigures : method.configures = false := by
    cases method with
    | updateConfig | setConfirmationsStrategy | removeConfirmationsStrategy =>
      exact absurd trivial hedit
    | _ => rfl
  exact (call_receipt h).2 hconfigures

/-- Callbacks beside those of deposits and mints leave the window as it is. -/
theorem callback_window {p : Promise} {result : PromiseResult} (hchecks : p.checks = none)
    (hmint : p.mintInfo = none) (h : c.callback host env result p = some receipt) :
    receipt.contract.window = c.window := by
  have hinfo : p.depositInfo = none := by
    cases p with
    | verifyDeposit | verifySafeDeposit => cases hchecks
    | mint | safeMint => cases hmint
    | _ => rfl
  rcases callback_receipt h with ⟨_, hwindow⟩ | ⟨_, _, hresume⟩
  · exact hwindow hinfo
  · exact (resume_creates hresume).window

/-- A deposit callback needs the inclusion of the funding transaction. -/
theorem callback_inclusion {p : Promise} {result : PromiseResult} {info : PendingUTXOInfo}
    {delta : ℕ} (hchecks : p.checks = some (info, delta))
    (h : c.callback host env result p = some receipt) :
    ∃ inclusion, result = .value (.inclusion (some inclusion)) := by
  cases p with
  | verifyDeposit =>
    obtain ⟨_, _, _, hcheck, _⟩ := verifyDepositCallback_inv h
    obtain ⟨inclusion, hresult, _⟩ := processInclusionAndCheck_inv hcheck
    exact ⟨inclusion, hresult⟩
  | verifySafeDeposit =>
    obtain ⟨_, _, _, hcheck, _⟩ := verifySafeDepositCallback_inv h
    obtain ⟨inclusion, hresult, _⟩ := processInclusionAndCheck_inv hcheck
    exact ⟨inclusion, hresult⟩
  | _ => cases hchecks

/-! ### Windows in order -/

/-- The ring has the capacity of its window, and its resident blocks are among the given ones. -/
structure Window.Keeps (w : Window) (blocks : Set ℕ) : Prop where
  capacity : w.ring.capacity = w.capacityFor
  placed : w.ring.Placed
  among : ∀ blockHeight cumulative, w.ring.get blockHeight = some cumulative →
    blockHeight ∈ blocks

namespace Window.Keeps

variable {w : Window} {blocks blocks' : Set ℕ} {tip tip' : ℕ}

theorem mono (h : w.Keeps blocks) (hsub : blocks ⊆ blocks') : w.Keeps blocks' :=
  ⟨h.capacity, h.placed, fun blockHeight total hget ↦ hsub (h.among blockHeight total hget)⟩

theorem bump (h : w.Keeps blocks) {blockHeight : ℕ} (hmem : blockHeight ∈ blocks) (amount : ℕ) :
    ({ w with ring := (w.ring.bump blockHeight amount).1 } : Window).Keeps blocks := by
  refine ⟨?_, h.placed.bump blockHeight amount, fun other cumulative hget ↦ ?_⟩
  · exact (BlockAmountRing.capacity_bump blockHeight amount).trans h.capacity
  · rcases h.placed.get_bump hget with hsame | hold
    · rw [hsame]
      exact hmem
    · exact h.among other cumulative hold

theorem unbump (h : w.Keeps blocks) (blockHeight amount : ℕ) :
    ({ w with ring := w.ring.unbump blockHeight amount } : Window).Keeps blocks := by
  refine ⟨?_, h.placed.unbump blockHeight amount, fun other cumulative hget ↦ ?_⟩
  · exact (BlockAmountRing.capacity_unbump blockHeight amount).trans h.capacity
  · rw [BlockAmountRing.get_unbump h.placed.capacity_pos] at hget
    split at hget
    · rename_i hsame
      obtain ⟨before, hbefore, _⟩ := Option.map_eq_some_iff.mp hget
      rw [hsame]
      exact h.among blockHeight before hbefore
    · exact h.among other cumulative hget

/-- A block that is refused lies deeper than the ring is long. -/
theorem refused (h : w.Keeps (Set.Iic tip)) (hle : tip ≤ tip') {blockHeight amount : ℕ}
    (hnone : (w.ring.bump blockHeight amount).2 = none) :
    blockHeight + w.capacityFor ≤ tip' := by
  obtain ⟨newer, cumulative, hget, hlt, hslot⟩ := h.placed.bump_none hnone
  have hapart := BlockAmountRing.add_capacity_le hslot hlt
  have hbelow : newer ≤ tip := h.among newer cumulative hget
  rw [h.capacity] at hapart
  omega

/-- A block that is evicted lies deeper than the ring is long. -/
theorem evicted (h : w.Keeps blocks) {blockHeight amount older cumulative : ℕ}
    (hle : blockHeight ≤ tip) (hget : w.ring.get older = some cumulative)
    (hgone : (w.ring.bump blockHeight amount).1.get older = none) :
    older + w.capacityFor ≤ tip := by
  obtain ⟨hlt, hslot⟩ := h.placed.bump_evicts hget hgone
  have hapart := BlockAmountRing.add_capacity_le hslot hlt
  rw [h.capacity] at hapart
  omega

end Window.Keeps

variable {blocks : Set ℕ}

theorem new_keeps {config : Config} (hnew : Contract.new env config = some c) :
    c.window.Keeps blocks := by
  simp only [Contract.new, Option.bind_eq_bind, Option.bind_eq_some_iff, Option.some.injEq] at hnew
  obtain ⟨_, _, _, _, _, _, ring, hring, rfl⟩ := hnew
  refine ⟨(BlockAmountRing.capacity_new hring).1, BlockAmountRing.placed_new hring, ?_⟩
  intro blockHeight cumulative hget
  exact absurd (hget.symm.trans (BlockAmountRing.get_new hring blockHeight))
    (Option.some_ne_none _)

/-- An edit of the configuration resizes the ring for it. -/
theorem resize_keeps {config : Config} (h : c.window.Keeps blocks)
    (hresize : { c with config := config }.resizeBlockAmountRing = some c') :
    c'.window.Keeps blocks := by
  simp only [Contract.resizeBlockAmountRing, Option.bind_eq_bind, Option.bind_eq_some_iff,
    Option.some.injEq] at hresize
  obtain ⟨ring, hring, rfl⟩ := hresize
  obtain ⟨hplaced, hkept⟩ := BlockAmountRing.resize_spec h.placed hring
  exact ⟨(BlockAmountRing.capacity_resize hring).1, hplaced,
    fun blockHeight cumulative hget ↦ h.among blockHeight cumulative
      (hkept blockHeight cumulative hget)⟩

theorem call_keeps {method : Method} (h : c.window.Keeps blocks)
    (hcall : c.call host env method = some receipt) : receipt.contract.window.Keeps blocks := by
  by_cases hedit : (Action.call env method).editsConfig
  · cases method with
    | updateConfig update =>
      simp only [Contract.call, Contract.updateConfig, Option.bind_eq_bind,
        Option.bind_eq_some_iff, Option.some.injEq] at hcall
      obtain ⟨_, _, config, _, c', hresize, rfl⟩ := hcall
      exact resize_keeps h hresize
    | setConfirmationsStrategy bound confirmations =>
      simp only [Contract.call, Contract.setConfirmationsStrategy, Option.bind_eq_bind,
        Option.bind_eq_some_iff, Option.some.injEq] at hcall
      obtain ⟨_, _, c', hresize, _, _, rfl⟩ := hcall
      exact resize_keeps h hresize
    | removeConfirmationsStrategy bound =>
      simp only [Contract.call, Contract.removeConfirmationsStrategy, Option.bind_eq_bind,
        Option.bind_eq_some_iff, Option.some.injEq] at hcall
      obtain ⟨_, _, _, _, _, _, c', hresize, _, _, rfl⟩ := hcall
      exact resize_keeps h hresize
    | _ => exact hedit.elim
  · rw [call_window hedit hcall]
    exact h

/-- A callback adds the block it was answered with at most. -/
theorem callback_keeps {p : Promise} {result : PromiseResult} (h : c.window.Keeps blocks)
    (hreported : p.checks ≠ none → ∀ inclusion ∈ result.expectInclusion,
      inclusion.txBlockHeight ∈ blocks)
    (hcallback : c.callback host env result p = some receipt) :
    receipt.contract.window.Keeps blocks := by
  cases hchecks : p.checks with
  | some check =>
    obtain ⟨info, delta⟩ := check
    obtain ⟨inclusion, hresult⟩ := callback_inclusion hchecks hcallback
    have hmem : inclusion.txBlockHeight ∈ blocks :=
      hreported (by rw [hchecks]; exact Option.some_ne_none _) inclusion (by rw [hresult]; rfl)
    rw [hresult] at hcallback
    have haccepted :=
      (@Contract.callback_checks host c env _ _ _ hchecks inclusion).2 receipt hcallback
    have hwindow : receipt.contract.window = { c.window with
        ring := (c.blockBridgeAmounts.bump inclusion.txBlockHeight info.utxo.balance).1 } := by
      unfold Contract.window
      rw [haccepted.config, haccepted.ring]
    rw [hwindow]
    exact h.bump hmem info.utxo.balance
  | none =>
    cases hmint : p.mintInfo with
    | some info =>
      have hsettled := Contract.callback_settles hmint hcallback
      unfold Contract.window
      rw [hsettled.config, hsettled.ring]
      split
      · exact h
      · split
        · exact h.unbump _ _
        · exact h
    | none =>
      rw [callback_window hchecks hmint hcallback]
      exact h

/-! ### Runs -/

/-- The inclusion a deposit callback is answered with. -/
def Sys.reported (s : Sys) : Action → Option TxInclusionInfo
  | .callback index _ result => do
    let promise ← s.inflight[index]?
    let _ ← promise.checks
    result.expectInclusion
  | _ => none

theorem Sys.exec_keeps {s s' : Sys} {a : Action} (h : s.contract.window.Keeps blocks)
    (hreported : ∀ inclusion ∈ s.reported a, inclusion.txBlockHeight ∈ blocks)
    (hexec : s.exec host a = some s') : s'.contract.window.Keeps blocks := by
  cases a with
  | call env method =>
    simp only [Sys.exec, Option.bind_eq_bind, Option.bind_eq_some_iff, Option.some.injEq] at hexec
    obtain ⟨receipt, hcall, rfl⟩ := hexec
    exact call_keeps h hcall
  | lose index result =>
    simp only [Sys.exec, Option.bind_eq_bind, Option.bind_eq_some_iff, Option.some.injEq] at hexec
    obtain ⟨promise, _, rfl⟩ := hexec
    exact h
  | callback index env result =>
    simp only [Sys.exec, Option.bind_eq_bind, Option.bind_eq_some_iff] at hexec
    obtain ⟨promise, hpromise, _, _, hexec⟩ := hexec
    split at hexec
    · rename_i receipt hcallback
      rw [← Option.some.inj hexec]
      refine callback_keeps h (fun hchecks inclusion hinclusion ↦ hreported inclusion ?_) hcallback
      obtain ⟨check, hcheck⟩ := Option.ne_none_iff_exists'.mp hchecks
      simp only [Sys.reported, hpromise, hcheck, Option.bind_eq_bind, Option.bind_some]
      exact hinclusion
    · rw [← Option.some.inj hexec]
      exact h

/-- In every state reached the ring has the capacity of its configuration. -/
theorem Sys.Reachable.window_keeps {guard : Sys.Guard} {s : Sys}
    (h : Sys.Reachable host guard s) : s.contract.window.Keeps Set.univ := by
  have hinitial : ∀ s : Sys, s.Initial → s.contract.window.Keeps Set.univ := by
    rintro s ⟨env, config, hnew, _, _⟩
    exact new_keeps hnew
  refine Transition.Reachable.induct hinitial ?_ s h
  intro s a s' _ hkeeps _ hexec
  exact Sys.exec_keeps hkeeps (fun _ _ ↦ Set.mem_univ _) hexec

/-- The system together with the last tip a deposit callback was answered with. -/
structure TippedSys where
  sys : Sys
  tip : ℕ

namespace TippedSys

/-- The tip after an action. -/
def nextTip (t : TippedSys) (a : Action) : ℕ :=
  ((t.sys.reported a).map TxInclusionInfo.mainchainTipHeight).getD t.tip

/-- One action of the system. -/
def exec (host : Host) (t : TippedSys) (a : Action) : Option TippedSys := do
  let s ← t.sys.exec host a
  some ⟨s, t.nextTip a⟩

def Initial (t : TippedSys) : Prop := t.sys.Initial ∧ t.tip = 0

/-- The tips do not go back and no block lies above its tip. -/
def Allowed (host : Host) (guard : Sys.Guard) (t : TippedSys) (a : Action) : Prop :=
  t.sys.Allowed host guard a ∧ ∀ inclusion ∈ t.sys.reported a,
    t.tip ≤ inclusion.mainchainTipHeight ∧
      inclusion.txBlockHeight ≤ inclusion.mainchainTipHeight

abbrev Reachable (host : Host) (guard : Sys.Guard) (t : TippedSys) : Prop :=
  Transition.Reachable Initial (exec host) (Allowed host guard) t

variable {guard : Sys.Guard} {t t' : TippedSys} {a : Action}

/-- The tip moves to the reported one, at or above the old tip and the reported block. -/
theorem nextTip_spec (h : t.Allowed host guard a) :
    t.tip ≤ t.nextTip a ∧
      ∀ inclusion ∈ t.sys.reported a, inclusion.txBlockHeight ≤ t.nextTip a := by
  unfold nextTip
  cases hreported : t.sys.reported a with
  | none => exact ⟨le_refl _, fun _ hinclusion ↦ by cases hinclusion⟩
  | some inclusion =>
    obtain ⟨htip, hbelow⟩ := h.2 inclusion hreported
    refine ⟨htip, fun other hother ↦ ?_⟩
    rw [← Option.some.inj hother]
    exact hbelow

/-- In every state reached no block of the ring lies above the tip. -/
theorem Reachable.window_keeps (h : Reachable host guard t) :
    t.sys.contract.window.Keeps (Set.Iic t.tip) := by
  have hinitial : ∀ t : TippedSys, t.Initial →
      t.sys.contract.window.Keeps (Set.Iic t.tip) := by
    rintro t ⟨⟨env, config, hnew, _, _⟩, _⟩
    exact new_keeps hnew
  refine Transition.Reachable.induct hinitial ?_ t h
  intro t a t' _ hkeeps hallowed hexec
  simp only [exec, Option.bind_eq_bind, Option.bind_eq_some_iff, Option.some.injEq] at hexec
  obtain ⟨s', hs', rfl⟩ := hexec
  obtain ⟨htip, hbelow⟩ := nextTip_spec hallowed
  exact Sys.exec_keeps (hkeeps.mono (Set.Iic_subset_Iic.mpr htip)) hbelow hs'

end TippedSys

/-- The ring has the capacity of its configuration in every state reached, and while the tips do not
go back a block that is refused or evicted lies as deep as any tier with the delta may ask: no
deposit is turned away for it. -/
theorem TippedSys.window_covers (host : Host) (guard : Sys.Guard) :
    (∀ s, Sys.Reachable host guard s →
      s.contract.blockBridgeAmounts.capacity = BlockAmountRing.capacityFor s.contract.config) ∧
    ∀ t, TippedSys.Reachable host guard t → ∀ blockHeight tip amount delta,
      t.tip ≤ tip → blockHeight ≤ tip →
      delta ≤ max t.sys.contract.config.confirmationsDelta
        t.sys.contract.config.extraMsgConfirmationsDelta →
      let c := t.sys.contract
      ((c.blockBridgeAmounts.bump blockHeight amount).2 = none →
        c.config.maxTierConfirmations + delta ≤ tip - blockHeight + 1 ∧
          ((c.config.getConfirmations u128Max).isSome →
            (c.bumpAndCheckConfirmations blockHeight tip amount delta).isSome)) ∧
      ∀ older cumulative, c.blockBridgeAmounts.get older = some cumulative →
        (c.blockBridgeAmounts.bump blockHeight amount).1.get older = none →
          c.config.maxTierConfirmations + delta ≤ tip - older + 1 := by
  refine ⟨fun s hs ↦ (Sys.Reachable.window_keeps hs).capacity, ?_⟩
  intro t ht blockHeight tip amount delta htip hbelow hdelta c
  have hkeeps := Reachable.window_keeps ht
  have hcapacity : c.config.maxTierConfirmations + delta ≤ c.window.capacityFor := by
    show _ ≤ c.config.maxTierConfirmations + c.config.confirmationsDelta
      + c.config.extraMsgConfirmationsDelta + blockAmountRingCapacitySlack
    have hsum : delta ≤ c.config.confirmationsDelta + c.config.extraMsgConfirmationsDelta :=
      hdelta.trans (max_le (Nat.le_add_right _ _) (Nat.le_add_left _ _))
    omega
  constructor
  · intro hnone
    have hdeep : blockHeight + c.window.capacityFor ≤ tip := hkeeps.refused htip hnone
    have hdepth : c.config.maxTierConfirmations + delta ≤ tip - blockHeight + 1 := by omega
    refine ⟨hdepth, fun hread ↦ ?_⟩
    obtain ⟨required, hrequired⟩ := Option.isSome_iff_exists.mp hread
    have hmax := Config.getConfirmations_le_maxTier hrequired
    have hchecked : required + delta ≤ tip - blockHeight + 1 := by omega
    simp only [Contract.bumpAndCheckConfirmations, hnone, Option.getD_none, hrequired,
      Option.bind_eq_bind, Option.bind_some, require_of hchecked, Option.isSome_some]
  · intro older cumulative hget hgone
    have hdeep : older + c.window.capacityFor ≤ tip := hkeeps.evicted hbelow hget hgone
    omega

namespace Sample

/-- Alice's deposit, up to the answer of the light client. -/
def unanswered : List Action :=
  sync ++ [.call (Sample.env "relayer" 1 0) (.verifyDepositV2 aliceMsg (.full [0]) 0 1)]

/-- The light client finds it in block 100 while the tip is 200. -/
def answer : Action := .callback 0 (Sample.env bridge 1 0) included

end Sample

/-- Block 111 evicts block 100 from the eleven cells of the sample bridge. -/
theorem TippedSys.window_covers_eviction :
    ∃ t, TippedSys.Reachable (Sample.host false) Sys.never t ∧
      (t.sys.contract.blockBridgeAmounts.get 100).isSome ∧
      (t.sys.contract.blockBridgeAmounts.bump 111 7).1.get 100 = none ∧
      t.sys.contract.config.maxTierConfirmations + 3 ≤ 202 - 100 + 1 := by
  have hrun : ((Contract.new (Sample.env "dao" 0 0) Sample.config).bind fun c ↦
      (Transition.execAll (exec (Sample.host false)) ⟨⟨c, [], []⟩, 0⟩ Sample.unanswered).bind
        fun t ↦ (t.exec (Sample.host false) Sample.answer).map fun t' ↦
          (t.tip, t'.tip, (t'.sys.contract.blockBridgeAmounts.get 100).isSome,
            (t'.sys.contract.blockBridgeAmounts.bump 111 7).1.get 100,
            t'.sys.contract.config.extraMsgConfirmationsDelta)) =
      some (0, 200, true, none, 3) := by decide +kernel
  simp only [Option.bind_eq_some_iff, Option.map_eq_some_iff, Prod.mk.injEq] at hrun
  obtain ⟨c, hnew, t, hasked, t', hanswered, htip, htip', hget, hgone, hdelta⟩ := hrun
  have hinit : TippedSys.Initial ⟨⟨c, [], []⟩, 0⟩ := ⟨⟨_, _, hnew, rfl, rfl⟩, rfl⟩
  have hquiet : ∀ t a, a ∈ Sample.unanswered → Allowed (Sample.host false) Sys.never t a := by
    intro t a ha
    have hplain : a.plain = true :=
      List.all_eq_true.mp (by decide : Sample.unanswered.all Action.plain = true) a ha
    refine ⟨Sys.allowed_of_plain hplain, fun inclusion hinclusion ↦ ?_⟩
    simp only [Sample.unanswered, Sample.sync, List.cons_append, List.nil_append, List.mem_cons,
      List.not_mem_nil, or_false] at ha
    rcases ha with rfl | rfl | rfl
    · cases hinclusion
    · simp only [Sys.reported, PromiseResult.expectInclusion, Option.bind_eq_bind,
        Option.bind_fun_none, Option.mem_def, reduceCtorEq] at hinclusion
    · cases hinclusion
  have hreached : TippedSys.Reachable (Sample.host false) Sys.never t :=
    (Transition.Reachable.start hinit).runs (Transition.runs_of_execAll hquiet hasked)
  have hallowed : t.Allowed (Sample.host false) Sys.never Sample.answer := by
    refine ⟨trivial, fun inclusion hinclusion ↦ ?_⟩
    have hreported : inclusion = ⟨100, 200⟩ := by
      simp only [Sample.answer, Sample.included, Sys.reported, PromiseResult.expectInclusion,
        Option.bind_eq_bind, Option.mem_def, Option.bind_eq_some_iff, Option.some.injEq]
        at hinclusion
      obtain ⟨_, _, _, _, heq⟩ := hinclusion
      exact heq.symm
    rw [htip, hreported]
    exact ⟨Nat.zero_le _, by decide⟩
  have hreached' := hreached.next hallowed hanswered
  obtain ⟨cumulative, hcumulative⟩ := Option.isSome_iff_exists.mp hget
  refine ⟨t', hreached', hget, hgone, ?_⟩
  exact ((window_covers (Sample.host false) Sys.never).2 t' hreached' 111 202 7 3
    (by rw [htip']; decide) (by decide) (by rw [hdelta]; exact le_max_right _ _)).2 100 cumulative
    hcumulative hgone

end SatoshiBridge
