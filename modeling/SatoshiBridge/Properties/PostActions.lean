import SatoshiBridge.Model.SampleRun

/-!
# Post actions

A deposit goes on without its post actions when they are not accepted. The amounts are added before
the checks that would bound them: after an action that passes its own checks, a second one can
overflow the sum, and then the deposit cannot be verified at all.
-/

set_option autoImplicit false
set_option relaxedAutoImplicit false

namespace SatoshiBridge

variable {host : Host} {c : Contract}

/-- The post actions the bridge carries out with a mint. -/
structure PostActionsAccepted (host : Host) (c : Contract) (mintAmount : ℕ)
    (postActions : List PostAction) : Prop where
  number : postActions.length = 1 ∨ postActions.length = 2
  notBridge : ∀ a ∈ postActions, a.receiverId ≠ host.currentAccountId
  whitelisted : ∀ a ∈ postActions, a.receiverId ∈ c.postActionReceiverIdWhiteList
  templates : ∀ a ∈ postActions, ∀ templates,
    c.postActionMsgTemplates.lookup a.receiverId = some templates →
      msgIsMatch host templates a.msg = true
  gas : ∀ a ∈ postActions, ∀ gas ∈ a.gas, 30 * 10 ^ 12 ≤ gas ∧ gas ≤ 100 * 10 ^ 12
  totalGas : (postActions.map fun a ↦ a.gas.getD 0).sum ≤ 130 * 10 ^ 12
  totalAmount : (postActions.map PostAction.amount).sum ≤ mintAmount

theorem bind_eq_none_of_ne_none {α β : Type} {o : Option α} {f : α → Option β}
    (h : ∀ a, f a ≠ none) : o.bind f = none ↔ o = none := by
  cases o with
  | none => simp
  | some a => simpa using h a

/-! ### One action -/

theorem postActionAdmitted_iff {a : PostAction} : c.postActionAdmitted host a = true ↔
    a.receiverId ≠ host.currentAccountId ∧ a.receiverId ∈ c.postActionReceiverIdWhiteList ∧
      (∀ templates, c.postActionMsgTemplates.lookup a.receiverId = some templates →
        msgIsMatch host templates a.msg = true) ∧
      ∀ gas ∈ a.gas, 30 * 10 ^ 12 ≤ gas ∧ gas ≤ 100 * 10 ^ 12 := by
  unfold Contract.postActionAdmitted
  simp only [Bool.and_eq_true, decide_eq_true_eq, and_assoc]
  refine and_congr_right fun _ ↦ and_congr_right fun _ ↦ and_congr ?_ ?_
  · cases c.postActionMsgTemplates.lookup a.receiverId with
    | none => simp
    | some templates => simp
  · cases a.gas with
    | none => simp
    | some gas =>
      simp only [Option.mem_def, Option.some.injEq, forall_eq', Bool.and_eq_true]
      exact and_congr decide_eq_true_iff decide_eq_true_iff

/-! ### The loop -/

/-- The loop ends with its totals when every action passes and the amounts do not overflow. -/
theorem checkPostActions_eq_some : ∀ {actions : List PostAction} {gas amount gas' amount' : ℕ},
    amount < 2 ^ 128 →
      (c.checkPostActions host actions gas amount = some (some (gas', amount')) ↔
        (∀ a ∈ actions, c.postActionAdmitted host a = true) ∧
          gas' = gas + (actions.map fun a ↦ a.gas.getD 0).sum ∧
          amount' = amount + (actions.map PostAction.amount).sum ∧ amount' < 2 ^ 128) := by
  intro actions
  induction actions with
  | nil =>
    intro gas amount gas' amount' hamount
    simp only [Contract.checkPostActions, Option.some.injEq, Prod.mk.injEq, List.not_mem_nil,
      false_implies, implies_true, List.map_nil, List.sum_nil, Nat.add_zero, true_and]
    omega
  | cons action rest ih =>
    intro gas amount gas' amount' _
    simp only [Contract.checkPostActions, Option.bind_eq_bind, Option.bind_eq_some_iff,
      checkedAdd_eq_some, List.map_cons, List.sum_cons, List.forall_mem_cons]
    by_cases hadmitted : c.postActionAdmitted host action = true
    · simp only [hadmitted, if_true, true_and]
      constructor
      · rintro ⟨total, ⟨rfl, htotal⟩, hrest⟩
        obtain ⟨hall, hgas, hamount, hlt⟩ := (ih htotal).mp hrest
        exact ⟨hall, by omega, by omega, hlt⟩
      · rintro ⟨hall, hgas, hamount, hlt⟩
        have htotal : amount + action.amount < 2 ^ 128 := by omega
        exact ⟨_, ⟨rfl, htotal⟩, (ih htotal).mpr ⟨hall, by omega, by omega, hlt⟩⟩
    · simp only [if_neg hadmitted, Option.some.injEq, reduceCtorEq, and_false, exists_false,
        false_iff, not_and]
      exact fun h ↦ absurd h.1 hadmitted

/-- The loop panics at the first overflow that no rejected action precedes. -/
theorem checkPostActions_eq_none : ∀ {actions : List PostAction} {gas amount : ℕ},
    c.checkPostActions host actions gas amount = none ↔
      ∃ before action after, actions = before ++ action :: after ∧
        (∀ a ∈ before, c.postActionAdmitted host a = true) ∧
        2 ^ 128 ≤ amount + (before.map PostAction.amount).sum + action.amount := by
  intro actions
  induction actions with
  | nil => simp [Contract.checkPostActions]
  | cons first rest ih =>
    intro gas amount
    simp only [Contract.checkPostActions, Option.bind_eq_bind, Option.bind_eq_none_iff,
      checkedAdd_eq_some]
    by_cases hoverflow : 2 ^ 128 ≤ amount + first.amount
    · constructor
      · intro _
        exact ⟨[], first, rest, rfl, fun _ ha ↦ absurd ha List.not_mem_nil,
          by simpa using hoverflow⟩
      · rintro _ total ⟨rfl, htotal⟩
        omega
    · by_cases hadmitted : c.postActionAdmitted host first = true
      · simp only [if_pos hadmitted]
        constructor
        · intro h
          have hrest := h (amount + first.amount) ⟨rfl, by omega⟩
          obtain ⟨before, action, after, rfl, hbefore, hsum⟩ := ih.mp hrest
          refine ⟨first :: before, action, after, rfl, ?_, ?_⟩
          · exact List.forall_mem_cons.mpr ⟨hadmitted, hbefore⟩
          · rw [List.map_cons, List.sum_cons]
            omega
        · rintro ⟨before, action, after, heq, hbefore, hsum⟩ total ⟨rfl, _⟩
          cases before with
          | nil =>
            rw [List.nil_append, List.cons.injEq] at heq
            rw [← heq.1, List.map_nil, List.sum_nil] at hsum
            omega
          | cons other before =>
            rw [List.cons_append, List.cons.injEq] at heq
            rw [List.map_cons, List.sum_cons] at hsum
            refine ih.mpr ⟨before, action, after, heq.2, ?_, ?_⟩
            · exact (List.forall_mem_cons.mp hbefore).2
            · rw [heq.1]
              omega
      · simp only [if_neg hadmitted, reduceCtorEq, imp_false]
        constructor
        · intro h
          exact absurd ⟨rfl, by omega⟩ (h (amount + first.amount))
        · rintro ⟨before, action, after, heq, hbefore, hsum⟩ total ⟨rfl, htotal⟩
          cases before with
          | nil =>
            rw [List.nil_append, List.cons.injEq] at heq
            rw [← heq.1, List.map_nil, List.sum_nil] at hsum
            omega
          | cons other before =>
            rw [List.cons_append, List.cons.injEq] at heq
            rw [← heq.1] at hbefore
            exact hadmitted (List.forall_mem_cons.mp hbefore).1

/-- The accepted post actions are the one or two that pass the loop within the two totals. -/
theorem postActionsAccepted_iff {mintAmount : ℕ} {actions : List PostAction} :
    PostActionsAccepted host c mintAmount actions ↔
      (actions.length = 1 ∨ actions.length = 2) ∧
        (∀ a ∈ actions, c.postActionAdmitted host a = true) ∧
        (actions.map fun a ↦ a.gas.getD 0).sum ≤ 130 * 10 ^ 12 ∧
        (actions.map PostAction.amount).sum ≤ mintAmount := by
  simp only [postActionAdmitted_iff]
  constructor
  · intro h
    refine ⟨h.number, ?_, h.totalGas, h.totalAmount⟩
    exact fun a ha ↦ ⟨h.notBridge a ha, h.whitelisted a ha, h.templates a ha, h.gas a ha⟩
  · rintro ⟨hnumber, hadmitted, hgas, hamount⟩
    exact ⟨hnumber, fun a ha ↦ (hadmitted a ha).1, fun a ha ↦ (hadmitted a ha).2.1,
      fun a ha ↦ (hadmitted a ha).2.2.1, fun a ha ↦ (hadmitted a ha).2.2.2, hgas, hamount⟩

/-! ### The whole message -/

/-- A result of `check_deposit_msg` is the list of the accepted post actions, or nothing. -/
theorem checkDepositMsg_answers {msg : DepositMsg} {mintAmount : ℕ}
    {r : Option (List PostAction)} (h : c.checkDepositMsg host msg mintAmount = some r)
    (hmint : mintAmount < 2 ^ 128) (actions : List PostAction) :
    r = some actions ↔
      msg.postActions = some actions ∧ PostActionsAccepted host c mintAmount actions := by
  rw [postActionsAccepted_iff]
  unfold Contract.checkDepositMsg at h
  cases hpost : msg.postActions with
  | none =>
    rw [hpost, Option.some.injEq] at h
    simp [← h]
  | some given =>
    simp only [hpost] at h
    rw [Option.some.injEq]
    by_cases hnumber : given = [] ∨ maxPostActionsNum < given.length
    · rw [if_pos hnumber, Option.some.injEq] at h
      rw [← h]
      constructor
      · intro hsome
        cases hsome
      · rintro ⟨rfl, hlength, _⟩
        rcases hnumber with rfl | hmany
        · simp at hlength
        · unfold maxPostActionsNum at hmany
          omega
    · rw [if_neg hnumber] at h
      have hlength : given.length = 1 ∨ given.length = 2 := by
        rw [not_or, ← List.length_eq_zero_iff, maxPostActionsNum] at hnumber
        omega
      obtain ⟨totals, hloop, htotals⟩ := Option.bind_eq_some_iff.mp h
      cases totals with
      | none =>
        rw [Option.some.injEq] at htotals
        rw [← htotals]
        constructor
        · intro hsome
          cases hsome
        · rintro ⟨rfl, _, hadmitted, _, hamount⟩
          -- an accepted list would have gone through the loop
          have hthrough : c.checkPostActions host given 0 0 = some (some (_, _)) :=
            (checkPostActions_eq_some (by decide)).mpr ⟨hadmitted, rfl, rfl, by omega⟩
          rw [hthrough] at hloop
          cases hloop
      | some totals =>
        obtain ⟨totalGas, totalAmount⟩ := totals
        obtain ⟨hadmitted, hgas, hamount, _⟩ :=
          (checkPostActions_eq_some (by decide)).mp hloop
        rw [Nat.zero_add] at hgas hamount
        simp only at htotals
        by_cases hexceeds : maxTotalPostActionsGas < totalGas ∨ mintAmount < totalAmount
        · rw [if_pos hexceeds, Option.some.injEq] at htotals
          rw [← htotals]
          constructor
          · intro hsome
            cases hsome
          · rintro ⟨rfl, _, _, hgasBound, hamountBound⟩
            unfold maxTotalPostActionsGas at hexceeds
            omega
        · rw [if_neg hexceeds, Option.some.injEq] at htotals
          rw [← htotals, Option.some.injEq]
          constructor
          · rintro rfl
            rw [not_or, maxTotalPostActionsGas] at hexceeds
            exact ⟨rfl, hlength, hadmitted, by omega, by omega⟩
          · rintro ⟨hsame, _⟩
            exact hsame

/-- `check_deposit_msg` panics on two post actions alone, when the first one passes its own checks
and the second one takes the sum of the amounts over the width of the counter. -/
theorem checkDepositMsg_eq_none {msg : DepositMsg} {mintAmount : ℕ} :
    c.checkDepositMsg host msg mintAmount = none ↔
      ∃ first second, msg.postActions = some [first, second] ∧
        c.postActionAdmitted host first = true ∧ 2 ^ 128 ≤ first.amount + second.amount := by
  unfold Contract.checkDepositMsg
  cases hpost : msg.postActions with
  | none => simp
  | some given =>
    simp only [Option.some.injEq]
    by_cases hnumber : given = [] ∨ maxPostActionsNum < given.length
    · rw [if_pos hnumber]
      constructor
      · intro h
        cases h
      · rintro ⟨first, second, rfl, _⟩
        simp [maxPostActionsNum] at hnumber
    · rw [if_neg hnumber, Option.bind_eq_bind]
      have hloop : c.checkPostActions host given 0 0 = none ↔ _ := checkPostActions_eq_none
      refine (bind_eq_none_of_ne_none ?_).trans (hloop.trans ?_)
      · intro totals
        cases totals with
        | none => simp
        | some totals =>
          simp only
          split <;> simp
      have hlength : given.length ≤ 2 := by
        rw [not_or, maxPostActionsNum] at hnumber
        omega
      constructor
      · rintro ⟨before, action, after, rfl, hbefore, hsum⟩
        rw [List.length_append, List.length_cons] at hlength
        cases before with
        | nil =>
          have hone := action.amount_lt
          rw [List.map_nil, List.sum_nil] at hsum
          omega
        | cons first before =>
          rw [List.length_cons] at hlength
          have hempty : before = [] := List.length_eq_zero_iff.mp (by omega)
          have hlast : after = [] := List.length_eq_zero_iff.mp (by omega)
          rw [hempty, List.map_cons, List.map_nil, List.sum_cons, List.sum_nil] at hsum
          refine ⟨first, action, ?_, hbefore first List.mem_cons_self, by omega⟩
          rw [hempty, hlast]
          rfl
      · rintro ⟨first, second, rfl, hadmitted, hsum⟩
        refine ⟨[first], second, [], rfl, ?_, ?_⟩
        · exact fun a ha ↦ List.mem_singleton.mp ha ▸ hadmitted
        · rw [List.map_cons, List.map_nil, List.sum_cons, List.sum_nil]
          omega

/-- The post actions are answered for, accepted or dropped, unless two of them overflow the sum of
the amounts after the first one has passed. -/
theorem checkDepositMsg_answers_iff (host : Host) (c : Contract) (msg : DepositMsg)
    (mintAmount : ℕ) (hmint : mintAmount < 2 ^ 128) :
    (∃ r, c.checkDepositMsg host msg mintAmount = some r ∧
      ∀ actions, r = some actions ↔
        msg.postActions = some actions ∧ PostActionsAccepted host c mintAmount actions) ↔
    ¬ ∃ first second, msg.postActions = some [first, second] ∧
      c.postActionAdmitted host first = true ∧ 2 ^ 128 ≤ first.amount + second.amount := by
  have hpanic : c.checkDepositMsg host msg mintAmount = none ↔ _ := checkDepositMsg_eq_none
  rw [← hpanic]
  constructor
  · rintro ⟨r, hr, _⟩ hnone
    rw [hr] at hnone
    cases hnone
  · intro hdefined
    obtain ⟨r, hr⟩ := Option.ne_none_iff_exists'.mp hdefined
    exact ⟨r, hr, checkDepositMsg_answers hr hmint⟩

/-! ### A whitelisted receiver -/

namespace Sample

/-- The DAO whitelists an exchange. -/
def listDex : List Action := [.call (env "dao" 1 1) (.extendPostActionReceiverIdWhiteList ["dex"])]

theorem noGas_lt : ∀ g ∈ (none : Option ℕ), g < 2 ^ 64 :=
  fun g hg ↦ absurd hg (Option.not_mem_none g)

/-- Sends an amount to the exchange. -/
def swap (amount : ℕ) (hamount : amount < 2 ^ 128) : PostAction where
  receiverId := "dex"
  amount := amount
  memo := none
  msg := "swap"
  gas := none
  receiverId_valid := by decide +kernel
  amount_lt := hamount
  gas_lt := noGas_lt

/-- A deposit for Alice with two swaps. -/
def swapMsg (first second : PostAction) : DepositMsg :=
  { aliceMsg with postActions := some [first, second] }

/-- Two swaps within a mint of 1000. -/
def smallSwaps : DepositMsg := swapMsg (swap 600 (by decide)) (swap 300 (by decide))

/-- Two swaps of half the width of the counter each. -/
def wideSwaps : DepositMsg :=
  swapMsg (swap (2 ^ 127) (by decide)) (swap (2 ^ 127) (by decide))

end Sample

/-- Two swaps within the mint are carried out. -/
theorem checkDepositMsg_answers_iff_swaps :
    ∃ s, Sample.after Sample.listDex = some s ∧
      ∃ r, s.contract.checkDepositMsg (Sample.host false) Sample.smallSwaps 1000 = some r ∧
        ∀ actions, r = some actions ↔
          Sample.smallSwaps.postActions = some actions ∧
            PostActionsAccepted (Sample.host false) s.contract 1000 actions := by
  have hrun : (Sample.after Sample.listDex).isSome := by decide +kernel
  obtain ⟨s, hs⟩ := Option.isSome_iff_exists.mp hrun
  refine ⟨s, hs, (checkDepositMsg_answers_iff _ s.contract _ 1000 (by decide)).mpr ?_⟩
  rintro ⟨first, second, hpost, _, hsum⟩
  simp only [Sample.smallSwaps, Sample.swapMsg, Option.some.injEq, List.cons.injEq,
    and_true] at hpost
  rw [← hpost.1, ← hpost.2] at hsum
  exact absurd hsum (by decide)

/-- Two swaps of half the width of the counter each make the deposit impossible to verify. -/
theorem checkDepositMsg_unanswered :
    ∃ s, Sample.after Sample.listDex = some s ∧
      ¬ ∃ r, s.contract.checkDepositMsg (Sample.host false) Sample.wideSwaps 1000 = some r := by
  have hrun : ((Sample.after Sample.listDex).bind fun s ↦
      if s.contract.checkDepositMsg (Sample.host false) Sample.wideSwaps 1000 = none
      then some s else none).isSome := by
    decide +kernel
  obtain ⟨s, hsome⟩ := Option.isSome_iff_exists.mp hrun
  obtain ⟨s', hs, hpanic⟩ := Option.bind_eq_some_iff.mp hsome
  refine ⟨s', hs, ?_⟩
  rintro ⟨r, hr⟩
  rw [hr] at hpanic
  cases hpanic

end SatoshiBridge
