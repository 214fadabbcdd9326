import Mathlib.Logic.Relation

/-!
# Guarded transition systems

A system is a partial step function together with a guard that says which actions may be taken in
which states; a run takes allowed actions only. An invariant is proved once, by the two usual
obligations, and carried to every reachable state. A simulation maps every concrete step to a
sequence of abstract steps, and then every run to an abstract run.
-/

set_option autoImplicit false
set_option relaxedAutoImplicit false

namespace Transition

variable {State Act : Type}

/-- One step of the system under a guard. -/
def Step (exec : State → Act → Option State) (allowed : State → Act → Prop)
    (s s' : State) : Prop :=
  ∃ a, allowed s a ∧ exec s a = some s'

/-- Runs of the system under a guard. -/
def Runs (exec : State → Act → Option State) (allowed : State → Act → Prop) :
    State → State → Prop :=
  Relation.ReflTransGen (Step exec allowed)

/-- The states reached by a run from an initial state. -/
def Reachable (initial : State → Prop) (exec : State → Act → Option State)
    (allowed : State → Act → Prop) (s : State) : Prop :=
  ∃ s₀, initial s₀ ∧ Runs exec allowed s₀ s

variable {initial : State → Prop} {exec : State → Act → Option State}
  {allowed weaker : State → Act → Prop}

theorem Reachable.start {s : State} (h : initial s) : Reachable initial exec allowed s :=
  ⟨s, h, .refl⟩

theorem Reachable.next {s s' : State} {a : Act} (h : Reachable initial exec allowed s)
    (ha : allowed s a) (hs : exec s a = some s') : Reachable initial exec allowed s' := by
  obtain ⟨s₀, h₀, hrun⟩ := h
  exact ⟨s₀, h₀, hrun.tail ⟨a, ha, hs⟩⟩

theorem Reachable.runs {s s' : State} (h : Reachable initial exec allowed s)
    (hr : Runs exec allowed s s') : Reachable initial exec allowed s' := by
  obtain ⟨s₀, h₀, hrun⟩ := h
  exact ⟨s₀, h₀, hrun.trans hr⟩

/-- The induction over reachable states: what holds initially and survives every allowed step of a
reachable state holds in every reachable state. -/
theorem Reachable.induct {Inv : State → Prop} (hinit : ∀ s, initial s → Inv s)
    (hstep : ∀ s a s', Reachable initial exec allowed s → Inv s → allowed s a →
      exec s a = some s' → Inv s') :
    ∀ s, Reachable initial exec allowed s → Inv s := by
  rintro s ⟨s₀, h₀, hrun⟩
  induction hrun with
  | refl => exact hinit s₀ h₀
  | tail hprev hlast ih =>
    obtain ⟨a, ha, hs⟩ := hlast
    exact hstep _ a _ ⟨s₀, h₀, hprev⟩ ih ha hs

theorem Runs.mono (hle : ∀ s a, allowed s a → weaker s a) {s s' : State}
    (h : Runs exec allowed s s') : Runs exec weaker s s' := by
  induction h with
  | refl => exact .refl
  | tail _ hlast ih =>
    obtain ⟨a, ha, he⟩ := hlast
    exact ih.tail ⟨a, hle _ a ha, he⟩

/-- A weaker guard reaches more states. -/
theorem Reachable.mono (hle : ∀ s a, allowed s a → weaker s a) {s : State}
    (h : Reachable initial exec allowed s) : Reachable initial exec weaker s := by
  obtain ⟨s₀, h₀, hrun⟩ := h
  exact ⟨s₀, h₀, hrun.mono hle⟩

/-- A property kept by every allowed step from a reachable state is kept along runs. -/
theorem Runs.stable {P : State → Prop}
    (hstep : ∀ s a s', Reachable initial exec allowed s → P s → allowed s a →
      exec s a = some s' → P s') {s s' : State} (hs : Reachable initial exec allowed s)
    (hP : P s) (h : Runs exec allowed s s') : P s' := by
  induction h with
  | refl => exact hP
  | tail hprev hlast ih =>
    obtain ⟨a, ha, he⟩ := hlast
    exact hstep _ a _ (hs.runs hprev) ih ha he

/-! ### Executing a list of actions -/

/-- Executes a list of actions from the left; fails on the first action that fails. -/
def execAll (exec : State → Act → Option State) : State → List Act → Option State
  | s, [] => some s
  | s, a :: rest => do execAll exec (← exec s a) rest

/-- A step that goes through leaves the rest of the list. -/
theorem execAll_cons {s s' : State} {a : Act} {actions : List Act} (h : exec s a = some s') :
    execAll exec s (a :: actions) = execAll exec s' actions := by
  rw [execAll, h]
  rfl

/-- The steps a list of actions takes, each with the state it is taken in. -/
def taken (exec : State → Act → Option State) : State → List Act → List (State × Act)
  | _, [] => []
  | s, a :: rest =>
    match exec s a with
    | some s' => (s, a) :: taken exec s' rest
    | none => []

/-- A list of actions that executes and whose every step is allowed is a run. -/
theorem runs_of_taken {actions : List Act} : ∀ {s s' : State},
    (∀ x ∈ taken exec s actions, allowed x.1 x.2) → execAll exec s actions = some s' →
      Runs exec allowed s s' := by
  induction actions with
  | nil => intro s s' _ h; cases h; exact .refl
  | cons a rest ih =>
    intro s s' hall h
    simp only [execAll, Option.bind_eq_bind, Option.bind_eq_some_iff] at h
    obtain ⟨mid, hmid, hrest⟩ := h
    simp only [taken, hmid, List.forall_mem_cons] at hall
    exact Relation.ReflTransGen.head ⟨a, hall.1, hmid⟩ (ih hall.2 hrest)

theorem mem_of_taken {actions : List Act} {x : State × Act} : ∀ {s : State},
    x ∈ taken exec s actions → x.2 ∈ actions := by
  induction actions with
  | nil => intro s hx; exact absurd hx List.not_mem_nil
  | cons a rest ih =>
    intro s hx
    unfold taken at hx
    split at hx
    · rcases List.mem_cons.mp hx with rfl | hx
      · exact List.mem_cons_self
      · exact List.mem_cons_of_mem a (ih hx)
    · exact absurd hx List.not_mem_nil

/-- In particular when every action is allowed in any state. -/
theorem runs_of_execAll {actions : List Act} {s s' : State}
    (hall : ∀ s a, a ∈ actions → allowed s a) (h : execAll exec s actions = some s') :
    Runs exec allowed s s' :=
  runs_of_taken (fun x hx ↦ hall x.1 x.2 (mem_of_taken hx)) h

/-- The states a list of actions goes through, up to the first action that fails. -/
def visited (exec : State → Act → Option State) : State → List Act → List State
  | s, [] => [s]
  | s, a :: rest =>
    s :: match exec s a with
      | some s' => visited exec s' rest
      | none => []

/-- A condition that is exact for one step is exact for runs: where an invariant gives the property
and is kept by the steps that meet the condition, and a step that misses it loses the property, the
property holds all along a list of actions exactly when every step taken meets the condition. -/
theorem visited_iff_taken {Inv Good : State → Prop} {Meets : State → Act → Prop}
    (hgood : ∀ s, Inv s → Good s)
    (hkeep : ∀ s a s', Inv s → exec s a = some s' → Meets s a → Inv s')
    (hlose : ∀ s a s', Inv s → exec s a = some s' → Good s' → Meets s a) (actions : List Act) :
    ∀ s, Inv s → ((∀ x ∈ visited exec s actions, Good x) ↔
      ∀ x ∈ taken exec s actions, Meets x.1 x.2) := by
  induction actions with
  | nil =>
    intro s hs
    simp only [visited, taken, List.mem_singleton, forall_eq, List.not_mem_nil, false_implies,
      implies_true, iff_true]
    exact hgood s hs
  | cons a rest ih =>
    intro s hs
    cases hexec : exec s a with
    | none =>
      simp only [visited, taken, hexec, List.mem_singleton, forall_eq, List.not_mem_nil,
        false_implies, implies_true, iff_true]
      exact hgood s hs
    | some s' =>
      simp only [visited, taken, hexec, List.forall_mem_cons]
      constructor
      · intro ⟨_, hrest⟩
        have hstart : s' ∈ visited exec s' rest := by
          cases rest with
          | nil => exact List.mem_singleton_self s'
          | cons _ _ => exact List.mem_cons_self
        have hmeets : Meets s a := hlose s a s' hs hexec (hrest s' hstart)
        exact ⟨hmeets, (ih s' (hkeep s a s' hs hexec hmeets)).mp hrest⟩
      · intro ⟨hmeets, hrest⟩
        exact ⟨hgood s hs, (ih s' (hkeep s a s' hs hexec hmeets)).mpr hrest⟩

/-! ### Simulation -/

variable {Abs : Type} {abstraction : State → Abs} {AbsStep : Abs → Abs → Prop}

/-- If every allowed step of a reachable state is a sequence of abstract steps, then every
invariant of the abstract steps holds of the abstraction of every reachable state. -/
theorem Reachable.abstract_invariant {Inv : Abs → Prop}
    (hinit : ∀ s, initial s → Inv (abstraction s))
    (hkeep : ∀ x y, AbsStep x y → Inv x → Inv y)
    (hsim : ∀ s a s', Reachable initial exec allowed s → allowed s a → exec s a = some s' →
      Relation.ReflTransGen AbsStep (abstraction s) (abstraction s')) :
    ∀ s, Reachable initial exec allowed s → Inv (abstraction s) := by
  refine Reachable.induct hinit ?_
  intro s a s' hs hInv ha he
  have hsteps := hsim s a s' hs ha he
  generalize abstraction s' = target at hsteps ⊢
  induction hsteps with
  | refl => exact hInv
  | tail _ hlast ih => exact hkeep _ _ hlast ih

end Transition
