import SatoshiBridge.Library.Transition

/-!
# What a run has been through

A state does not show the steps that led to it. A history is a run with its steps on record. What a
state has but no initial state has came in by a step of the history, whichever run it was; the step
may in turn be possible only after another one, so causes are traced back step by step.
-/

set_option autoImplicit false
set_option relaxedAutoImplicit false

namespace Transition

variable {State Act : Type}

/-- A step on record. -/
structure Record (State Act : Type) where
  before : State
  action : Act
  after : State

/-- A run from an initial state, with its steps, the last one first, and the state it leads to. -/
inductive History (initial : State → Prop) (exec : State → Act → Option State)
    (allowed : State → Act → Prop) : List (Record State Act) → State → Prop
  | start {s : State} (hs : initial s) : History initial exec allowed [] s
  | next {steps : List (Record State Act)} {s s' : State} {a : Act}
      (h : History initial exec allowed steps s) (ha : allowed s a) (he : exec s a = some s') :
      History initial exec allowed (⟨s, a, s'⟩ :: steps) s'

/-- A kind of step, given by the state before, the action and the state after. -/
abbrev Event (State Act : Type) := State → Act → State → Prop

/-- A step of this kind has been taken. -/
def Once (event : Event State Act) (steps : List (Record State Act)) : Prop :=
  ∃ step ∈ steps, event step.before step.action step.after

namespace Once

variable {event weaker : Event State Act} {steps earlier : List (Record State Act)}

theorem now {s s' : State} {a : Act} (h : event s a s') : Once event (⟨s, a, s'⟩ :: steps) :=
  ⟨⟨s, a, s'⟩, List.mem_cons_self, h⟩

theorem later {step : Record State Act} (h : Once event steps) : Once event (step :: steps) := by
  obtain ⟨taken, hmem, hevent⟩ := h
  exact ⟨taken, List.mem_cons_of_mem step hmem, hevent⟩

theorem suffix (h : Once event earlier) (hsuffix : earlier <:+ steps) : Once event steps := by
  obtain ⟨taken, hmem, hevent⟩ := h
  exact ⟨taken, hsuffix.mem hmem, hevent⟩

theorem imp (h : Once event steps) (himp : ∀ s a s', event s a s' → weaker s a s') :
    Once weaker steps := by
  obtain ⟨taken, hmem, hevent⟩ := h
  exact ⟨taken, hmem, himp _ _ _ hevent⟩

end Once

/-- Steps of these kinds have been taken one after the other, the one of the first kind last. -/
def InOrder : List (Event State Act) → List (Record State Act) → Prop
  | [], _ => True
  | event :: events, steps => ∃ step earlier, step :: earlier <:+ steps ∧
      event step.before step.action step.after ∧ InOrder events earlier

namespace InOrder

variable {event : Event State Act} {events : List (Event State Act)}
  {steps earlier : List (Record State Act)}

theorem suffix (h : InOrder events earlier) (hsuffix : earlier <:+ steps) :
    InOrder events steps := by
  cases events with
  | nil => trivial
  | cons event events =>
    obtain ⟨step, before, hstep, hevent, horder⟩ := h
    exact ⟨step, before, hstep.trans hsuffix, hevent, horder⟩

theorem later {step : Record State Act} (h : InOrder events steps) :
    InOrder events (step :: steps) :=
  h.suffix (List.suffix_cons step steps)

theorem of_once (h : Once event steps) : InOrder [event] steps := by
  obtain ⟨step, hmem, hevent⟩ := h
  obtain ⟨later, earlier, rfl⟩ := List.append_of_mem hmem
  exact ⟨step, earlier, List.suffix_append later (step :: earlier), hevent, trivial⟩

theorem now {s s' : State} {a : Act} (h : event s a s') (horder : InOrder events steps) :
    InOrder (event :: events) (⟨s, a, s'⟩ :: steps) :=
  ⟨⟨s, a, s'⟩, steps, List.suffix_refl _, h, horder⟩

end InOrder

variable {initial : State → Prop} {exec : State → Act → Option State}
  {allowed : State → Act → Prop} {steps : List (Record State Act)} {s : State}

namespace History

theorem reachable (h : History initial exec allowed steps s) :
    Reachable initial exec allowed s := by
  induction h with
  | start hs => exact .start hs
  | next _ ha he ih => exact ih.next ha he

/-- A step on record was taken in a state that the steps before it had led to, and the run went on
from there. -/
theorem of_suffix (h : History initial exec allowed steps s) {step : Record State Act}
    {earlier : List (Record State Act)} (hsuffix : step :: earlier <:+ steps) :
    History initial exec allowed earlier step.before ∧ allowed step.before step.action ∧
      exec step.before step.action = some step.after ∧ Runs exec allowed step.after s := by
  induction h with
  | start =>
    rw [List.suffix_nil] at hsuffix
    cases hsuffix
  | next h ha he ih =>
    rcases List.suffix_cons_iff.mp hsuffix with heq | hsuffix
    · cases heq
      exact ⟨h, ha, he, .refl⟩
    · obtain ⟨hearlier, ha', he', hruns⟩ := ih hsuffix
      exact ⟨hearlier, ha', he', hruns.tail ⟨_, ha, he⟩⟩

theorem taken (h : History initial exec allowed steps s) {step : Record State Act}
    (hmem : step ∈ steps) : ∃ earlier, History initial exec allowed earlier step.before ∧
      allowed step.before step.action ∧ exec step.before step.action = some step.after ∧
      step :: earlier <:+ steps := by
  obtain ⟨later, earlier, rfl⟩ := List.append_of_mem hmem
  have hsuffix : step :: earlier <:+ later ++ step :: earlier := List.suffix_append _ _
  obtain ⟨hearlier, ha, he, _⟩ := h.of_suffix hsuffix
  exact ⟨earlier, hearlier, ha, he, hsuffix⟩

/-- The run went on from every step on record. -/
theorem runs (h : History initial exec allowed steps s) {step : Record State Act}
    (hmem : step ∈ steps) : Runs exec allowed step.before s := by
  obtain ⟨later, earlier, rfl⟩ := List.append_of_mem hmem
  obtain ⟨_, ha, he, hruns⟩ := h.of_suffix (List.suffix_append later (step :: earlier))
  exact Relation.ReflTransGen.head ⟨_, ha, he⟩ hruns

/-- What a state has and no initial state has came in by a step, if every step that brings it is of
the kind. -/
theorem once {event : Event State Act} {Has : State → Prop} (hinit : ∀ s, initial s → ¬Has s)
    (hstep : ∀ steps s a s', History initial exec allowed steps s → allowed s a →
      exec s a = some s' → Has s' → Has s ∨ event s a s') :
    ∀ steps s, History initial exec allowed steps s → Has s → Once event steps := by
  intro steps s h
  induction h with
  | start hs => exact fun hhas ↦ absurd hhas (hinit _ hs)
  | next h ha he ih =>
    intro hhas
    rcases hstep _ _ _ _ h ha he hhas with hold | hnew
    · exact (ih hold).later
    · exact .now hnew

end History

/-- A state that is reached has a history. -/
theorem Reachable.history :
    ∀ s, Reachable initial exec allowed s → ∃ steps, History initial exec allowed steps s := by
  refine Reachable.induct (fun s hs ↦ ⟨[], .start hs⟩) ?_
  rintro s a s' _ ⟨steps, h⟩ ha he
  exact ⟨_, h.next ha he⟩

end Transition
