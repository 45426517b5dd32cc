import Mathlib.Data.List.Basic

/-! # Step systems

A system is given by the effect of one labelled step; a run performs a list of
labels. The rules below turn what one step preserves into what every run
preserves, for all runs or for the runs whose steps meet a condition. -/

namespace Raphael.Foundation

/-- The effect of one labelled step. `none` means that the step cannot be taken
in that state. -/
abbrev StepFunction (State : Type u) (Label : Type v) := State → Label → Option State

namespace StepFunction

variable {State : Type u} {Label : Type v}

/-- Perform the labelled steps in order. -/
def run (step : StepFunction State Label) : State → List Label → Option State
  | state, [] => some state
  | state, label :: rest => (step state label).bind fun next => run step next rest

/-- Every step of the run is taken in a state that meets the condition. -/
def Meets (step : StepFunction State Label) (condition : State → Label → Prop) :
    State → List Label → Prop
  | _, [] => True
  | state, label :: rest =>
      condition state label ∧
        ∀ next, step state label = some next → Meets step condition next rest

instance Meets.decidable (step : StepFunction State Label)
    (condition : State → Label → Prop) [∀ state label, Decidable (condition state label)] :
    (state : State) → (labels : List Label) → Decidable (Meets step condition state labels)
  | _, [] => isTrue trivial
  | state, label :: rest =>
      match stepped : step state label with
      | none => decidable_of_iff (condition state label)
          ⟨fun holds => ⟨holds, fun _ reached => by simp [stepped] at reached⟩, And.left⟩
      | some next =>
          have := Meets.decidable step condition next rest
          decidable_of_iff (condition state label ∧ Meets step condition next rest)
            (and_congr_right fun _ => by simp [stepped])

@[simp] theorem run_nil (step : StepFunction State Label) (state : State) :
    run step state [] = some state := rfl

theorem run_cons_eq_some {step : StepFunction State Label} {state final : State}
    {label : Label} {rest : List Label} :
    run step state (label :: rest) = some final ↔
      ∃ next, step state label = some next ∧ run step next rest = some final := by
  simp [run, Option.bind_eq_some_iff]

theorem run_append (step : StepFunction State Label) (state : State)
    (first second : List Label) :
    run step state (first ++ second) =
      (run step state first).bind fun middle => run step middle second := by
  induction first generalizing state with
  | nil => rfl
  | cons label rest induction =>
      simp only [List.cons_append, run]
      cases step state label with
      | none => rfl
      | some next => exact induction next

theorem run_append_eq_some {step : StepFunction State Label}
    {state final : State} {first second : List Label} :
    run step state (first ++ second) = some final ↔
      ∃ middle, run step state first = some middle ∧
        run step middle second = some final := by
  rw [run_append]
  exact Option.bind_eq_some_iff

theorem meets_append {step : StepFunction State Label}
    {condition : State → Label → Prop} {state : State}
    {first second : List Label} :
    Meets step condition state (first ++ second) ↔
      Meets step condition state first ∧
        ∀ middle, run step state first = some middle →
          Meets step condition middle second := by
  induction first generalizing state with
  | nil => simp [Meets]
  | cons label rest induction =>
      simp only [List.cons_append, Meets, induction, run_cons_eq_some]
      constructor
      · rintro ⟨holds, later⟩
        exact ⟨⟨holds, fun next stepped => (later next stepped).1⟩,
          fun middle ⟨next, stepped, reached⟩ => (later next stepped).2 middle reached⟩
      · rintro ⟨⟨holds, front⟩, back⟩
        exact ⟨holds, fun next stepped => ⟨front next stepped,
          fun middle reached => back middle ⟨next, stepped, reached⟩⟩⟩

theorem meets_true (step : StepFunction State Label) (state : State)
    (labels : List Label) : Meets step (fun _ _ => True) state labels := by
  induction labels generalizing state with
  | nil => trivial
  | cons label rest induction => exact ⟨trivial, fun next _ => induction next⟩

/-- What one conditioned step preserves, every run of such steps preserves. -/
theorem invariant_of_meets {step : StepFunction State Label}
    {condition : State → Label → Prop} {Invariant : State → Prop}
    (preserved : ∀ state label next, Invariant state → condition state label →
      step state label = some next → Invariant next)
    {state final : State} {labels : List Label}
    (holds : Invariant state) (meets : Meets step condition state labels)
    (reached : run step state labels = some final) : Invariant final := by
  induction labels generalizing state with
  | nil =>
      cases reached
      exact holds
  | cons label rest induction =>
      rcases run_cons_eq_some.mp reached with ⟨next, stepped, remaining⟩
      exact induction (preserved state label next holds meets.1 stepped)
        (meets.2 next stepped) remaining

/-- What every step preserves, every run preserves. -/
theorem invariant_of_run {step : StepFunction State Label}
    {Invariant : State → Prop}
    (preserved : ∀ state label next, Invariant state →
      step state label = some next → Invariant next)
    {state final : State} {labels : List Label}
    (holds : Invariant state) (reached : run step state labels = some final) :
    Invariant final :=
  invariant_of_meets
    (fun state label next valid _ stepped => preserved state label next valid stepped)
    holds (meets_true step state labels) reached

/-- The same of an invariant that also reads the steps taken so far. -/
theorem history_of_meets {step : StepFunction State Label}
    {condition : State → Label → Prop} (Invariant : List Label → State → Prop)
    (preserved : ∀ past state label next, Invariant past state → condition state label →
      step state label = some next → Invariant (past ++ [label]) next)
    (past : List Label) {state final : State} {labels : List Label}
    (holds : Invariant past state) (meets : Meets step condition state labels)
    (reached : run step state labels = some final) : Invariant (past ++ labels) final := by
  induction labels generalizing past state with
  | nil =>
      cases reached
      rwa [List.append_nil]
  | cons label rest induction =>
      rcases run_cons_eq_some.mp reached with ⟨next, stepped, remaining⟩
      rw [List.append_cons]
      exact induction (past ++ [label]) (preserved past state label next holds meets.1 stepped)
        (meets.2 next stepped) remaining

/-- Steps that meet a condition meet what an invariant makes of it. -/
theorem meets_of_meets {step : StepFunction State Label}
    {condition wanted : State → Label → Prop} {Invariant : State → Prop}
    (preserved : ∀ state label next, Invariant state → condition state label →
      step state label = some next → Invariant next)
    (implied : ∀ state label, Invariant state → condition state label → wanted state label)
    {state : State} {labels : List Label} (holds : Invariant state)
    (meets : Meets step condition state labels) : Meets step wanted state labels := by
  induction labels generalizing state with
  | nil => trivial
  | cons label rest induction =>
      refine ⟨implied state label holds meets.1, fun next stepped => ?_⟩
      exact induction (preserved state label next holds meets.1 stepped) (meets.2 next stepped)

/-- A condition on the labels alone beside one on the steps. -/
theorem meets_and {step : StepFunction State Label} {condition : State → Label → Prop}
    {admitted : Label → Prop} {state : State} {labels : List Label}
    (all : ∀ label ∈ labels, admitted label) (meets : Meets step condition state labels) :
    Meets step (fun state label => admitted label ∧ condition state label) state labels := by
  induction labels generalizing state with
  | nil => trivial
  | cons label rest induction =>
      refine ⟨⟨all label List.mem_cons_self, meets.1⟩, fun next stepped => ?_⟩
      exact induction (fun other member => all other (List.mem_cons_of_mem label member))
        (meets.2 next stepped)

/-- A reflexive and transitive relation that every conditioned step respects
relates the two ends of a run. -/
theorem related_of_meets {step : StepFunction State Label}
    {condition : State → Label → Prop} (Invariant : State → Prop)
    {Related : State → State → Prop}
    (reflexive : ∀ state, Related state state)
    (transitive : ∀ first middle last, Related first middle →
      Related middle last → Related first last)
    (preserved : ∀ state label next, Invariant state → condition state label →
      step state label = some next → Invariant next ∧ Related state next)
    {state final : State} {labels : List Label}
    (holds : Invariant state) (meets : Meets step condition state labels)
    (reached : run step state labels = some final) : Related state final := by
  induction labels generalizing state with
  | nil =>
      cases reached
      exact reflexive _
  | cons label rest induction =>
      rcases run_cons_eq_some.mp reached with ⟨next, stepped, remaining⟩
      rcases preserved state label next holds meets.1 stepped with ⟨valid, related⟩
      exact transitive _ _ _ related
        (induction valid (meets.2 next stepped) remaining)

/-- What is wanted holds in every state that the run comes to. -/
def Throughout (step : StepFunction State Label) (Wanted : State → Prop) (state : State)
    (labels : List Label) : Prop :=
  ∀ taken middle, taken <+: labels → run step state taken = some middle → Wanted middle

theorem throughout_cons {step : StepFunction State Label} {Wanted : State → Prop}
    {state : State} {label : Label} {rest : List Label} :
    Throughout step Wanted state (label :: rest) ↔
      Wanted state ∧ ∀ next, step state label = some next → Throughout step Wanted next rest := by
  constructor
  · intro holds
    refine ⟨holds [] state (List.nil_prefix) rfl, fun next stepped taken middle front reached => ?_⟩
    exact holds (label :: taken) middle (List.cons_prefix_cons.mpr ⟨rfl, front⟩)
      (run_cons_eq_some.mpr ⟨next, stepped, reached⟩)
  · rintro ⟨now, later⟩ taken middle front reached
    cases taken with
    | nil =>
        cases reached
        exact now
    | cons first taken =>
        rcases List.cons_prefix_cons.mp front with ⟨rfl, tail⟩
        rcases run_cons_eq_some.mp reached with ⟨next, stepped, remaining⟩
        exact later next stepped taken middle tail remaining

/-- Where a step leads to a wanted state exactly when it meets the condition, a run has only
wanted states exactly when all its steps meet it. -/
theorem throughout_iff_meets {step : StepFunction State Label}
    {condition : State → Label → Prop} {Invariant Wanted : State → Prop}
    (preserved : ∀ state label next, Invariant state → Wanted state →
      step state label = some next → Invariant next ∧ (Wanted next ↔ condition state label))
    (disabled : ∀ state label, step state label = none → condition state label)
    {state : State} {labels : List Label} (holds : Invariant state) (wanted : Wanted state) :
    Throughout step Wanted state labels ↔ Meets step condition state labels := by
  induction labels generalizing state with
  | nil =>
      refine iff_of_true (fun taken middle front reached => ?_) trivial
      cases List.prefix_nil.mp front
      cases reached
      exact wanted
  | cons label rest induction =>
      rw [throughout_cons, Meets]
      cases stepped : step state label with
      | none =>
          exact iff_of_true ⟨wanted, fun next reached => by cases reached⟩
            ⟨disabled state label stepped, fun next reached => by cases reached⟩
      | some next =>
          rcases preserved state label next holds wanted stepped with ⟨kept, same⟩
          constructor
          · rintro ⟨_, later⟩
            have wantedNext : Wanted next := later next rfl [] next List.nil_prefix rfl
            refine ⟨same.mp wantedNext, fun other reached => ?_⟩
            cases reached
            exact (induction kept wantedNext).mp (later next rfl)
          · rintro ⟨now, later⟩
            refine ⟨wanted, fun other reached => ?_⟩
            cases reached
            exact (induction kept (same.mpr now)).mpr (later next rfl)

theorem wanted_of_run {step : StepFunction State Label} {Wanted : State → Prop}
    (persists : ∀ state label next, step state label = some next → Wanted next → Wanted state)
    {state final : State} {labels : List Label}
    (reached : run step state labels = some final) (wanted : Wanted final) : Wanted state := by
  induction labels generalizing state with
  | nil =>
      cases reached
      exact wanted
  | cons label rest induction =>
      rcases run_cons_eq_some.mp reached with ⟨next, stepped, remaining⟩
      exact persists state label next stepped (induction remaining)

/-- Where what is unwanted stays so, and a given step from a wanted state leads to a wanted
one exactly when it meets the condition, a run of given steps ends in a wanted state exactly
when all its steps meet the condition. -/
theorem final_iff_meets {step : StepFunction State Label}
    {given condition : State → Label → Prop} {Invariant Wanted : State → Prop}
    (preserved : ∀ state label next, Invariant state → Wanted state → given state label →
      step state label = some next → Invariant next ∧ (Wanted next ↔ condition state label))
    (persists : ∀ state label next, step state label = some next → Wanted next → Wanted state)
    {state final : State} {labels : List Label} (holds : Invariant state)
    (wanted : Wanted state) (meets : Meets step given state labels)
    (reached : run step state labels = some final) :
    Wanted final ↔ Meets step condition state labels := by
  induction labels generalizing state with
  | nil =>
      cases reached
      exact iff_of_true wanted trivial
  | cons label rest induction =>
      rcases run_cons_eq_some.mp reached with ⟨next, stepped, remaining⟩
      rcases preserved state label next holds wanted meets.1 stepped with ⟨kept, same⟩
      by_cases still : Wanted next
      · rw [induction kept still (meets.2 next stepped) remaining, Meets]
        constructor
        · refine fun later => ⟨same.mp still, fun other again => ?_⟩
          cases again.symm.trans stepped
          exact later
        · exact fun both => both.2 next stepped
      · have lost : ¬ Wanted final := fun wantedFinal =>
          still (wanted_of_run persists remaining wantedFinal)
        exact iff_of_false lost fun both => still (same.mpr both.1)

end StepFunction

end Raphael.Foundation
