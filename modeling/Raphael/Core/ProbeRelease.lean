import Raphael.Core.CircuitBreaker

/-! # The probe of a half open breaker is released

The breaker is marked when a probe is admitted, and every outcome that is recorded clears
the mark. A call whose function raises `CircuitOpenError`, or what is no `Exception`, leaves
without recording anything. -/

namespace Raphael.Core.SharedBreaker

open Foundation

variable {Caller : Type u} {Time : Type v} [AddCommGroup Time] [LinearOrder Time]

/-- No call is in progress. -/
def Idle (state : SharedBreaker Caller Time) : Prop :=
  ∀ caller, state.phase caller = .outside

/-- When no call is in progress, no probe is in flight, and the next call is admitted once
the reset timeout has passed. -/
structure Released (settings : BreakerSettings Time) (state : SharedBreaker Caller Time) :
    Prop where
  unmarked : state.Idle → state.breaker.halfOpenInFlight = false
  admits : state.Idle → ∀ later, settings.resetTimeout ≤ later - state.breaker.openedAt →
    ∃ found, (state.breaker.enter settings later).2 = .ok found

/-- A call that leaves without recording anything is not the only one in progress, or the
breaker is not marked. -/
def LeavesUnmarked (state : SharedBreaker Caller Time) : BreakerAction Caller Time → Prop
  | .finish caller .raisesCircuitOpen =>
      (∃ probe, state.phase caller = .running probe) →
        state.breaker.halfOpenInFlight = false ∨
          ∃ other, other ≠ caller ∧ state.phase other ≠ .outside
  | _ => True

/-- A marked breaker is half open. -/
def MarkedHalfOpen (state : SharedBreaker Caller Time) : Prop :=
  state.breaker.halfOpenInFlight = true → state.breaker.state = .halfOpen

variable {settings : BreakerSettings Time} {state next : SharedBreaker Caller Time}

/-- An unmarked breaker admits the next call once the timeout has passed. -/
theorem enter_of_unmarked {breaker : CircuitBreaker Time} {later : Time}
    (unmarked : breaker.halfOpenInFlight = false)
    (elapsed : settings.resetTimeout ≤ later - breaker.openedAt) :
    ∃ found, (breaker.enter settings later).2 = .ok found := by
  have read : (breaker.stateUnlocked settings later).state ≠ .«open» ∧
      (breaker.stateUnlocked settings later).halfOpenInFlight = false := by
    simp only [CircuitBreaker.stateUnlocked]
    split
    · exact ⟨by simp, rfl⟩
    · rename_i waits
      exact ⟨fun opened => waits ⟨opened, elapsed⟩, unmarked⟩
  simp only [CircuitBreaker.enter]
  cases stands : (breaker.stateUnlocked settings later).state with
  | «open» => exact absurd stands read.1
  | closed => exact ⟨_, rfl⟩
  | halfOpen => exact ⟨.halfOpen, by simp [read.2]⟩

theorem released_iff : Released settings state ↔
    (state.Idle → state.breaker.halfOpenInFlight = false) :=
  ⟨Released.unmarked, fun unmarked => ⟨unmarked, fun idle _ => enter_of_unmarked (unmarked idle)⟩⟩

/-- Reading the state marks no breaker. -/
theorem stateUnlocked_marks (settings : BreakerSettings Time) (clock : Time)
    (breaker : CircuitBreaker Time) :
    (breaker.stateUnlocked settings clock).halfOpenInFlight = true →
      breaker.halfOpenInFlight = true ∧
        (breaker.stateUnlocked settings clock).state = breaker.state := by
  simp only [CircuitBreaker.stateUnlocked]
  split
  · intro marked
    cases marked
  · exact fun marked => ⟨marked, rfl⟩

/-- A call that is turned away marks no breaker, and one that is admitted marks a half open
one. -/
theorem enter_marks (settings : BreakerSettings Time) (clock : Time)
    (breaker : CircuitBreaker Time) :
    ((breaker.enter settings clock).1.halfOpenInFlight = true →
        (breaker.enter settings clock).1.state = .halfOpen ∨
          breaker.halfOpenInFlight = true ∧
            (breaker.enter settings clock).1.state = breaker.state) ∧
      ∀ error, (breaker.enter settings clock).2 = .error error →
        (breaker.enter settings clock).1.halfOpenInFlight = true →
          breaker.halfOpenInFlight = true := by
  have read := stateUnlocked_marks settings clock breaker
  simp only [CircuitBreaker.enter]
  cases stands : (breaker.stateUnlocked settings clock).state with
  | «open» => exact ⟨fun marked => .inr ⟨(read marked).1, (read marked).2 ▸ stands.symm ▸ rfl⟩,
      fun _ _ marked => (read marked).1⟩
  | closed => exact ⟨fun marked => .inr ⟨(read marked).1, (read marked).2 ▸ stands.symm ▸ rfl⟩,
      fun _ refused => by cases refused⟩
  | halfOpen =>
      cases marked : (breaker.stateUnlocked settings clock).halfOpenInFlight with
      | true => exact ⟨fun _ => .inl stands, fun _ _ _ => (read marked).1⟩
      | false => exact ⟨fun _ => .inl rfl, fun _ refused => by cases refused⟩

section Steps

variable [DecidableEq Caller]

/-- An outcome clears the mark. -/
theorem recordFailure_unmarked {caller : Caller} {probe : Bool}
    (halfOpen : state.MarkedHalfOpen) :
    (state.recordFailure settings caller probe).breaker.halfOpenInFlight = false := by
  simp only [recordFailure, CircuitBreaker.recordFailure]
  split
  · rfl
  · rename_i holds
    cases marked : state.breaker.halfOpenInFlight with
    | false => rfl
    | true => exact absurd (.inl (halfOpen marked)) holds

/-- A call that enters keeps a mark for a half open breaker that is in use. -/
theorem released_enter (caller : Caller) (halfOpen : state.MarkedHalfOpen)
    (released : state.Idle → state.breaker.halfOpenInFlight = false) :
    (state.enter settings caller).MarkedHalfOpen ∧
      ((state.enter settings caller).Idle →
        (state.enter settings caller).breaker.halfOpenInFlight = false) := by
  have marks := enter_marks settings state.clock state.breaker
  simp only [SharedBreaker.enter]
  split
  · rename_i breaker error entered
    rw [entered] at marks
    refine ⟨fun marked => ?_, fun idle => ?_⟩
    · rcases marks.1 marked with now | ⟨before, same⟩
      · exact now
      · exact same.trans (halfOpen before)
    · exact Bool.eq_false_of_not_eq_true fun marked =>
        absurd (released idle) (by simp [marks.2 error rfl marked])
  · rename_i breaker found entered
    rw [entered] at marks
    refine ⟨fun marked => ?_, fun idle => ?_⟩
    · rcases marks.1 marked with now | ⟨before, same⟩
      · exact now
      · exact same.trans (halfOpen before)
    · have inside := idle caller
      simp at inside

omit [AddCommGroup Time] [LinearOrder Time] in
/-- A running call that leaves without an outcome keeps the breaker released exactly when it is
unmarked or another call is inside. -/
theorem released_leave {caller : Caller} {probe : Bool}
    (running : state.phase caller = .running probe) :
    ((state.moveTo caller .outside).Idle → state.breaker.halfOpenInFlight = false) ↔
      ((∃ probe, state.phase caller = .running probe) →
        state.breaker.halfOpenInFlight = false ∨
          ∃ other, other ≠ caller ∧ state.phase other ≠ .outside) := by
  refine ⟨fun unmarked _ => ?_, fun leaves idle => ?_⟩
  · by_cases others : ∃ other, other ≠ caller ∧ state.phase other ≠ .outside
    · exact .inr others
    · refine .inl (unmarked fun other => ?_)
      by_cases same : other = caller
      · simp [moveTo, same]
      · by_contra inside
        refine others ⟨other, same, ?_⟩
        simpa [moveTo, Function.update_of_ne same] using inside
  · rcases leaves ⟨probe, running⟩ with unmarked | ⟨other, different, inside⟩
    · exact unmarked
    · have out := idle other
      simp only [moveTo, Function.update_of_ne different] at out
      exact absurd out inside

/-- After a step the breaker is unmarked or in use, if the step left it so. -/
theorem released_step {action : BreakerAction Caller Time} (halfOpen : state.MarkedHalfOpen)
    (released : Released settings state) (stepped : step settings state action = some next) :
    next.MarkedHalfOpen ∧ (Released settings next ↔ state.LeavesUnmarked action) := by
  rw [released_iff] at released ⊢
  cases action with
  | pass duration =>
      simp only [step] at stepped
      split at stepped <;> cases stepped
      exact ⟨halfOpen, iff_of_true released trivial⟩
  | read =>
      cases stepped
      have marks := stateUnlocked_marks settings state.clock state.breaker
      refine ⟨fun marked => (marks marked).2.trans (halfOpen (marks marked).1),
        iff_of_true (fun idle => ?_) trivial⟩
      exact Bool.eq_false_of_not_eq_true fun marked =>
        absurd (released idle) (by simp [(marks marked).1])
  | enter caller =>
      simp only [step] at stepped
      split at stepped
      · cases stepped
        have kept : (state.enter settings caller).MarkedHalfOpen ∧ _ :=
          released_enter caller halfOpen released
        exact ⟨kept.1, iff_of_true kept.2 trivial⟩
      · cases stepped
  | finish caller ending =>
      simp only [step] at stepped
      cases stands : state.phase caller with
      | outside => simp [stands] at stepped
      | recording probe succeeded => simp [stands] at stepped
      | running probe =>
          have busy : ∀ phase, phase ≠ .outside → ¬ (state.moveTo caller phase).Idle := by
            intro phase inside idle
            exact inside (by simpa [moveTo] using idle caller)
          cases ending with
          | returns =>
              simp only [stands, Option.some.injEq] at stepped
              subst stepped
              exact ⟨halfOpen, iff_of_true
                (fun idle => absurd idle (busy _ (by simp))) trivial⟩
          | raises =>
              simp only [stands, Option.some.injEq] at stepped
              subst stepped
              exact ⟨halfOpen, iff_of_true
                (fun idle => absurd idle (busy _ (by simp))) trivial⟩
          | raisesCircuitOpen =>
              simp only [stands, Option.some.injEq] at stepped
              subst stepped
              exact ⟨halfOpen, released_leave stands⟩
  | record caller =>
      simp only [step] at stepped
      split at stepped
      · cases stepped
        exact ⟨fun marked => absurd marked Bool.false_ne_true,
          iff_of_true (fun _ => rfl) trivial⟩
      · rename_i probe _
        cases stepped
        have unmarked : (state.recordFailure settings caller probe).breaker.halfOpenInFlight =
          false := recordFailure_unmarked halfOpen
        exact ⟨fun marked => absurd marked (by rw [unmarked]; decide),
          iff_of_true (fun _ => unmarked) trivial⟩
      · cases stepped

/-- In every state of a run the breaker is released, if and only if no call leaves without
an outcome as the only one in progress while the breaker is marked. -/
theorem released_throughout_iff (settings : BreakerSettings Time) (clock : Time)
    (actions : List (BreakerAction Caller Time)) :
    StepFunction.Throughout (step settings) (Released settings)
        (start clock : SharedBreaker Caller Time) actions ↔
      StepFunction.Meets (step settings) LeavesUnmarked (start clock) actions := by
  refine StepFunction.throughout_iff_meets (fun _ _ _ => released_step) ?_
    (fun marked => by cases marked) (released_iff.mpr fun _ => rfl)
  intro state action stuck
  cases action with
  | finish caller ending =>
      cases ending with
      | raisesCircuitOpen =>
          rintro ⟨probe, stands⟩
          simp [step, stands] at stuck
      | _ => trivial
  | _ => trivial

/-- The probe's function raises a `CircuitOpenError`: from then on every call is turned
away, whatever the clock says. -/
theorem probe_never_released :
    ∃ final : SharedBreaker Unit Int,
      StepFunction.run (step singleFailure) (start 0)
        [.enter (), .finish () .raises, .record (), .pass 10, .enter (),
          .finish () .raisesCircuitOpen] = some final ∧
      final.Idle ∧ final.breaker.halfOpenInFlight = true ∧
      ∀ later, (final.breaker.enter singleFailure later).2 =
        .error "circuit probe already in flight" :=
  ⟨_, rfl, fun _ => rfl, rfl, fun _ => rfl⟩

end Steps

end Raphael.Core.SharedBreaker
