import Raphael.Core.Enums

/-! # The task state machine -/

namespace Raphael.Runtime

open Core

def terminalStates : List TaskState := [.completed, .failed, .cancelled]

/-- True for the states without outgoing edges. -/
def isTerminal (state : TaskState) : Bool := terminalStates.contains state

/-- The edges written out in the table, before FAILED and CANCELLED are added to
every state that is not terminal. -/
def listedTransitions : TaskState → List TaskState
  | .created => [.understanding]
  | .understanding => [.awareness]
  | .awareness => [.researching, .planning]
  | .researching => [.planning]
  | .planning => [.waitingPermission]
  | .waitingPermission => [.executing]
  | .executing => [.verifying]
  | .verifying => [.completed, .recovering]
  | .recovering => [.executing, .planning]
  | .completed => []
  | .failed => []
  | .cancelled => []

def allowedTransitions (state : TaskState) : List TaskState :=
  if isTerminal state then listedTransitions state
  else listedTransitions state ++ [.failed, .cancelled]

/-- True iff the edge is legal. -/
def isValidTransition (fromState toState : TaskState) : Bool :=
  (allowedTransitions fromState).contains toState

structure InvalidStateTransitionError where
  fromState : String
  toState : String
  deriving DecidableEq, Repr

def InvalidStateTransitionError.message (error : InvalidStateTransitionError) : String :=
  s!"invalid transition: {error.fromState} -> {error.toState}"

def assertTransition (fromState toState : TaskState) :
    Except InvalidStateTransitionError Unit :=
  if isValidTransition fromState toState then .ok ()
  else .error { fromState := fromState.value, toState := toState.value }

/-- No edge leaves a terminal state. -/
theorem isValidTransition_of_terminal {fromState : TaskState}
    (terminal : isTerminal fromState = true) (toState : TaskState) :
    isValidTransition fromState toState = false := by
  cases fromState <;> first | rfl | cases terminal

theorem assertTransition_eq_ok {fromState toState : TaskState} :
    assertTransition fromState toState = .ok () ↔
      isValidTransition fromState toState = true := by
  simp [assertTransition]

/-! ## What a task has been through -/

/-- The states that a task in this state has passed, the first one first. -/
def passed : TaskState → List TaskState
  | .created => []
  | .understanding => [.created]
  | .awareness => [.created, .understanding]
  | .researching | .planning => [.created, .understanding, .awareness]
  | .waitingPermission => [.created, .understanding, .awareness, .planning]
  | .executing => [.created, .understanding, .awareness, .planning, .waitingPermission]
  | .verifying =>
      [.created, .understanding, .awareness, .planning, .waitingPermission, .executing]
  | .recovering | .completed =>
      [.created, .understanding, .awareness, .planning, .waitingPermission, .executing,
        .verifying]
  | .failed | .cancelled => [.created]

/-- A task with the states it has left. A transition that is refused leaves it as it is. -/
def request (task : List TaskState × TaskState) (target : TaskState) :
    List TaskState × TaskState :=
  match assertTransition task.2 target with
  | .ok () => (task.1 ++ [task.2], target)
  | .error _ => task

theorem passed_of_transition {fromState toState : TaskState}
    (legal : isValidTransition fromState toState = true) :
    (passed toState).Sublist (passed fromState ++ [fromState]) := by
  revert legal
  cases fromState <;> cases toState <;> decide

/-- Whatever transitions are asked for, legal or not, a task has passed the states before its
own in their order: none is completed without a permission, an execution and a verification
behind it. -/
theorem passed_of_requests (targets : List TaskState) :
    (passed (targets.foldl request ([], .created)).2).Sublist
      (targets.foldl request ([], .created)).1 := by
  suffices kept : ∀ task : List TaskState × TaskState, (passed task.2).Sublist task.1 →
      (passed (targets.foldl request task).2).Sublist (targets.foldl request task).1 from
    kept _ (List.nil_sublist _)
  induction targets with
  | nil => exact fun task holds => holds
  | cons target rest induction =>
      intro task holds
      apply induction
      unfold request
      split
      · next moved =>
          exact (passed_of_transition (assertTransition_eq_ok.mp moved)).trans
            (holds.append_right _)
      · exact holds

end Raphael.Runtime
