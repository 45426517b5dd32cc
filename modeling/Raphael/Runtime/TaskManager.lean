import Raphael.Foundation.StepSystem
import Raphael.Persistence.SharedDatabase
import Raphael.Runtime.StateMachine

/-! # Concurrent calls of `TaskManager.transition`

Any number of threads move tasks through the state machine over one database.
BEGIN, each repository call, and COMMIT or ROLLBACK are the atomic steps of a
call. -/

namespace Raphael.Runtime

open Core Foundation Persistence

abbrev TaskId := String

/-- The rows a transition reads and writes: the state in each task's snapshot,
and `current_state` in each context's. -/
structure Tables where
  tasks : TaskId → Option TaskState
  contexts : TaskId → Option TaskState

/-- Where a call of `transition(task, target)` stands, with the `outermost` flag
of its transaction block once it is entered. -/
inductive Phase
  | entering (task : TaskId) (target : TaskState)
  | getting (outermost : Bool) (task : TaskId) (target : TaskState)
  | updating (outermost : Bool) (task : TaskId) (target read : TaskState)
  | loading (outermost : Bool) (task : TaskId) (target : TaskState)
  | saving (outermost : Bool) (task : TaskId) (target : TaskState)
  | leaving (outermost raised : Bool)
  deriving DecidableEq

def Phase.outermost : Phase → Option Bool
  | .entering _ _ => none
  | .getting outermost _ _ => some outermost
  | .updating outermost _ _ _ => some outermost
  | .loading outermost _ _ => some outermost
  | .saving outermost _ _ => some outermost
  | .leaving outermost _ => some outermost

/-- The database and the call each thread is in. -/
structure Managing (Thread : Type u) where
  database : Database Tables
  phase : Thread → Option Phase

inductive ManagerAction (Thread : Type u)
  | call (thread : Thread) (task : TaskId) (target : TaskState)
  | advance (thread : Thread)

namespace Managing

variable {Thread : Type u} [DecidableEq Thread]

def start (tables : Tables) : Managing Thread where
  database := .closed tables
  phase := fun _ => none

/-- What a thread does next: its database call, and its next phase. `none` as
the phase means that the call has returned or raised. -/
def advancePhase (database : Database Tables) : Phase → Database Tables × Option Phase
  | .entering task target =>
      match database.enter with
      | .error _ => (database, none)
      | .ok (outermost, entered) => (entered, some (.getting outermost task target))
  | .getting outermost task target =>
      match database.connection.visible.tasks task with
      | none => (database, some (.leaving outermost true))
      | some read =>
          match assertTransition read target with
          | .ok () => (database, some (.updating outermost task target read))
          | .error _ => (database, some (.leaving outermost true))
  | .updating outermost task target _ =>
      (database.write fun tables =>
          { tables with tasks := Function.update tables.tasks task (some target) },
        some (.loading outermost task target))
  | .loading outermost task target =>
      match database.connection.visible.contexts task with
      | none => (database, some (.leaving outermost false))
      | some _ => (database, some (.saving outermost task target))
  | .saving outermost task target =>
      (database.write fun tables =>
          { tables with contexts := Function.update tables.contexts task (some target) },
        some (.leaving outermost false))
  | .leaving outermost raised => ((database.leave raised outermost).1, none)

def step : StepFunction (Managing Thread) (ManagerAction Thread)
  | state, .call thread task target =>
      match state.phase thread with
      | some _ => none
      | none => some { state with
          phase := Function.update state.phase thread (some (.entering task target)) }
  | state, .advance thread =>
      match state.phase thread with
      | none => none
      | some phase =>
          let (database, next) := advancePhase state.database phase
          some { database, phase := Function.update state.phase thread next }

def committedState (state : Managing Thread) (task : TaskId) : Option TaskState :=
  state.database.connection.committed.tasks task

def visibleState (state : Managing Thread) (task : TaskId) : Option TaskState :=
  state.database.connection.visible.tasks task

end Managing

end Raphael.Runtime
