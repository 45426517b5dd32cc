import Raphael.Runtime.StateMachine
import Raphael.Runtime.TaskCreation

/-! # Submitting a task

`RuntimeAPI.create_task` over the dispatcher of `serve`: the task is created, its token is
registered, and its work is put into the bounded queue. -/

namespace Raphael.Interface

open Core Foundation Persistence Raphael.Runtime

def maxGoalChars : Nat := 4000

/-- What the API, the dispatcher and the runtime keep. Work items are given by their task
ids, and a token by whether it is cancelled. -/
structure Intake where
  maxQueued : Int
  queue : List String := []
  tokens : Dict String Bool := Dict.empty
  modelConfigured : Bool
  database : Database TaskStore

inductive SubmissionError
  /-- An `ApiError`. -/
  | api (code message : String)
  | creation (error : CreationError)
  deriving DecidableEq

structure TaskView where
  taskId : String
  title : String
  state : TaskState

/-- What a submission meets beside the state. -/
structure Meets where
  creation : Faults := {}
  /-- A statement of the transition to `FAILED` fails. -/
  transitionFails : Bool := false

/-- The manager of the stack. The event log, its only subscriber, has a table of its own. -/
def manager : TaskCreator where
  subscribers := [TaskCreator.watcher]

/-- What `_transition` writes. -/
def moveTask (taskId : String) (target : TaskState) (row : TaskRow) (store : TaskStore) :
    TaskStore where
  tasks := store.tasks.set taskId { row with state := target }
  contexts :=
    match store.contexts.get taskId with
    | none => store.contexts
    | some context => store.contexts.set taskId { context with currentState := target }

/-- `transition` on a database that no other block uses; what it raises is not told. -/
def transition (fails : Bool) (taskId : String) (target : TaskState)
    (database : Database TaskStore) : Database TaskStore :=
  match database.enter with
  | .error _ => database
  | .ok (outermost, opened) =>
      match opened.connection.visible.tasks.get taskId with
      | none => (opened.leave true outermost).1
      | some row =>
          if fails || !isValidTransition row.state target then (opened.leave true outermost).1
          else ((opened.write (moveTask taskId target row)).leave false outermost).1

namespace Intake

/-- `queue.Queue(maxsize=max(0, max_queued))`: a size of 0 is no bound. -/
def isFull (state : Intake) : Bool :=
  0 < max 0 state.maxQueued && max 0 state.maxQueued ≤ state.queue.length

def queueFull : SubmissionError := .api "queue_full" "agent queue is full; try again later"

/-- `BoundedDispatcher.submit`; whether the workers were stopped is not looked at. -/
def submit (taskId : String) (state : Intake) : Except SubmissionError Unit × Intake :=
  if state.isFull then (.error queueFull, state)
  else (.ok (), { state with queue := state.queue ++ [taskId] })

def dispatch (meets : Meets) (taskId : String) (state : Intake) :
    Except SubmissionError Unit × Intake :=
  if state.modelConfigured then
    submit taskId { state with tokens := state.tokens.set taskId false }
  else
    -- Whatever is raised here is logged. The result in the context's metadata is left out.
    (.ok (), { state with
      database := transition meets.transitionFails taskId .failed state.database })

/-- `create_task`; `taskId` is the id that the new task gets. -/
def createTask (meets : Meets) (taskId : String) (goal : Json) (state : Intake) :
    Except SubmissionError TaskView × Intake :=
  match goal with
  | .str text =>
      if Text.strip text = "" then
        (.error (.api "malformed_request" "goal must be a non-empty string"), state)
      else if maxGoalChars < text.length then
        (.error (.api "malformed_request" "goal exceeds size limit"), state)
      else
        let title := Text.strip text
        let creation := manager.createTask meets.creation taskId title title state.database
        match creation.result with
        | .error error =>
            (.error (.creation error), { state with database := creation.database })
        | .ok () =>
            let (dispatched, after) :=
              dispatch meets taskId { state with database := creation.database }
            (dispatched.map fun _ => { taskId, title, state := .created }, after)
  | _ => (.error (.api "malformed_request" "goal must be a non-empty string"), state)

/-- Nothing is left to do for a task with this id. -/
structure Undone (state : Intake) (taskId : String) : Prop where
  row : ∀ row, state.database.connection.visible.tasks.get taskId = some row →
    isTerminal row.state = true
  token : state.tokens.get taskId = none
  item : taskId ∉ state.queue

/-- What has been submitted. -/
structure Submitted (meets : Meets) (taskId : String) (before after : Intake) : Prop where
  /-- The rows are committed, and no transaction is left open. -/
  persisted : ∃ store, after.database = .closed store ∧ store.Holds taskId
  /-- With a model the task waits in the queue once, with a token that is not cancelled. -/
  queued : before.modelConfigured = true →
    after.queue.count taskId = 1 ∧ after.tokens.get taskId = some false ∧
      ∃ row, after.database.connection.committed.tasks.get taskId = some row ∧
        row.state = .created
  /-- Without one it is neither queued nor given a token, and it has failed. -/
  failed : before.modelConfigured = false →
    taskId ∉ after.queue ∧ after.tokens.get taskId = none ∧
      (meets.transitionFails = false →
        ∃ row, after.database.connection.committed.tasks.get taskId = some row ∧
          row.state = .failed)

/-! ## The rows -/

end Intake

end Raphael.Interface
