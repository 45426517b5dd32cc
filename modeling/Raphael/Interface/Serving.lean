import Raphael.Agent.Orchestrator.SingleAgent
import Raphael.Runtime.TaskManager

/-! # Serving tasks

The tasks of one process of `serve`: new ones that come in by `create_task` and those that
an earlier process has left, the queue of the dispatcher, the tokens, the calls of
`cancel_task`, and the calls of `ToolRunner.run` that the executors make. Any number of
threads take their steps in any order. -/

/-! ## The work of a task

What a thread of `serve` that has a task does with the task's row and its token, one
database call at a time: `SingleAgent.run_task`, `SingleAgent.resume`, and the transitions
to `FAILED` of `dispatch` and of the startup. -/

namespace Raphael.Interface

open Core Foundation Persistence Raphael.Runtime

/-- The state in a task's row, as every statement on the connection sees it. -/
def rowOf (database : Database Tables) (task : TaskId) : Option TaskState :=
  database.connection.visible.tasks task

/-! ## Moving the task -/

/-- How a call of `transition` goes on. -/
inductive Moved
  | going (phase : Phase)
  | returned
  | raised
  deriving DecidableEq

/-- The call's last step returns: nothing was raised, and a COMMIT succeeds. -/
def completes (database : Database Tables) : Phase → Bool
  | .leaving outermost false => (database.leave false outermost).2.isNone
  | _ => false

/-- The next database call of a transition. -/
def moveOn (database : Database Tables) (phase : Phase) : Database Tables × Moved :=
  let (next, remaining) := Managing.advancePhase database phase
  match remaining with
  | some remaining => (next, .going remaining)
  | none => (next, if completes database phase then .returned else .raised)

/-- The next database call of a transition fails. -/
def moveFails (database : Database Tables) : Phase → Database Tables × Moved
  | .entering _ _ => (database, .raised)
  | .getting outermost _ _ | .updating outermost _ _ _ | .loading outermost _ _
  | .saving outermost _ _ => (database, .going (.leaving outermost true))
  -- A COMMIT or ROLLBACK that fails leaves the transaction open.
  | .leaving _ _ => ({ database with txDepth := database.txDepth - 1 }, .raised)

/-! ## Jobs -/

/-- Where the work on a task comes from. Only `dispatch` hands a token over. -/
inductive Source
  | dispatched
  /-- The startup has found a plan. -/
  | resumed
  /-- The work is to let the task fail. -/
  | abandoned
  deriving DecidableEq

inductive Operation
  /-- The agent is made, and the task and its context are read. -/
  | load
  /-- `_check_cancelled`. -/
  | checkCancelled
  /-- A call of `transition`. -/
  | transition (target : TaskState)
  /-- A call of `transition` that has begun. -/
  | moving (phase : Phase)
  /-- `_research_phase`, of a task that needs it. -/
  | research
  /-- `_plan`. -/
  | plan
  /-- `_walk_to`. -/
  | walkTo (target : TaskState)
  /-- A call of `execute_graph`. -/
  | execute
  /-- `_recover_if_needed`. -/
  | recover
  /-- `run_with_prior`, which executes any number of plans. -/
  | attempts
  /-- `_complete`. -/
  | complete
  /-- `_fail` and `_cancelled`. -/
  | settle (target : TaskState)
  deriving DecidableEq

/-- The body of `_drive`. -/
def driving : List Operation :=
  [.checkCancelled, .transition .understanding, .checkCancelled, .transition .awareness,
    .checkCancelled, .research, .plan, .walkTo .executing, .execute, .checkCancelled,
    .walkTo .verifying, .recover, .complete]

/-- The body of `resume`. -/
def resuming : List Operation :=
  [.walkTo .executing, .walkTo .executing, .execute, .walkTo .verifying, .recover, .complete]

structure Job where
  source : Source
  /-- Inside the `try` of `_drive` or `resume`. -/
  inTry : Bool := false
  work : List Operation
  deriving DecidableEq

namespace Job

/-- The job that a worker starts, or the work that is done at once. -/
def ofSource : Source → Job
  | .dispatched => { source := .dispatched, work := .load :: driving }
  | .resumed => { source := .resumed, work := .load :: resuming }
  | .abandoned => { source := .abandoned, work := [.transition .failed] }

/-- The token that the job was given is cancelled. -/
def seesCancelled (cancelled : Bool) (job : Job) : Bool :=
  job.source = .dispatched && cancelled

/-- An exception: `_cancelled` or `_fail` settles the task, or the job is over. -/
def raised (cancelled : Bool) (job : Job) : Job :=
  if job.inTry then
    { job with
      inTry := false
      work := [.settle (if job.seesCancelled cancelled then .cancelled else .failed)] }
  else { job with work := [] }

/-- What is left behind a call of `transition`. -/
def after (cancelled : Bool) (rest : List Operation) (job : Job) : Moved → Job
  | .going phase => { job with work := .moving phase :: rest }
  | .returned => { job with work := rest }
  | .raised => job.raised cancelled

/-- The row is read, and the work goes on from the state found there. -/
def reading (database : Database Tables) (task : TaskId) (cancelled : Bool) (job : Job)
    (work : TaskState → List Operation) : Job :=
  match rowOf database task with
  | none => job.raised cancelled
  | some current => { job with work := work current }

/-- One operation with `rest` behind it. The agent finds out by itself whether it needs
research or recovery, executes again, and has completed the task: `finding`. -/
def perform (finding cancelled : Bool) (database : Database Tables) (task : TaskId)
    (job : Job) (rest : List Operation) : Operation → Database Tables × Job
  | .load =>
      (database, match rowOf database task with
        | none => job.raised cancelled
        | some _ => { job with inTry := true, work := rest })
  | .checkCancelled =>
      (database, if job.seesCancelled cancelled then job.raised cancelled
        else { job with work := rest })
  | .transition target =>
      (database, { job with work := .moving (.entering task target) :: rest })
  | .moving phase =>
      let (next, moved) := moveOn database phase
      (next, job.after cancelled rest moved)
  | .research =>
      (database, { job with
        work := if finding then .transition .researching :: rest else rest })
  | .plan =>
      (database, job.reading database task cancelled fun current =>
        if current = .planning then rest else .transition .planning :: rest)
  | .walkTo target =>
      (database, job.reading database task cancelled fun current =>
        if current = target then rest
        else ((Agent.Orchestrator.walkPath current target).getD [target]).map .transition ++
          rest)
  | .execute => (database, { job with work := rest })
  | .recover =>
      (database, { job with
        work := if finding then .transition .recovering :: .attempts ::
          .transition .executing :: .transition .verifying :: rest else rest })
  | .attempts =>
      (database, { job with work := if finding then .execute :: .attempts :: rest else rest })
  | .complete =>
      (database, { job with
        work := if rowOf database task = some .cancelled then .settle .cancelled :: rest
          else .transition (if finding then .completed else .failed) :: rest })
  | .settle target =>
      (database, { job with
        work := match rowOf database task with
          | none => rest
          | some current =>
              if isTerminal current then rest else .transition target :: rest })

/-- An operation raises. -/
def fails (cancelled : Bool) (database : Database Tables) (job : Job) (rest : List Operation) :
    Operation → Database Tables × Job
  | .moving phase =>
      let (next, moved) := moveFails database phase
      (next, job.after cancelled rest moved)
  | _ => (database, job.raised cancelled)

end Job

end Raphael.Interface

namespace Raphael.Interface

open Core Foundation Persistence Raphael.Runtime

/-- Where `TaskManager.create_task` stands. -/
inductive CreationPhase
  | entering
  | inserting (outermost : Bool)
  | saving (outermost : Bool)
  | leaving (outermost raised : Bool)
  deriving DecidableEq

/-- Where a task stands in this process. -/
inductive Stage
  | unknown
  /-- Left by an earlier process; the startup has not come to it yet. -/
  | interrupted
  | creating (phase : CreationPhase)
  /-- Created; `dispatch` is called. -/
  | accepted
  /-- Its token is registered; it is to be submitted. -/
  | registered
  | queued (source : Source)
  | running (job : Job)
  /-- No thread has it any more. -/
  | ended
  deriving DecidableEq

/-- A token of the registry: whether it is there, and its flag, which outlives its entry. -/
structure Token where
  registered : Bool := false
  cancelled : Bool := false
  deriving DecidableEq

inductive CancelPhase
  /-- `_require`, and the check that the task is not over. -/
  | requiring
  | moving (phase : Phase)
  /-- `on_cancel` looks for the token. -/
  | hooking
  | looked (found : Bool)
  | returning
  | returned
  | raised
  deriving DecidableEq

/-- A call of `cancel_task`. -/
structure CancelCall where
  task : TaskId
  phase : CancelPhase := .requiring
  deriving DecidableEq

inductive CallPhase
  | begun
  /-- Past the first look at the step's token. -/
  | admitted
  /-- Past the last one. -/
  | cleared
  | invoked
  | refused
  deriving DecidableEq

/-- A call of `ToolRunner.run` for a step of a plan. -/
structure RunnerCall where
  task : TaskId
  /-- The step's token is a child of the registered one. -/
  hasToken : Bool
  /-- The step's own token is cancelled: by its deadline, or with the end of its
  execution. -/
  expired : Bool
  /-- It began when `cancel_task` had returned. -/
  late : Bool
  phase : CallPhase := .begun
  deriving DecidableEq

structure Serving where
  maxQueued : Nat
  database : Database Tables
  stage : TaskId → Stage
  queue : List TaskId := []
  tokens : TaskId → Token := fun _ => {}
  cancels : Nat → Option CancelCall := fun _ => none
  calls : Nat → Option RunnerCall := fun _ => none
  /-- A call of `cancel_task` has looked for the token and not found it. -/
  missed : TaskId → Bool := fun _ => false
  /-- A call of `cancel_task` has returned. -/
  cancelReturned : TaskId → Bool := fun _ => false

inductive ServeAction
  | create (task : TaskId)
  /-- The startup comes to a task; it has a plan, and a model is configured. -/
  | startUp (task : TaskId) (resumable : Bool)
  /-- The thread that has the task goes on. -/
  | advance (task : TaskId) (finding : Bool)
  /-- What it does next raises. -/
  | fail (task : TaskId)
  /-- A thread saves the context that it holds. -/
  | saveContext (task : TaskId) (current : TaskState)
  | cancel (call : Nat) (task : TaskId)
  | advanceCancel (call : Nat)
  | failCancel (call : Nat)
  | runTool (call : Nat) (task : TaskId) (expired : Bool)
  | advanceCall (call : Nat)
  | expire (call : Nat)
  /-- The runner refuses the call for another reason. -/
  | refuse (call : Nat)

namespace Stage

/-- A call of `execute_graph` is under way. -/
def executing : Stage → Bool
  | .running job => job.work.head? = some .execute
  | _ => false

/-- Whether the thread that has the task has a token for it. -/
def holdsToken : Stage → Bool
  | .registered => true
  | .queued source => source = .dispatched
  | .running job => job.source = .dispatched
  | _ => false

end Stage

namespace Serving

def row (state : Serving) (task : TaskId) : Option TaskState := rowOf state.database task

/-- The process starts; a task that is not over is one that was interrupted. -/
def start (maxQueued : Nat) (tables : Tables) : Serving where
  maxQueued := maxQueued
  database := .closed tables
  stage := fun task =>
    match tables.tasks task with
    | none => .unknown
    | some state => if isTerminal state then .ended else .interrupted

def setStage (state : Serving) (task : TaskId) (stage : Stage) : Serving :=
  { state with stage := Function.update state.stage task stage }

def setToken (state : Serving) (task : TaskId) (token : Token) : Serving :=
  { state with tokens := Function.update state.tokens task token }

def setCancel (state : Serving) (call : Nat) (cancel : CancelCall) : Serving :=
  { state with cancels := Function.update state.cancels call (some cancel) }

def setCall (state : Serving) (call : Nat) (run : RunnerCall) : Serving :=
  { state with calls := Function.update state.calls call (some run) }

/-! ## The threads of the tasks -/

/-- `BoundedDispatcher.submit`; a size of 0 is no bound. -/
def submit (state : Serving) (task : TaskId) (source : Source) : Serving :=
  if 0 < state.maxQueued && state.maxQueued ≤ state.queue.length then
    state.setStage task .ended
  else { state.setStage task (.queued source) with queue := state.queue ++ [task] }

/-- The next step of `create_task`; its result is the stage that it leads to. -/
def createOn (database : Database Tables) (task : TaskId) :
    CreationPhase → Database Tables × Stage
  | .entering =>
      match database.enter with
      | .error _ => (database, .ended)
      | .ok (outermost, entered) => (entered, .creating (.inserting outermost))
  | .inserting outermost =>
      match rowOf database task with
      | some _ => (database, .creating (.leaving outermost true))
      | none =>
          (database.write fun tables => { tables with
            tasks := Function.update tables.tasks task (some .created) },
          .creating (.saving outermost))
  | .saving outermost =>
      (database.write fun tables => { tables with
        contexts := Function.update tables.contexts task (some .created) },
      .creating (.leaving outermost false))
  | .leaving outermost raised =>
      let (left, failure) := database.leave raised outermost
      (left, if raised || failure.isSome then .ended else .accepted)

def createFails (database : Database Tables) : CreationPhase → Database Tables × Stage
  | .entering => (database, .ended)
  | .inserting outermost | .saving outermost => (database, .creating (.leaving outermost true))
  | .leaving _ _ => ({ database with txDepth := database.txDepth - 1 }, .ended)

/-- A worker's job is over: its token is popped. -/
def finish (state : Serving) (task : TaskId) : Serving :=
  { state.setStage task .ended with
    tokens := Function.update state.tokens task { state.tokens task with registered := false } }

def advance (state : Serving) (task : TaskId) (finding : Bool) : Option Serving :=
  match state.stage task with
  | .creating phase =>
      let (database, stage) := createOn state.database task phase
      some { state with database, stage := Function.update state.stage task stage }
  -- `finding`: a model is configured.
  | .accepted =>
      some (if finding then (state.setToken task { registered := true }).setStage task .registered
        else state.setStage task (.running (.ofSource .abandoned)))
  | .registered => some (state.submit task .dispatched)
  | .queued source =>
      if state.queue.head? = some task then
        some { state.setStage task (.running (.ofSource source)) with queue := state.queue.tail }
      else none
  | .running job =>
      match job.work with
      | [] => some (state.finish task)
      | operation :: rest =>
          let (database, job) := job.perform finding (state.tokens task).cancelled
            state.database task rest operation
          some { state with
            database, stage := Function.update state.stage task (.running job) }
  | .unknown | .interrupted | .ended => none

def fail (state : Serving) (task : TaskId) : Option Serving :=
  match state.stage task with
  | .creating phase =>
      let (database, stage) := createFails state.database phase
      some { state with database, stage := Function.update state.stage task stage }
  | .running job =>
      match job.work with
      | [] => some (state.setStage task (.running (job.raised (state.tokens task).cancelled)))
      | operation :: rest =>
          let (database, job) := job.fails (state.tokens task).cancelled state.database rest
            operation
          some { state with
            database, stage := Function.update state.stage task (.running job) }
  | _ => none

/-! ## Cancelling -/

/-- What `cancel_task` does next once its transition has moved. -/
def hooked : Moved → CancelPhase
  | .going phase => .moving phase
  | .returned => .hooking
  | .raised => .raised

def advanceCancel (state : Serving) (call : Nat) (cancel : CancelCall) : Option Serving :=
  let task := cancel.task
  match cancel.phase with
  | .requiring =>
      some (state.setCancel call { cancel with
        phase := match state.row task with
          | none => .raised
          | some current =>
              if isTerminal current then .raised else .moving (.entering task .cancelled) })
  | .moving phase =>
      let (database, moved) := moveOn state.database phase
      some { state.setCancel call { cancel with phase := hooked moved } with database }
  | .hooking =>
      let found := (state.tokens task).registered
      some { state.setCancel call { cancel with phase := .looked found } with
        missed := Function.update state.missed task (state.missed task || !found) }
  | .looked found =>
      let looked := if found then state.setToken task { state.tokens task with cancelled := true }
        else state
      some (looked.setCancel call { cancel with phase := .returning })
  | .returning =>
      some { state.setCancel call { cancel with phase := .returned } with
        cancelReturned := Function.update state.cancelReturned task true }
  | .returned | .raised => none

def failCancel (state : Serving) (call : Nat) (cancel : CancelCall) : Option Serving :=
  match cancel.phase with
  | .requiring => some (state.setCancel call { cancel with phase := .raised })
  | .moving phase =>
      let (database, moved) := moveFails state.database phase
      some { state.setCancel call { cancel with phase := hooked moved } with database }
  | _ => none

/-! ## The calls of an execution -/

/-- The token of the call's step is cancelled. -/
def sees (state : Serving) (run : RunnerCall) : Bool :=
  run.expired || (run.hasToken && (state.tokens run.task).cancelled)

/-- A call begins in an execution; one of an execution that has ended has an expired
token. -/
def runTool (state : Serving) (call : Nat) (task : TaskId) (expired : Bool) :
    Option Serving :=
  if expired || (state.stage task).executing then
    some (state.setCall call {
      task, expired
      hasToken := (state.stage task).holdsToken
      late := state.cancelReturned task })
  else none

def advanceCall (state : Serving) (call : Nat) (run : RunnerCall) : Option Serving :=
  match run.phase with
  | .begun =>
      some (state.setCall call { run with
        phase := if state.sees run then .refused else .admitted })
  | .admitted =>
      some (state.setCall call { run with
        phase := if state.sees run then .refused else .cleared })
  | .cleared => some (state.setCall call { run with phase := .invoked })
  | .invoked | .refused => none

def refuse (state : Serving) (call : Nat) (run : RunnerCall) : Option Serving :=
  match run.phase with
  | .admitted | .cleared => some (state.setCall call { run with phase := .refused })
  | _ => none

/-! ## All threads -/

def step : StepFunction Serving ServeAction
  | state, .create task =>
      match state.stage task with
      | .unknown => some (state.setStage task (.creating .entering))
      | _ => none
  | state, .startUp task resumable =>
      match state.stage task with
      | .interrupted =>
          some (if resumable then state.submit task .resumed
            else state.setStage task (.running (.ofSource .abandoned)))
      | _ => none
  | state, .advance task finding => state.advance task finding
  | state, .fail task => state.fail task
  | state, .saveContext task current =>
      some { state with
        database := state.database.write fun tables => { tables with
          contexts := Function.update tables.contexts task (some current) } }
  | state, .cancel call task =>
      match state.cancels call with
      | none => some (state.setCancel call { task })
      | some _ => none
  | state, .advanceCancel call => (state.cancels call).bind (state.advanceCancel call)
  | state, .failCancel call => (state.cancels call).bind (state.failCancel call)
  | state, .runTool call task expired =>
      match state.calls call with
      | none => state.runTool call task expired
      | some _ => none
  | state, .advanceCall call => (state.calls call).bind (state.advanceCall call)
  | state, .expire call =>
      (state.calls call).map fun run => state.setCall call { run with expired := true }
  | state, .refuse call => (state.calls call).bind (state.refuse call)

end Serving

end Raphael.Interface
