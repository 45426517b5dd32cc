import Raphael.Core.Json
import Raphael.Foundation.StepSystem
import Raphael.Persistence.SnapshotTable

/-! # The scheduler

Jobs in one table, and any number of calls on the scheduler. Each repository call,
each dispatch and each answer of the router is one atomic step. A call works on the
job objects it has loaded and mutates them in place. -/

namespace Raphael.Scheduler

open Core Foundation Persistence

inductive ScheduledStatus
  | queued
  | running
  | succeeded
  | failed
  | cancelled
  deriving DecidableEq, Repr

structure ScheduledJob where
  id : String
  createdAt : Int
  updatedAt : Int
  priority : Int := 0
  deadline : Option Int := none
  dependencies : List String := []
  idempotencyKey : String := ""
  status : ScheduledStatus := .queued
  attempts : Int := 0
  maxAttempts : Int := 3
  routedProvider : String := ""
  resultSummary : String := ""
  deriving DecidableEq, Repr

instance : Entity ScheduledJob where
  id := ScheduledJob.id
  updatedAt := ScheduledJob.updatedAt
  touch now job := { job with updatedAt := now }
  id_touch _ _ := rfl

/-! ## Submission -/

/-- `visit` on the nodes that are being visited and those that were; `depth` bounds
the recursion. -/
def visit (graph : List (String × List String)) :
    Nat → List String → String → List String → Except Error (List String)
  | 0, _, _, _ => .error (.other "maximum recursion depth exceeded")
  | depth + 1, visiting, node, visited =>
      if visiting.contains node then .error (.domainValidation "dependency cycle detected")
      else if visited.contains node then .ok visited
      else
        match graph.lookup node with
        | none => .ok visited
        | some dependencies =>
            (dependencies.foldlM (fun visited dependency =>
              visit graph depth (node :: visiting) dependency visited) visited).map
                (node :: ·)

/-- Reject dependency cycles at submission. -/
def assertAcyclic (existing : List ScheduledJob) (candidate : ScheduledJob) :
    Except Error Unit :=
  let graph := Json.insert (existing.map fun job => (job.id, job.dependencies))
    candidate.id candidate.dependencies
  (graph.foldlM (fun visited node => visit graph (graph.length + 1) [] node.1 visited)
    []).map fun _ => ()

/-- The checks of `submit` on the job alone. -/
def validate (job : ScheduledJob) : Except Error Unit :=
  if job.maxAttempts < 1 then .error (.domainValidation "max_attempts must be >= 1")
  else if job.dependencies.contains job.id then
    .error (.domainValidation "a job cannot depend on itself")
  else .ok ()

/-- The job under the same idempotency key. -/
def sameKey (existing : List ScheduledJob) (job : ScheduledJob) : Option ScheduledJob :=
  if job.idempotencyKey = "" then none
  else existing.find? (·.idempotencyKey == job.idempotencyKey)

/-- The checks of `submit` against the stored jobs. -/
def checkDependencies (existing : List ScheduledJob) (job : ScheduledJob) : Except Error Unit :=
  let missing := job.dependencies.filter fun dependency =>
    !existing.any (·.id == dependency)
  if missing.isEmpty then assertAcyclic existing job
  else .error (.domainValidation ("unknown dependencies: " ++ Text.join ", " missing))

/-! ## Readiness -/

/-- What the scheduler was made with. -/
structure Setup where
  /-- A dispatch function is configured. -/
  dispatches : Bool := true
  quietHours : Option (Int × Int) := none

/-- `moment.hour` of a moment in microseconds. -/
def hourOf (moment : Int) : Int := moment / 3600000000 % 24

def Setup.inQuietHours (setup : Setup) (moment : Int) : Bool :=
  match setup.quietHours with
  | none => false
  | some (start, stop) =>
      let hour := hourOf moment
      if start = stop then false
      else if start < stop then start ≤ hour && hour < stop
      else start ≤ hour || hour < stop

namespace ScheduledJob

/-- The deadline has passed. -/
def missed (job : ScheduledJob) (moment : Int) : Bool :=
  match job.deadline with
  | some deadline => deadline < moment
  | none => false

/-- A queued job whose deadline has passed. -/
def fails (job : ScheduledJob) (moment : Int) : Bool :=
  job.status == .queued && job.missed moment

/-- Every dependency is known and has succeeded. -/
def dependenciesMet (byId : List ScheduledJob) (job : ScheduledJob) : Bool :=
  job.dependencies.all fun dependency =>
    match byId.find? (·.id == dependency) with
    | some found => found.status == .succeeded
    | none => false

def isReady (setup : Setup) (moment : Int) (byId : List ScheduledJob)
    (job : ScheduledJob) : Bool :=
  job.status == .queued && !job.missed moment && job.dependenciesMet byId &&
    !setup.inQuietHours moment

/-- The order of the keys `(-priority, created_at, id)`. -/
def precedes (left right : ScheduledJob) : Bool :=
  right.priority < left.priority ||
    (left.priority == right.priority &&
      (left.createdAt < right.createdAt ||
        (left.createdAt == right.createdAt && left.id ≤ right.id)))

def withStatus (job : ScheduledJob) (status : ScheduledStatus) (summary : String) :
    ScheduledJob :=
  { job with status, resultSummary := summary }

/-- The job object before its first save in `_run_one`. -/
def started (job : ScheduledJob) : ScheduledJob :=
  { job with status := .running, attempts := job.attempts + 1 }

end ScheduledJob

/-- The job objects with one of them mutated. -/
def mutate (jobs : List ScheduledJob) (job : ScheduledJob) : List ScheduledJob :=
  jobs.map fun other => if other.id == job.id then job else other

def sortReady (ready : List ScheduledJob) : List ScheduledJob :=
  ready.insertionSort fun left right => left.precedes right

/-! ## Calls -/

/-- Where a call stands. A tick carries the ready jobs it has not run and the jobs
it has. -/
inductive SchedulerPhase
  /-- `submit` waits for its lock and lists the jobs. -/
  | submitting (job : ScheduledJob)
  | creating (job : ScheduledJob)
  /-- `cancel` reads the job. -/
  | requiring (jobId : String)
  | cancelling (job : ScheduledJob)
  /-- `_ready` lists the jobs. -/
  | listing (moment : Int)
  | readying (moment : Int) (byId rest ready : List ScheduledJob)
  | running (rest ran : List ScheduledJob)
  | routing (job : ScheduledJob) (rest ran : List ScheduledJob)
  /-- The routed provider is to be saved. -/
  | routed (job : ScheduledJob) (rest ran : List ScheduledJob)
  | dispatching (job : ScheduledJob) (rest ran : List ScheduledJob)
  /-- The dispatch is under way. -/
  | awaiting (job : ScheduledJob) (rest ran : List ScheduledJob)
  | requeueing (job : ScheduledJob) (rest ran : List ScheduledJob)
  | finishing (job : ScheduledJob) (rest ran : List ScheduledJob)
  /-- `resume_interrupted` lists the jobs. -/
  | resuming
  | resetting (rest reset : List ScheduledJob)
  | finished (result : Except Error (List ScheduledJob))

structure Scheduling (Call : Type u) where
  table : SnapshotTable ScheduledJob
  phase : Call → Option SchedulerPhase
  /-- The call that holds the submit lock. -/
  submitLock : Option Call
  /-- The ids of the dispatched jobs, in order. -/
  dispatched : List String
  /-- The ids of the jobs for which a `cancel` has returned. -/
  cancelled : List String

inductive SchedulerAction (Call : Type u)
  | submit (call : Call) (job : ScheduledJob)
  | cancel (call : Call) (jobId : String)
  | tick (call : Call) (moment : Int)
  | resumeInterrupted (call : Call)
  /-- The next repository call, at a reading of the clock. -/
  | advance (call : Call) (now : Int)
  /-- The router names a provider or raises. -/
  | route (call : Call) (answer : Except String String)
  | dispatch (call : Call)
  /-- The dispatch returns a summary or raises. -/
  | dispatched (call : Call) (answer : Except String String)
  /-- A repository call raises. -/
  | raise (call : Call) (error : Error)
  /-- The process ends; only the table stays. -/
  | crash

namespace Scheduling

variable {Call : Type u}

def start (table : SnapshotTable ScheduledJob) : Scheduling Call where
  table := table
  phase := fun _ => none
  submitLock := none
  dispatched := []
  cancelled := []

variable [DecidableEq Call]

def moveTo (state : Scheduling Call) (call : Call) (phase : SchedulerPhase) :
    Scheduling Call :=
  { state with phase := Function.update state.phase call (some phase) }

/-- `repo.update(job)`, and the call goes on with the touched job. -/
def save (state : Scheduling Call) (call : Call) (now : Int) (job : ScheduledJob)
    (next : ScheduledJob → SchedulerPhase) : Scheduling Call :=
  let (table, job) := state.table.update now job
  moveTo { state with table } call (next job)

/-- The submit lock is given back and the call returns or raises. -/
def leaveSubmit (state : Scheduling Call) (call : Call)
    (result : Except Error (List ScheduledJob)) : Scheduling Call :=
  moveTo { state with submitLock := none } call (.finished result)

def begin (state : Scheduling Call) (call : Call) (phase : SchedulerPhase) :
    Option (Scheduling Call) :=
  match state.phase call with
  | none => some (state.moveTo call phase)
  | some _ => none

/-- `submit` has its lock and lists the jobs. -/
def listForSubmit (state : Scheduling Call) (call : Call) (job : ScheduledJob) :
    Scheduling Call :=
  match sameKey state.table.list job with
  | some existing => state.leaveSubmit call (.ok [existing])
  | none =>
      match checkDependencies state.table.list job with
      | .error error => state.leaveSubmit call (.error error)
      | .ok _ => moveTo { state with submitLock := some call } call (.creating job)

/-- `_require`, and the check of the status. -/
def requireQueued (state : Scheduling Call) (jobId : String) : Except Error ScheduledJob :=
  match state.table.get jobId with
  | none => .error (.other ("ScheduledJob " ++ Text.repr jobId ++ " not found"))
  | some job =>
      if job.status == .queued then .ok { job with status := .cancelled }
      else .error (.domainValidation ("job " ++ Text.repr jobId ++ " is not queued"))

/-- One job of the loop in `_ready`. -/
def readyOne (setup : Setup) (state : Scheduling Call) (call : Call) (now moment : Int)
    (byId rest ready : List ScheduledJob) (job : ScheduledJob) : Scheduling Call :=
  if job.fails moment then
    state.save call now (job.withStatus .failed "deadline missed before execution")
      fun job => .readying moment (mutate byId job) rest ready
  else if job.isReady setup moment byId then
    state.moveTo call (.readying moment byId rest (ready ++ [job]))
  else state.moveTo call (.readying moment byId rest ready)

/-- Behind the first save of `_run_one`. -/
def afterStart (setup : Setup) (rest ran : List ScheduledJob) (job : ScheduledJob) :
    SchedulerPhase :=
  if setup.dispatches then .routing job rest ran
  else .finishing (job.withStatus .failed "scheduler has no dispatch executor configured")
    rest ran

def advance (setup : Setup) (state : Scheduling Call) (call : Call) (now : Int) :
    SchedulerPhase → Option (Scheduling Call)
  | .submitting job =>
      match state.submitLock with
      | some _ => none
      | none => some (state.listForSubmit call job)
  | .creating job =>
      match state.table.create now job with
      | .error error => some (state.leaveSubmit call (.error error))
      | .ok (table, created) => some (leaveSubmit { state with table } call (.ok [created]))
  | .requiring jobId =>
      match state.requireQueued jobId with
      | .error error => some (state.moveTo call (.finished (.error error)))
      | .ok job => some (state.moveTo call (.cancelling job))
  | .cancelling job =>
      some (save { state with cancelled := state.cancelled ++ [job.id] } call now job
        fun job => .finished (.ok [job]))
  | .listing moment =>
      some (state.moveTo call (.readying moment state.table.list state.table.list []))
  | .readying _ _ [] ready => some (state.moveTo call (.running (sortReady ready) []))
  | .readying moment byId (job :: rest) ready =>
      some (state.readyOne setup call now moment byId rest ready job)
  | .running [] ran => some (state.moveTo call (.finished (.ok ran)))
  | .running (job :: rest) ran =>
      some (state.save call now job.started (afterStart setup rest ran))
  | .routed job rest ran =>
      some (state.save call now job fun job => .dispatching job rest ran)
  | .requeueing job rest ran | .finishing job rest ran =>
      some (state.save call now job fun job => .running rest (ran ++ [job]))
  | .resuming => some (state.moveTo call (.resetting state.table.list []))
  | .resetting [] reset => some (state.moveTo call (.finished (.ok reset)))
  | .resetting (job :: rest) reset =>
      if job.status == .running then
        some (state.save call now { job with status := .queued }
          fun job => .resetting rest (reset ++ [job]))
      else some (state.moveTo call (.resetting rest reset))
  | .routing _ _ _ | .dispatching _ _ _ | .awaiting _ _ _ | .finished _ => none

/-- Behind the dispatch. -/
def afterDispatch (job : ScheduledJob) (rest ran : List ScheduledJob) :
    Except String String → SchedulerPhase
  | .ok summary => .finishing (job.withStatus .succeeded summary) rest ran
  | .error raised =>
      if job.attempts < job.maxAttempts then
        .requeueing (job.withStatus .queued
          ("attempt " ++ toString job.attempts ++ " failed: " ++ raised)) rest ran
      else .finishing (job.withStatus .failed ("attempts exhausted: " ++ raised)) rest ran

def step (setup : Setup) : StepFunction (Scheduling Call) (SchedulerAction Call)
  | state, .submit call job =>
      match validate job with
      | .error error => state.begin call (.finished (.error error))
      | .ok _ => state.begin call (.submitting job)
  | state, .cancel call jobId => state.begin call (.requiring jobId)
  | state, .tick call moment => state.begin call (.listing moment)
  | state, .resumeInterrupted call => state.begin call .resuming
  | state, .advance call now =>
      match state.phase call with
      | none => none
      | some phase => state.advance setup call now phase
  | state, .route call answer =>
      match state.phase call, answer with
      | some (.routing job rest ran), .ok provider =>
          some (state.moveTo call (.routed { job with routedProvider := provider } rest ran))
      | some (.routing job rest ran), .error raised =>
          some (state.moveTo call
            (.finishing (job.withStatus .failed ("routing failed: " ++ raised)) rest ran))
      | _, _ => none
  | state, .dispatch call =>
      match state.phase call with
      | some (.dispatching job rest ran) =>
          some (moveTo { state with dispatched := state.dispatched ++ [job.id] } call
            (.awaiting job rest ran))
      | _ => none
  | state, .dispatched call answer =>
      match state.phase call with
      | some (.awaiting job rest ran) =>
          some (state.moveTo call (afterDispatch job rest ran answer))
      | _ => none
  | state, .raise call error =>
      match state.phase call with
      | none | some (.finished _) => none
      | some (.creating _) => some (state.leaveSubmit call (.error error))
      | some _ => some (state.moveTo call (.finished (.error error)))
  | state, .crash => some { state with phase := fun _ => none, submitLock := none }

/-! ## What a save does -/

section Saving

variable (state : Scheduling Call) (call : Call) (now : Int) (job : ScheduledJob)
  (next : ScheduledJob → SchedulerPhase)

theorem save_get (other : String) :
    (state.save call now job next).table.get other =
      if other = job.id then some (Entity.touch now job) else state.table.get other :=
  state.table.get_update now job other

theorem save_get_self :
    (state.save call now job next).table.get job.id = some (Entity.touch now job) :=
  (save_get state call now job next job.id).trans (if_pos rfl)

@[simp] theorem save_phase :
    (state.save call now job next).phase =
      Function.update state.phase call (some (next (Entity.touch now job))) := by
  simp [save, moveTo]

@[simp] theorem save_cancelled :
    (state.save call now job next).cancelled = state.cancelled := rfl

end Saving

/-! ## What a step leaves alone -/

/-- Nothing is dispatched, and no cancellation is forgotten. -/
def Frame (before after : Scheduling Call) : Prop :=
  after.dispatched = before.dispatched ∧ ∀ id ∈ before.cancelled, id ∈ after.cancelled

omit [DecidableEq Call] in
private theorem frame_of_same {before after : Scheduling Call}
    (dispatched : after.dispatched = before.dispatched)
    (cancelled : after.cancelled = before.cancelled) : before.Frame after :=
  ⟨dispatched, fun _ present => cancelled ▸ present⟩

private theorem listForSubmit_frame (state : Scheduling Call) (call : Call)
    (job : ScheduledJob) : state.Frame (state.listForSubmit call job) := by
  unfold listForSubmit
  split
  · exact frame_of_same rfl rfl
  · split <;> exact frame_of_same rfl rfl

private theorem readyOne_frame (setup : Setup) (state : Scheduling Call) (call : Call)
    (now moment : Int) (byId rest ready : List ScheduledJob) (job : ScheduledJob) :
    state.Frame (state.readyOne setup call now moment byId rest ready job) := by
  unfold readyOne
  split
  · exact frame_of_same rfl rfl
  · split <;> exact frame_of_same rfl rfl

private theorem advance_frame {setup : Setup} {before after : Scheduling Call} {call : Call}
    {now : Int} {phase : SchedulerPhase}
    (advanced : before.advance setup call now phase = some after) : before.Frame after := by
  cases phase with
  | submitting job =>
      simp only [advance] at advanced
      split at advanced
      · cases advanced
      · cases advanced
        exact listForSubmit_frame before call job
  | cancelling job =>
      cases advanced
      exact ⟨rfl, fun id present => List.mem_append_left _ present⟩
  | readying moment byId rest ready =>
      cases rest with
      | nil =>
          cases advanced
          exact frame_of_same rfl rfl
      | cons job rest =>
          cases advanced
          exact readyOne_frame setup before call now moment byId rest ready job
  | running rest ran =>
      cases rest with
      | nil =>
          cases advanced
          exact frame_of_same rfl rfl
      | cons job rest =>
          cases advanced
          exact frame_of_same rfl rfl
  | resetting rest reset =>
      cases rest with
      | nil =>
          cases advanced
          exact frame_of_same rfl rfl
      | cons job rest =>
          simp only [advance] at advanced
          split at advanced <;> cases advanced <;> exact frame_of_same rfl rfl
  | creating job =>
      simp only [advance] at advanced
      split at advanced <;> cases advanced <;> exact frame_of_same rfl rfl
  | requiring jobId =>
      simp only [advance] at advanced
      split at advanced <;> cases advanced <;> exact frame_of_same rfl rfl
  | listing | routed | requeueing | finishing | resuming =>
      cases advanced
      exact frame_of_same rfl rfl
  | routing | dispatching | awaiting | finished => cases advanced

private theorem begin_frame {before after : Scheduling Call} {call : Call}
    {phase : SchedulerPhase} (begun : before.begin call phase = some after) :
    before.Frame after := by
  unfold begin at begun
  split at begun <;> cases begun
  exact frame_of_same rfl rfl

/-- Only `dispatch` dispatches. -/
theorem step_frame {setup : Setup} {before after : Scheduling Call}
    {action : SchedulerAction Call} (stepped : step setup before action = some after)
    (other : ∀ call, action ≠ .dispatch call) : before.Frame after := by
  cases action with
  | submit call job =>
      simp only [step] at stepped
      split at stepped <;> exact begin_frame stepped
  | cancel call jobId => exact begin_frame stepped
  | tick call moment => exact begin_frame stepped
  | resumeInterrupted call => exact begin_frame stepped
  | advance call now =>
      simp only [step] at stepped
      split at stepped
      · cases stepped
      · exact advance_frame stepped
  | dispatch call => exact absurd rfl (other call)
  | route call answer =>
      simp only [step] at stepped
      split at stepped <;> cases stepped <;> exact frame_of_same rfl rfl
  | dispatched call answer =>
      simp only [step] at stepped
      split at stepped <;> cases stepped
      exact frame_of_same rfl rfl
  | raise call error =>
      simp only [step] at stepped
      split at stepped <;> cases stepped <;> exact frame_of_same rfl rfl
  | crash =>
      cases stepped
      exact frame_of_same rfl rfl

end Scheduling

end Raphael.Scheduler
