import Raphael.Agent.Multi.AgentRuns
import Raphael.Foundation.FallibleFold

/-! # The supervisor

A goal is delegated: its subtasks are submitted one by one, run by `run_all`, and their
results are gathered under the ids of their tasks. The token may be cancelled between any two
steps. -/

namespace Raphael.Agent.Multi

open Core
open Foundation
open Persistence
open Agent.Executor

/-- One delegated unit. -/
structure SubtaskSpec where
  agentId : String
  goal : String := ""
  plan : Plan
  arguments : List (String × Arguments) := []

/-- The agent takes tasks. -/
def AgentStatus.takesTasks (status : AgentStatus) : Bool :=
  status == .ready || status == .running

/-- What a submission meets: new ids, the clock, and a database that may raise when the task
is created. -/
structure Arrival where
  taskId : String
  recordId : String
  now : Int := 0
  failure : Option Error := none

/-- The tasks of the runtime with a new one. -/
def createTask (runtimeTasks : List String) (arrival : Arrival) : Except Error (List String) :=
  match arrival.failure with
  | some error => .error error
  | none =>
      if runtimeTasks.contains arrival.taskId then
        .error (.other "database error: UNIQUE constraint failed: tasks.id")
      else .ok (runtimeTasks ++ [arrival.taskId])

/-- The record of a subtask. -/
def SubtaskSpec.record (spec : SubtaskSpec) (arrival : Arrival) : AgentTask where
  id := arrival.recordId
  createdAt := arrival.now
  taskId := arrival.taskId
  ownerAgent := spec.agentId
  plan := spec.plan
  arguments := spec.arguments

/-- `AgentManager.submit`. -/
def submit (agents : AgentRegistry) (tasks : SnapshotTable AgentTask)
    (runtimeTasks : List String) (spec : SubtaskSpec) (arrival : Arrival) :
    Except Error (SnapshotTable AgentTask × List String × AgentTask) :=
  match agents.lookup spec.agentId with
  | none => .error (.other ("AgentDefinition " ++ Text.repr spec.agentId ++ " not found"))
  | some definition =>
      if !definition.status.takesTasks then
        .error (.domainValidation ("agent " ++ Text.repr spec.agentId ++ " is not runnable"))
      else do
        let runtimeTasks ← createTask runtimeTasks arrival
        let (tasks, record) ← tasks.create arrival.now (spec.record arrival)
        return (tasks, runtimeTasks, record)

/-- The agent takes tasks, and the task and its record are new. -/
structure Accepts (agents : AgentRegistry) (tasks : SnapshotTable AgentTask)
    (runtimeTasks : List String) (spec : SubtaskSpec) (arrival : Arrival) : Prop where
  agent : ∃ definition ∈ agents.lookup spec.agentId, definition.status.takesTasks = true
  stored : arrival.failure = none
  newTask : arrival.taskId ∉ runtimeTasks
  newRecord : (tasks.get arrival.recordId).isNone

instance (agents : AgentRegistry) (tasks : SnapshotTable AgentTask)
    (runtimeTasks : List String) (spec : SubtaskSpec) (arrival : Arrival) :
    Decidable (Accepts agents tasks runtimeTasks spec arrival) :=
  decidable_of_iff ((∃ definition ∈ agents.lookup spec.agentId,
      definition.status.takesTasks = true) ∧ arrival.failure = none ∧
      arrival.taskId ∉ runtimeTasks ∧ (tasks.get arrival.recordId).isNone)
    ⟨fun ⟨agent, stored, newTask, newRecord⟩ => ⟨agent, stored, newTask, newRecord⟩,
      fun accepts => ⟨accepts.agent, accepts.stored, accepts.newTask, accepts.newRecord⟩⟩

/-- A new record for a new task is stored beside the others. -/
structure Submits (tasks tasks' : SnapshotTable AgentTask)
    (runtimeTasks runtimeTasks' : List String) (spec : SubtaskSpec) (arrival : Arrival)
    (record : AgentTask) : Prop where
  id : record.id = arrival.recordId
  taskId : record.taskId = arrival.taskId
  ownerAgent : record.ownerAgent = spec.agentId
  created : runtimeTasks' = runtimeTasks ++ [arrival.taskId]
  stored : ∀ other, tasks'.get other = if other = record.id then some record else tasks.get other

section Submission

variable {agents : AgentRegistry} {tasks tasks' : SnapshotTable AgentTask}
  {runtimeTasks runtimeTasks' : List String} {spec : SubtaskSpec} {arrival : Arrival}
  {record : AgentTask}

theorem createTask_eq_ok (created : createTask runtimeTasks arrival = .ok runtimeTasks') :
    arrival.failure = none ∧ arrival.taskId ∉ runtimeTasks ∧
      runtimeTasks' = runtimeTasks ++ [arrival.taskId] := by
  unfold createTask at created
  split at created
  · cases created
  · next unfailing =>
      split at created
      · cases created
      · next fresh =>
          cases created
          exact ⟨unfailing, by simpa using fresh, rfl⟩

/-- A submission that is not refused. -/
theorem submit_eq_ok (submitted : submit agents tasks runtimeTasks spec arrival =
      .ok (tasks', runtimeTasks', record)) :
    Accepts agents tasks runtimeTasks spec arrival ∧
      Submits tasks tasks' runtimeTasks runtimeTasks' spec arrival record := by
  unfold submit at submitted
  split at submitted
  · cases submitted
  · next definition found =>
      split at submitted
      · cases submitted
      · next takes =>
          rcases except_bind_eq_ok.mp submitted with ⟨named, creates, submitted⟩
          rcases except_bind_eq_ok.mp submitted with ⟨⟨stored, made⟩, written, submitted⟩
          cases submitted
          rcases createTask_eq_ok creates with ⟨unfailing, fresh, created⟩
          rcases SnapshotTable.create_eq_ok written with ⟨rfl, _, unused⟩
          exact ⟨⟨⟨definition, found, by simpa using takes⟩, unfailing, fresh,
            Option.isNone_iff_eq_none.mpr unused⟩,
            ⟨rfl, rfl, rfl, created, fun other => SnapshotTable.get_create written other⟩⟩

/-- A submission is not refused if it is accepted. -/
theorem submit_ok (accepts : Accepts agents tasks runtimeTasks spec arrival) :
    ∃ submitted, submit agents tasks runtimeTasks spec arrival = .ok submitted := by
  rcases accepts.agent with ⟨definition, member, takes⟩
  have found : agents.lookup spec.agentId = some definition := member
  have fresh : createTask runtimeTasks arrival = .ok (runtimeTasks ++ [arrival.taskId]) := by
    simp [createTask, accepts.stored, accepts.newTask]
  have unused : tasks.get (Entity.id (spec.record arrival)) = none :=
    Option.isNone_iff_eq_none.mp accepts.newRecord
  rcases SnapshotTable.create_ok_iff.mpr unused with ⟨⟨stored, made⟩, written⟩
  refine ⟨(stored, runtimeTasks ++ [arrival.taskId], made), ?_⟩
  simp only [submit, found, takes, Bool.not_true, Bool.false_eq_true, if_false, fresh]
  change (tasks.create arrival.now (spec.record arrival) >>= fun _ => _) = _
  rw [written]
  rfl

end Submission

/-! ## The result -/

structure SupervisorResult where
  taskIds : List String
  results : Dict String ExecutionResult

namespace SupervisorResult

/-- Task ids whose execution fully completed. -/
def succeeded (result : SupervisorResult) : List String :=
  (result.results.entries.filter fun entry => entry.2.status = .completed).map Prod.fst

/-- Task ids that did not fully complete. -/
def failed (result : SupervisorResult) : List String :=
  result.taskIds.filter fun taskId => !result.succeeded.contains taskId

end SupervisorResult

/-- `results[record.task_id] = by_record[record.id]`. -/
def gatherResult (byRecord : Dict String ExecutionResult)
    (results : Dict String ExecutionResult) (record : AgentTask) :
    Except Error (Dict String ExecutionResult) :=
  match byRecord.get record.id with
  | some result => .ok (results.set record.taskId result)
  | none => .error (.other (Text.repr record.id))

def gatherResults (byRecord : Dict String ExecutionResult) (records : List AgentTask) :
    Except Error (Dict String ExecutionResult) :=
  records.foldlM (gatherResult byRecord) Dict.empty

/-! ## The run -/

inductive SupervisorPhase
  /-- The specs to be submitted, and the records of those that are. -/
  | submitting (rest : List SubtaskSpec) (records : List AgentTask)
  /-- `run_all` is under way. -/
  | running (records : List AgentTask)
  | returned (records : List AgentTask) (outcome : Except Error SupervisorResult)

/-- A supervised run, with the token that was given to it. -/
structure Supervision (Call : Type u) (Caller : Type v) where
  runs : AgentRuns Call Caller
  runtimeTasks : List String
  token : Bool := false
  phase : SupervisorPhase

inductive SupervisorAction (Call : Type u) (Caller : Type v)
  | submit (arrival : Arrival)
  /-- `run_all` is called. -/
  | runAll
  | cancel
  /-- A step of `run_all`, of a call of `run_task`, or of another caller. -/
  | run (action : RunAction Call Caller)
  /-- `run_all` has returned or raised. -/
  | gather

namespace Supervision

variable {Call : Type u} {Caller : Type v} [DecidableEq Call] [DecidableEq Caller]

/-- `run_goal` with the chosen specs, while no call was made yet. -/
def start (tasks : SnapshotTable AgentTask) (agents : AgentRegistry)
    (runtimeTasks : List String) (specs : List SubtaskSpec) : Supervision Call Caller where
  runs := .start tasks agents
  runtimeTasks := runtimeTasks
  phase :=
    if specs = [] then
      .returned [] (.error (.domainValidation "supervisor produced no subtasks"))
    else .submitting specs []

/-- The loop of `run_all` looks at its token when a record is pending and a worker is free. -/
def admits (maxWorkers : Nat) (caller : Caller) (state : Supervision Call Caller) :
    RunAction Call Caller → Bool
  | .runAll other _ => other ≠ caller
  | .submit other _ => other ≠ caller || !state.token
  | .stop other =>
      other ≠ caller || (state.token && (state.runs.fanOut caller).any fun run =>
        !run.pending.isEmpty && run.inFlight.length < maxWorkers)
  | _ => true

/-- What is made of what `run_all` has left. -/
def gathered (records : List AgentTask) :
    Option (RunAll Call) → Option (Except Error SupervisorResult)
  | none => some (.error (.other "run_all raised"))
  | some run =>
      if run.pending = [] ∧ run.inFlight = [] then
        some ((gatherResults run.results records).map fun results =>
          { taskIds := records.map AgentTask.taskId, results })
      else none

def step (maxWorkers : Nat) (caller : Caller) :
    StepFunction (Supervision Call Caller) (SupervisorAction Call Caller)
  | state, .submit arrival =>
      match state.phase with
      | .submitting (spec :: rest) records =>
          match Multi.submit state.runs.agents state.runs.tasks state.runtimeTasks spec
            arrival with
          | .error error => some { state with phase := .returned records (.error error) }
          | .ok (tasks, runtimeTasks, record) => some { state with
              runs := { state.runs with tasks }
              runtimeTasks
              phase := .submitting rest (records ++ [record]) }
      | _ => none
  | state, .runAll =>
      match state.phase with
      | .submitting [] records =>
          (AgentRuns.step maxWorkers state.runs
            (.runAll caller (records.map AgentTask.id))).map fun runs =>
              { state with runs, phase := .running records }
      | _ => none
  | state, .cancel => some { state with token := true }
  | state, .run action =>
      if state.admits maxWorkers caller action then
        (AgentRuns.step maxWorkers state.runs action).map fun runs => { state with runs }
      else none
  | state, .gather =>
      match state.phase with
      | .running records =>
          (gathered records (state.runs.fanOut caller)).map fun outcome =>
            { state with phase := .returned records outcome }
      | _ => none

end Supervision

end Raphael.Agent.Multi
