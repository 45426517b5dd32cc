import Raphael.Agent.Executor.ParallelExecutor
import Raphael.Agent.Multi.AgentManager
import Raphael.Foundation.Dict
import Raphael.Foundation.StepSystem

/-! # Runs of agent tasks

Any number of `run_task` calls, made directly or by `run_all`. Each call of the agent registry
and of the task repository is one step; the executor runs between two steps of its call. -/

namespace Raphael.Agent.Multi

open Core
open Foundation
open Persistence
open Agent.Executor

/-- One unit of work, owned by one agent. -/
structure AgentTask where
  id : String
  createdAt : Int := 0
  updatedAt : Int := 0
  taskId : String := ""
  ownerAgent : String := ""
  plan : Plan
  arguments : List (String × Arguments) := []
  status : AgentStatus := .created
  resultSummary : String := ""

instance : Entity AgentTask where
  id := AgentTask.id
  updatedAt := AgentTask.updatedAt
  touch now record := { record with updatedAt := now }
  id_touch _ _ := rfl

/-- The task has not run yet. -/
def AgentStatus.runnable (status : AgentStatus) : Bool :=
  status == .created || status == .ready

/-- How a call ends: with a result, with an exception, or with what is no `Exception`. -/
inductive RunEnd
  | result (result : ExecutionResult)
  | raised (name text : String)
  | interrupted

def RunEnd.notFound (resource resourceId : String) : RunEnd :=
  .raised "ResourceNotFoundError" (resource ++ " " ++ Text.repr resourceId ++ " not found")

/-- Where a call of `run_task` stands: the repository call that comes next, or the executor. -/
inductive RunPhase
  /-- `self._tasks.get(record_id)`. -/
  | looking (recordId : String)
  /-- `self.scoped_runner(record.owner_agent)`. -/
  | scoping (record : AgentTask)
  /-- `self._set_task_status(record, RUNNING)`. -/
  | claiming (record : AgentTask)
  /-- `self._agents.set_status(record.owner_agent, RUNNING)`. -/
  | marking (record : AgentTask)
  | executing (record : AgentTask)
  /-- `self._agents.set_status(record.owner_agent, READY)`, with the result, if there is one. -/
  | releasing (record : AgentTask) (result : Option ExecutionResult)
  /-- `self._set_task_status(record, COMPLETED or FAILED)`. -/
  | closing (record : AgentTask) (result : ExecutionResult)
  /-- `self._tasks.update(record)`. -/
  | summarizing (record : AgentTask) (result : ExecutionResult)
  | returned (ending : RunEnd)

/-- What the executor ends with: a result, an exception, which the call turns into a result,
or what is no `Exception`. -/
def RunEnd.executionResult (record : AgentTask) : RunEnd → Option ExecutionResult
  | .result outcome => some outcome
  | .raised name text => some {
      taskId := record.taskId
      status := .failed
      errors := ["execution raised " ++ name ++ ": " ++ text] }
  | .interrupted => none

/-- The repository call that comes next. `none` where none does. -/
def RunPhase.advance (now : Int) (tasks : SnapshotTable AgentTask) (agents : AgentRegistry) :
    RunPhase → Option (SnapshotTable AgentTask × AgentRegistry × RunPhase)
  | .looking recordId =>
      match tasks.get recordId with
      | none => some (tasks, agents, .returned (.notFound "AgentTask" recordId))
      | some record =>
          if record.status.runnable then some (tasks, agents, .scoping record)
          else some (tasks, agents,
            .returned (.raised "DomainValidationError" "agent task already ran"))
  | .scoping record =>
      match agents.lookup record.ownerAgent with
      | none => some (tasks, agents,
          .returned (.notFound "AgentDefinition" record.ownerAgent))
      | some _ => some (tasks, agents, .claiming record)
  | .claiming record =>
      let (tasks, record) := tasks.update now { record with status := .running }
      some (tasks, agents, .marking record)
  | .marking record =>
      match agents.setStatus now record.ownerAgent .running with
      | none => some (tasks, agents,
          .returned (.notFound "AgentDefinition" record.ownerAgent))
      | some agents => some (tasks, agents, .executing record)
  | .executing _ => none
  | .releasing record result =>
      match agents.setStatus now record.ownerAgent .ready with
      | none => some (tasks, agents,
          .returned (.notFound "AgentDefinition" record.ownerAgent))
      | some agents =>
          match result with
          | none => some (tasks, agents, .returned .interrupted)
          | some result => some (tasks, agents, .closing record result)
  | .closing record result =>
      let status := if result.status = .completed then .completed else .failed
      let (tasks, record) := tasks.update now { record with status := status }
      some (tasks, agents, .summarizing record result)
  | .summarizing record result =>
      let summary := toString result.succeeded.length ++ " succeeded, " ++
        toString result.failed.length ++ " failed"
      let (tasks, _) := tasks.update now { record with resultSummary := summary }
      some (tasks, agents, .returned (.result result))
  | .returned _ => none

/-- The executor of the agent is running. -/
def RunPhase.executes (agentId : String) : RunPhase → Prop
  | .executing record => record.ownerAgent = agentId
  | _ => False

/-- The call stands between its two writes of the status of the agent. -/
def RunPhase.occupies (agentId : String) : RunPhase → Prop
  | .executing record => record.ownerAgent = agentId
  | .releasing record _ => record.ownerAgent = agentId
  | _ => False

/-- What a repository call does: it leads to the next one, or refuses, which ends the call and
leaves both repositories. -/
inductive RepositoryCall (now : Int) (tasks : SnapshotTable AgentTask)
    (agents : AgentRegistry) :
    RunPhase → SnapshotTable AgentTask → AgentRegistry → RunPhase → Prop
  | look {recordId record} : tasks.get recordId = some record →
      record.status.runnable = true →
      RepositoryCall now tasks agents (.looking recordId) tasks agents (.scoping record)
  | scope {record} :
      RepositoryCall now tasks agents (.scoping record) tasks agents (.claiming record)
  | claim {record claimed} : claimed = { record with status := .running } →
      RepositoryCall now tasks agents (.claiming record) (tasks.update now claimed).1 agents
        (.marking (Entity.touch now claimed))
  | mark {record marked} : agents.setStatus now record.ownerAgent .running = some marked →
      RepositoryCall now tasks agents (.marking record) tasks marked (.executing record)
  | release {record result released next} :
      agents.setStatus now record.ownerAgent .ready = some released →
      (next = .returned .interrupted ∨ ∃ result, next = .closing record result) →
      RepositoryCall now tasks agents (.releasing record result) tasks released next
  | close {record result closed} : closed.id = record.id → closed.status.runnable = false →
      RepositoryCall now tasks agents (.closing record result) (tasks.update now closed).1
        agents (.summarizing (Entity.touch now closed) result)
  | summarize {record result summary} :
      RepositoryCall now tasks agents (.summarizing record result)
        (tasks.update now { record with resultSummary := summary }).1 agents
        (.returned (.result result))
  | refuse {phase ending} : (∀ agentId, phase.occupies agentId →
        agents.setStatus now agentId .ready = none) →
      RepositoryCall now tasks agents phase tasks agents (.returned ending)

theorem RunPhase.advance_sound {now : Int} {tasks tasks' : SnapshotTable AgentTask}
    {agents agents' : AgentRegistry} {phase next : RunPhase}
    (advanced : phase.advance now tasks agents = some (tasks', agents', next)) :
    RepositoryCall now tasks agents phase tasks' agents' next := by
  cases phase with
  | looking recordId =>
      simp only [advance] at advanced
      cases found : tasks.get recordId with
      | none =>
          simp only [found] at advanced
          cases advanced
          exact .refuse fun _ occupied => occupied.elim
      | some record =>
          simp only [found] at advanced
          split at advanced
          · next runnable =>
              cases advanced
              exact .look found runnable
          · cases advanced
            exact .refuse fun _ occupied => occupied.elim
  | scoping record =>
      simp only [advance] at advanced
      split at advanced
      · cases advanced
        exact .refuse fun _ occupied => occupied.elim
      · cases advanced
        exact .scope
  | claiming record =>
      simp only [advance, SnapshotTable.update_snd] at advanced
      cases advanced
      exact .claim rfl
  | marking record =>
      simp only [advance] at advanced
      split at advanced
      · cases advanced
        exact .refuse fun _ occupied => occupied.elim
      · next marked =>
          cases advanced
          exact .mark marked
  | executing record => cases advanced
  | releasing record result =>
      simp only [advance] at advanced
      split at advanced
      · next missing =>
          cases advanced
          refine .refuse fun agentId owns => ?_
          cases owns
          exact missing
      · next released =>
          cases result with
          | none =>
              cases advanced
              exact .release released (.inl rfl)
          | some result =>
              cases advanced
              exact .release released (.inr ⟨result, rfl⟩)
  | closing record result =>
      simp only [advance, SnapshotTable.update_snd] at advanced
      cases advanced
      exact .close rfl (by simp only; split <;> rfl)
  | summarizing record result =>
      simp only [advance] at advanced
      cases advanced
      exact .summarize
  | returned ending => cases advanced

/-- A call of `run_all`: the records that are not submitted yet, and the calls of `run_task`
that are not collected yet, with their records. -/
structure RunAll (Call : Type u) where
  pending : List String
  inFlight : List (Call × String) := []
  results : Dict String ExecutionResult := .empty

/-- What `run_all` keeps of a call that has ended: `none` where it ends with it. -/
def RunEnd.collected (tasks : SnapshotTable AgentTask) (recordId : String) :
    RunEnd → Option ExecutionResult
  | .result outcome => some outcome
  | .raised name text => some {
      taskId := ((tasks.get recordId).map AgentTask.taskId).getD ""
      status := .failed
      errors := ["agent run raised " ++ name ++ ": " ++ text] }
  | .interrupted => none

/-- `executed` are the records whose plan was given to an executor. -/
structure AgentRuns (Call : Type u) (Caller : Type v) where
  tasks : SnapshotTable AgentTask
  agents : AgentRegistry
  phase : Call → Option RunPhase
  fanOut : Caller → Option (RunAll Call)
  executed : List AgentTask

/-- The steps. `executorEnds` is the return of the executor, `submit` one turn of the inner
loop of `run_all`, `stop` the turn that finds the token cancelled, and `collect` the body of
the loop over the calls that are done. -/
inductive RunAction (Call : Type u) (Caller : Type v)
  | runTask (call : Call) (recordId : String)
  | advance (call : Call) (now : Int)
  | executorEnds (call : Call) (ending : RunEnd)
  | runAll (caller : Caller) (recordIds : List String)
  | submit (caller : Caller) (call : Call)
  | stop (caller : Caller)
  | collect (caller : Caller) (call : Call)

namespace AgentRuns

variable {Call : Type u} {Caller : Type v}

/-- No call was made yet. -/
def start (tasks : SnapshotTable AgentTask) (agents : AgentRegistry) :
    AgentRuns Call Caller where
  tasks := tasks
  agents := agents
  phase _ := none
  fanOut _ := none
  executed := []

variable [DecidableEq Call] [DecidableEq Caller]

def setPhase (state : AgentRuns Call Caller) (call : Call) (phase : RunPhase) :
    AgentRuns Call Caller :=
  { state with phase := Function.update state.phase call (some phase) }

def setFanOut (state : AgentRuns Call Caller) (caller : Caller) (run : Option (RunAll Call)) :
    AgentRuns Call Caller :=
  { state with fanOut := Function.update state.fanOut caller run }

/-- The executor is at work from the step that marks its agent on. -/
def begun : RunPhase → List AgentTask
  | .executing record => [record]
  | _ => []

def advance (state : AgentRuns Call Caller) (call : Call) (now : Int) :
    Option (AgentRuns Call Caller) :=
  match state.phase call with
  | none => none
  | some phase =>
      match phase.advance now state.tasks state.agents with
      | none => none
      | some (tasks, agents, next) => some { state.setPhase call next with
          tasks := tasks
          agents := agents
          executed := state.executed ++ begun next }

def step (maxWorkers : Nat) : StepFunction (AgentRuns Call Caller) (RunAction Call Caller)
  | state, .runTask call recordId =>
      match state.phase call with
      | none => some (state.setPhase call (.looking recordId))
      | some _ => none
  | state, .advance call now => state.advance call now
  | state, .executorEnds call ending =>
      match state.phase call with
      | some (.executing record) =>
          some (state.setPhase call (.releasing record (ending.executionResult record)))
      | _ => none
  | state, .runAll caller recordIds =>
      match state.fanOut caller with
      | none => some (state.setFanOut caller (some { pending := recordIds }))
      | some _ => none
  | state, .submit caller call =>
      match state.fanOut caller, state.phase call with
      | some run, none =>
          match run.pending with
          | [] => none
          | recordId :: rest =>
              if run.inFlight.length < maxWorkers then
                some ((state.setFanOut caller (some { run with
                  pending := rest
                  inFlight := run.inFlight ++ [(call, recordId)] })).setPhase call
                    (.looking recordId))
              else none
      | _, _ => none
  | state, .stop caller =>
      match state.fanOut caller with
      | some run => some (state.setFanOut caller (some { run with pending := [] }))
      | none => none
  | state, .collect caller call =>
      match state.fanOut caller, state.phase call with
      | some run, some (.returned ending) =>
          match run.inFlight.find? (·.1 = call) with
          | none => none
          | some (_, recordId) =>
              some (state.setFanOut caller ((ending.collected state.tasks recordId).map
                fun result => { run with
                  inFlight := run.inFlight.filter (·.1 ≠ call)
                  results := run.results.set recordId result }))
      | _, _ => none

/-- Only the calls of `run_all` change, and perhaps the phase of a call. -/
structure Aside (state next : AgentRuns Call Caller) : Prop where
  tasks : next.tasks = state.tasks
  agents : next.agents = state.agents
  executed : next.executed = state.executed

/-- What a step does, beside the calls of `run_all`. -/
inductive Stepped (state next : AgentRuns Call Caller) : RunAction Call Caller → Prop
  | fansOut {action : RunAction Call Caller} (aside : Aside state next)
      (phases : next.phase = state.phase) (other : ∀ call now, action ≠ .advance call now) :
      Stepped state next action
  | begins {action : RunAction Call Caller} {call : Call} {recordId : String}
      (aside : Aside state next) (unused : state.phase call = none)
      (phases : next.phase = Function.update state.phase call (some (.looking recordId)))
      (other : ∀ call now, action ≠ .advance call now) : Stepped state next action
  | ends {call : Call} {ending : RunEnd} {record : AgentTask} (aside : Aside state next)
      (stands : state.phase call = some (.executing record))
      (phases : next.phase = Function.update state.phase call
        (some (.releasing record (ending.executionResult record)))) :
      Stepped state next (.executorEnds call ending)
  | advances {call : Call} {now : Int} (advanced : state.advance call now = some next) :
      Stepped state next (.advance call now)

theorem step_sound {maxWorkers : Nat} {state next : AgentRuns Call Caller}
    {action : RunAction Call Caller} (stepped : step maxWorkers state action = some next) :
    Stepped state next action := by
  cases action with
  | runTask call recordId =>
      simp only [step] at stepped
      split at stepped
      · next unused =>
          cases stepped
          exact .begins ⟨rfl, rfl, rfl⟩ unused rfl (by simp)
      · cases stepped
  | advance call now => exact .advances stepped
  | executorEnds call ending =>
      simp only [step] at stepped
      split at stepped
      · next record stands =>
          cases stepped
          exact .ends ⟨rfl, rfl, rfl⟩ stands rfl
      · cases stepped
  | runAll caller recordIds =>
      simp only [step] at stepped
      split at stepped
      · cases stepped
        exact .fansOut ⟨rfl, rfl, rfl⟩ rfl (by simp)
      · cases stepped
  | submit caller call =>
      simp only [step] at stepped
      split at stepped
      · next unused =>
          split at stepped
          · cases stepped
          · split at stepped
            · cases stepped
              exact .begins ⟨rfl, rfl, rfl⟩ unused rfl (by simp)
            · cases stepped
      · cases stepped
  | stop caller =>
      simp only [step] at stepped
      split at stepped
      · cases stepped
        exact .fansOut ⟨rfl, rfl, rfl⟩ rfl (by simp)
      · cases stepped
  | collect caller call =>
      simp only [step] at stepped
      split at stepped
      · split at stepped
        · cases stepped
        · cases stepped
          exact .fansOut ⟨rfl, rfl, rfl⟩ rfl (by simp)
      · cases stepped

end AgentRuns

end Raphael.Agent.Multi
