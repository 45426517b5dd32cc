import Raphael.Agent.Multi.MessageBus
import Raphael.Agent.Multi.Supervisor

/-! # The coordinator

Subtasks are given to agents, all at once or one behind the other, with a message to each
agent. What comes back is verified and gathered under the ids of the agents. -/

namespace Raphael.Agent.Multi

open Core
open Foundation
open Persistence
open Agent.Executor

/-- What the construction of a message and its sending find: a new id and the clock. -/
structure Postmark where
  id : String
  createdAt : Int := 0
  clock : Nat → Int := fun _ => 0

/-- A subtask, and what it meets: the stores as its submission finds them, its new ids, and
the postmarks of the message to its agent and of the one back. -/
structure Assignment where
  spec : SubtaskSpec
  agents : AgentRegistry
  tasks : SnapshotTable AgentTask := .empty "agent_tasks"
  runtimeTasks : List String := []
  arrival : Arrival
  request : Postmark
  answer : Postmark

/-- `AgentManager.submit`. -/
def Assignment.submit (assignment : Assignment) : Except Error AgentTask := do
  let (_, _, record) ← Multi.submit assignment.agents assignment.tasks assignment.runtimeTasks
    assignment.spec assignment.arrival
  return record

/-- Outcome of one coordinated run. -/
structure Coordination where
  correlationId : String
  results : Dict String (Option ExecutionResult) := .empty
  verified : Dict String Bool := .empty

namespace Coordination

/-- Agent ids whose results executed and verified. -/
def succeeded (coordination : Coordination) : List String :=
  (coordination.verified.entries.filter fun entry => entry.2).map Prod.fst

/-- Agent ids missing either execution or verification. -/
def failed (coordination : Coordination) : List String :=
  (coordination.results.entries.map Prod.fst).filter fun agentId =>
    !coordination.succeeded.contains agentId

/-- `results[agent] = execution` and `verified[agent] = verified`. -/
def note (coordination : Coordination) (agentId : String)
    (execution : Option ExecutionResult) (verified : Bool) : Coordination :=
  { coordination with
    results := coordination.results.set agentId execution
    verified := coordination.verified.set agentId verified }

end Coordination

/-- What the coordinator sends and publishes. -/
structure Traffic (Store : Type) where
  messages : MessageBus Store
  events : Option (List Event) := none

/-- The verifier is given the task and its tool results. -/
structure Coordinator (Store : Type) where
  externals : BusExternals Store
  verifier : Option (String → List ToolResult → Except Error VerificationStatus) := none

/-- `execution is not None and execution.status is OverallStatus.COMPLETED`. -/
def completes (execution : Option ExecutionResult) : Bool :=
  execution.any fun execution => execution.status = .completed

namespace Coordinator

variable {Store : Type} (coordinator : Coordinator Store)

/-- `self._messages.register`. -/
def register (agentId : String) : EStateM Error (Traffic Store) PUnit :=
  modify fun traffic => { traffic with messages := traffic.messages.register agentId }

/-- `self._messages.send`. -/
def send (postmark : Postmark) (message : AgentMessage) :
    EStateM Error (Traffic Store) AgentMessage := fun traffic =>
  match traffic.messages.send coordinator.externals postmark.clock message with
  | (.ok held, messages) => .ok held { traffic with messages }
  | (.error error, messages) => .error error { traffic with messages }

/-- `self._messages.handoff`. -/
def handoff (postmark : Postmark) (sender recipient taskId resultSummary correlationId : String) :
    EStateM Error (Traffic Store) AgentMessage := do
  let message ← coordinator.send postmark {
    id := postmark.id
    createdAt := postmark.createdAt
    updatedAt := postmark.createdAt
    sender
    recipient
    taskId
    messageType := .handoff
    payload := [("result", .str resultSummary)]
    correlationId := if correlationId = "" then taskId else correlationId }
  modify fun traffic => { traffic with
    messages := traffic.messages.emit .agentHandoff taskId
      [("message_id", .str message.id), ("sender", .str sender), ("recipient", .str recipient)] }
  return message

/-- `_emit`. -/
def emit (eventType : EventType) (taskId : String) (payload : List (String × Json)) :
    EStateM Error (Traffic Store) PUnit :=
  modify fun traffic => { traffic with
    events := traffic.events.map fun events =>
      events ++ [{ eventType := eventType, taskId := taskId, payload := payload }] }

/-- `_verify_child`. -/
def verifyChild (taskId : String) (execution : ExecutionResult) : Except Error Bool :=
  match coordinator.verifier with
  | none => .ok true
  | some verify => do
      let status ← verify taskId execution.allToolResults
      return status == .passed

/-- `ok and self._verify_child(task_id, execution)`. -/
def verifies (taskId : String) (execution : Option ExecutionResult) : Except Error Bool :=
  match execution with
  | none => .ok false
  | some execution =>
      if execution.status = .completed then coordinator.verifyChild taskId execution
      else .ok false

/-- A subtask is submitted and its agent is told. -/
def request (supervisorId correlationId : String) (assignment : Assignment) :
    EStateM Error (Traffic Store) AgentTask := do
  let record ← MonadExcept.ofExcept assignment.submit
  let _ ← coordinator.send assignment.request {
    id := assignment.request.id
    createdAt := assignment.request.createdAt
    updatedAt := assignment.request.createdAt
    sender := supervisorId
    recipient := assignment.spec.agentId
    taskId := record.taskId
    messageType := .taskRequest
    payload := [("goal", .str assignment.spec.goal)]
    correlationId }
  emit .agentTaskRequested record.taskId [("agent_id", .str assignment.spec.agentId)]
  return record

/-- What has become of a record is answered, verified and noted. -/
def fanIn (supervisorId correlationId : String) (executions : Dict String ExecutionResult)
    (coordination : Coordination) (entry : AgentTask × Assignment) :
    EStateM Error (Traffic Store) Coordination := do
  let record := entry.1
  let answer := entry.2.answer
  let execution := executions.get record.id
  let ok := completes execution
  let _ ← coordinator.send answer {
    id := answer.id
    createdAt := answer.createdAt
    updatedAt := answer.createdAt
    sender := record.ownerAgent
    recipient := supervisorId
    taskId := record.taskId
    messageType := .taskResult
    payload := [("success", .bool ok),
      ("succeeded", .arr (((execution.map ExecutionResult.succeeded).getD []).map Json.str))]
    correlationId }
  emit .agentTaskResult record.taskId
    [("agent_id", .str record.ownerAgent), ("success", .bool ok)]
  let verified ← MonadExcept.ofExcept (coordinator.verifies record.taskId execution)
  return coordination.note record.ownerAgent execution verified

/-- `runAll` is what `run_all` ends with for these records, and `timedOut` whether its deadline
has fired by then. -/
def fanOut (supervisorId : String) (assignments : List Assignment) (correlationId : String)
    (runAll : List String → Except Error (Dict String ExecutionResult)) (timedOut : Bool) :
    EStateM Error (Traffic Store) Coordination := do
  register supervisorId
  let records ← assignments.mapM (coordinator.request supervisorId correlationId)
  let executions ← MonadExcept.ofExcept (runAll (records.map AgentTask.id))
  let coordination ← (records.zip assignments).foldlM
    (coordinator.fanIn supervisorId correlationId executions) { correlationId }
  if timedOut then
    emit .agentTaskResult "" [("supervisor", .str supervisorId),
      ("detail", .str "fan-out deadline fired; partial results")]
  return coordination

/-- The loop of `chain`, which ends behind a step that is not completed. -/
def chainLoop (supervisorId correlationId : String)
    (runTask : String → Except Error ExecutionResult) :
    List Assignment → Coordination → String → EStateM Error (Traffic Store) Coordination
  | [], coordination, _ => return coordination
  | assignment :: rest, coordination, previousSummary => do
      let record ← MonadExcept.ofExcept assignment.submit
      if previousSummary ≠ "" then
        let _ ← coordinator.handoff assignment.request supervisorId assignment.spec.agentId
          record.taskId previousSummary correlationId
      let execution ← MonadExcept.ofExcept (runTask record.id)
      let verified ← MonadExcept.ofExcept (coordinator.verifies record.taskId (some execution))
      let coordination := coordination.note assignment.spec.agentId (some execution) verified
      if completes (some execution) then
        chainLoop supervisorId correlationId runTask rest coordination
          (assignment.spec.agentId ++ ": " ++ toString execution.succeeded.length ++
            " steps succeeded")
      else return coordination

/-- `runTask` is what `run_task` ends with for a record. -/
def chain (supervisorId : String) (assignments : List Assignment) (correlationId : String)
    (runTask : String → Except Error ExecutionResult) :
    EStateM Error (Traffic Store) Coordination := do
  register supervisorId
  coordinator.chainLoop supervisorId correlationId runTask assignments { correlationId } ""

end Coordinator

end Raphael.Agent.Multi
