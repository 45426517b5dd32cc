import Raphael.Agent.Executor.ExecutorSafety
import Raphael.Agent.Planner.PlanValidator
import Raphael.Tools.ToolRunner

/-! # Executions over a tool runner

`execute` of the executor, with the calls of all step threads made by one runner. The
runner takes the calls one at a time, in an order that each execution has of its own.
What the runner and its tools keep outlasts an execution. -/

namespace Raphael.Agent.Executor

open Core
open Agent.Planner
open Security
open Tools

/-- What the runner and its tools keep between calls. -/
structure SharedTools where
  approvals : Option ApprovalStore := none
  ledger : Option ExecutionLedger := none
  seenIds : List String := []
  /-- How often the handler of each tool was invoked. -/
  invoked : String → Nat := fun _ => 0
  executions : Nat := 0

/-- A step id and a position among the tools of the step. -/
abbrev Place := String × Nat

/-- What an execution cannot decide itself. The replies in its world are not used. -/
structure Attempt where
  world : World
  turns : Nat
  /-- The calls in the order in which the runner takes them. -/
  order : List Place
  surroundings : Place → Surroundings

/-- An executor with its runner. A handler may count how often it was invoked, so that
the runner depends on these counts. -/
structure ToolExecutor where
  externals : RunnerExternals
  executor : ParallelExecutor
  runner : (String → Nat) → ToolRunner
  taskId : String
  schedule : SharedTools → Attempt

/-- The arguments of the call as those of each step, `dict[str, dict]`. -/
def stepArguments (arguments : Arguments) : List (String × Arguments) :=
  arguments.filterMap fun entry =>
    match entry.2 with
    | .obj fields => some (entry.1, fields)
    | _ => none

namespace Execution

/-- The call that the thread of a step builds for one of its tools. -/
def callAt (run : Execution) (step : PlanStep) (position : Nat) (tool : String) : ToolCall where
  id := run.world.callId step.id position
  taskId := run.taskId
  tool := tool
  arguments := run.mergedArguments step

/-- The step of the graph and its tool at a place. -/
def toolAt (run : Execution) (place : Place) : Option (PlanStep × String) :=
  (run.graph.steps.find? (·.id = place.1)).bind fun step =>
    (step.tools[place.2]?).map (step, ·)

/-- The same execution, with replies to its calls. A call that has none has failed. -/
def withReplies (run : Execution) (replies : List (Place × ToolReply)) : Execution :=
  { run with
    world := { run.world with
      reply := fun id position =>
        ((replies.find? (·.1 = (id, position))).map (·.2)).getD (.returned {}) } }

end Execution

namespace ToolExecutor

variable (tools : ToolExecutor)

def knownTools (shared : SharedTools) : List String :=
  (tools.runner shared.invoked).registry.entries.map (·.tool.name)

/-- The state in which the runner starts on a call. -/
def opening (call : ToolCall) (shared : SharedTools) : RunState where
  call := call
  approvals := shared.approvals
  ledger := shared.ledger
  seenIds := shared.seenIds

/-- What a call leaves behind. -/
def leaving (shared : SharedTools) (state : RunState) : SharedTools :=
  { shared with
    approvals := state.approvals
    ledger := state.ledger
    seenIds := state.seenIds
    invoked := fun name =>
      shared.invoked name + state.invocations.countP (·.tool.name = name) }

/-- `build_call` of the registry, and `run` of the runner. -/
def callTool (surroundings : Surroundings) (call : ToolCall) (shared : SharedTools) :
    ToolReply × SharedTools :=
  let runner := tools.runner shared.invoked
  match runner.registry.get call.tool with
  | none => (.notBuilt ("unknown tool " ++ Text.repr call.tool), shared)
  | some _ =>
      let (answer, state) := ToolRunner.run tools.externals surroundings runner
        (opening call shared)
      (match answer with
        | .ok result => .returned result
        | .error error => .raised error.text,
        leaving shared state)

/-- The calls at these places, one after the other. -/
def serve (run : Execution) (attempt : Attempt) :
    List Place → SharedTools → List (Place × ToolReply) × SharedTools
  | [], shared => ([], shared)
  | place :: rest, shared =>
      match run.toolAt place with
      | none => serve run attempt rest shared
      | some (step, tool) =>
          let (reply, shared) := tools.callTool (attempt.surroundings place)
            (run.callAt step place.2 tool) shared
          let (replies, shared) := serve run attempt rest shared
          ((place, reply) :: replies, shared)

/-- The call of `execute_graph`, before there are replies. -/
def unanswered (arguments : Arguments) (graph : TaskGraph) (attempt : Attempt) :
    Execution where
  executor := tools.executor
  taskId := tools.taskId
  graph := graph
  arguments := stepArguments arguments
  world := attempt.world

/-- The plan is validated, and made into a graph. -/
def prepare (plan : Plan) (shared : SharedTools) : Except Error TaskGraph := do
  let validated ← PlanValidator.validate { knownTools := tools.knownTools shared } plan
  TaskGraph.fromPlan validated

/-- The calls of an execution, and the call of `execute_graph` that has the replies. -/
def answered (arguments : Arguments) (graph : TaskGraph) (shared : SharedTools) :
    Execution × SharedTools :=
  let attempt := tools.schedule shared
  let run := tools.unanswered arguments graph attempt
  let (replies, left) := tools.serve run attempt attempt.order shared
  (run.withReplies replies, { left with executions := left.executions + 1 })

def executeGraph (arguments : Arguments) (graph : TaskGraph) (shared : SharedTools) :
    Except Error ExecutionResult × SharedTools :=
  let (run, left) := tools.answered arguments graph shared
  match run.checkTools (tools.knownTools shared) with
  | .error error => (.error error, shared)
  | .ok () =>
      match run.after Execution.freshNodes (tools.schedule shared).turns with
      | .error error => (.error error, left)
      | .ok loop => (.ok (run.finish loop).1, left)

def execute (plan : Plan) (arguments : Arguments) (shared : SharedTools) :
    Except Error ExecutionResult × SharedTools :=
  match tools.prepare plan shared with
  | .error error => (.error error, shared)
  | .ok graph => tools.executeGraph arguments graph shared

end ToolExecutor

end Raphael.Agent.Executor
