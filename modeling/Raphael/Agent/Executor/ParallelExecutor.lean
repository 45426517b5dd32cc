import Raphael.Agent.Executor.TaskGraph
import Raphael.Core.Events

/-! # The parallel executor

One call of `execute_graph`. The main loop is a function of what each turn finds:
the readings of the cancellation token and the futures that are done. What a step's
thread meets, its tool replies and its token's readings, is fixed for each step,
since a call starts a step once. -/

namespace Raphael.Agent.Executor

open Core

inductive FailurePolicy
  | failFast
  | continueIndependent
  deriving DecidableEq, Repr

inductive OverallStatus
  | completed
  | failed
  | cancelled
  deriving DecidableEq, Repr

def OverallStatus.value : OverallStatus → String
  | .completed => "COMPLETED"
  | .failed => "FAILED"
  | .cancelled => "CANCELLED"

structure ExecutionResult where
  taskId : String := ""
  status : OverallStatus := .failed
  states : List (String × StepState) := []
  succeeded : List String := []
  failed : List String := []
  cancelled : List String := []
  timedOut : List String := []
  skipped : List String := []
  results : List (String × List ToolResult) := []
  durationS : String := "0.0"
  errors : List String := []

namespace ExecutionResult

/-- `results.get(step_id, [])`. -/
def resultsOf (result : ExecutionResult) (id : String) : List ToolResult :=
  ((result.results.find? (·.1 = id)).map (·.2)).getD []

def allToolResults (result : ExecutionResult) : List ToolResult :=
  result.states.flatMap fun entry => result.resultsOf entry.1

end ExecutionResult

/-- The executor's configuration; the constructor refuses less than one slot. -/
structure ParallelExecutor where
  maxConcurrency : Nat := 4
  maxConcurrency_pos : 1 ≤ maxConcurrency := by decide
  failurePolicy : FailurePolicy := .failFast
  defaultStepTimeoutS : String := "60.0"
  stepTimeouts : List (String × String) := []

/-- What comes back from one tool of a step: `build_call` or the runner raises, or the
runner returns a result. -/
inductive ToolReply
  | notBuilt (message : String)
  | raised (message : String)
  | returned (result : ToolResult)

/-- What one turn of the main loop finds. -/
structure Turn where
  cancelledAtHead : Bool := false
  /-- The reading that only chooses the reason for stopping. -/
  cancelledAtStop : Bool := false
  cancelledAtSubmit : Bool := false
  /-- The futures `wait` reports, by step, in the order they are handled. -/
  completed : List String := []

/-- What an execution cannot decide itself. -/
structure World where
  turn : Nat → Turn
  reply : String → Nat → ToolReply
  callId : String → Nat → String := fun id position => id ++ toString position
  cancelledBefore : String → Nat → Bool := fun _ _ => false
  cancelledAfter : String → Bool := fun _ => false
  deadlineReached : String → Bool := fun _ => false
  startedAt : String → String := fun _ => ""
  completedAt : String → String := fun _ => ""
  endedAt : String → String := fun _ => ""
  cancelledAtEnd : Bool := false
  durationS : String := "0.0"

/-- One call of `execute_graph`. -/
structure Execution where
  executor : ParallelExecutor
  taskId : String
  graph : TaskGraph
  arguments : List (String × Arguments) := []
  world : World

/-- What the function of a step's thread returns, and the calls it made. -/
structure NodeReturn where
  ok : Bool
  results : List ToolResult
  error : String
  calls : List ToolCall

/-- The state of the main loop. `calls` logs the tool calls of the steps that were
collected. -/
structure Loop extends GraphState where
  inFlight : List String := []
  halting : Bool := false
  broke : Bool := false
  events : List Event := []
  /-- What the context's tool results are extended with. -/
  contextResults : List ToolResult := []
  calls : List (String × ToolCall) := []
  /-- `context.metadata["graph"]` as last saved. -/
  saved : Snapshot := []

namespace Loop

/-- The graph's own methods, seen from the loop. -/
def withGraph (loop : Loop) (state : GraphState) : Loop := { loop with toGraphState := state }

def transition (loop : Loop) (id : String) (target : StepState) : Except Error Loop := do
  return loop.withGraph (← loop.toGraphState.transition id target)

def amend (loop : Loop) (id : String) (change : GraphNode → GraphNode) : Loop :=
  loop.withGraph (loop.toGraphState.amend id change)

end Loop

namespace Execution

variable (run : Execution)

def emit (loop : Loop) (eventType : EventType) (payload : List (String × Json)) : Loop :=
  { loop with
    events := loop.events ++ [{
      eventType
      taskId := run.taskId
      payload }] }

def persist (loop : Loop) : Loop :=
  { loop with saved := loop.toGraphState.snapshot run.graph }

/-! ## A step's thread -/

/-- The step's own arguments, under those given for it in the call. -/
def mergedArguments (step : PlanStep) : Arguments :=
  Json.merge step.arguments (((run.arguments.find? (·.1 = step.id)).map (·.2)).getD [])

/-- The tools of a step from a position on. -/
def runTools (step : PlanStep) : Nat → List String → List ToolResult → List ToolCall → NodeReturn
  | _, [], results, calls =>
      if run.world.cancelledAfter step.id then
        ⟨false, results, "step deadline/cancellation reached after tool execution", calls⟩
      else ⟨true, results, "", calls⟩
  | position, tool :: rest, results, calls =>
      if run.world.cancelledBefore step.id position then
        ⟨false, results, "step deadline/cancellation reached before tool execution", calls⟩
      else
        let call : ToolCall := {
          id := run.world.callId step.id position
          taskId := run.taskId
          tool
          arguments := run.mergedArguments step }
        match run.world.reply step.id position with
        | .notBuilt message => ⟨false, [], "executor error: " ++ message, calls⟩
        | .raised message => ⟨false, [], "executor error: " ++ message, calls ++ [call]⟩
        | .returned result =>
            if result.success then
              runTools step (position + 1) rest (results ++ [result]) (calls ++ [call])
            else
              let error := match result.error with
                | none | some "" => tool ++ " failed"
                | some message => message
              ⟨false, results ++ [result], error, calls ++ [call]⟩

def runNode (step : PlanStep) : NodeReturn := run.runTools step 0 step.tools [] []

/-! ## The phases of a turn -/

def stopReason (turn : Turn) : String :=
  if turn.cancelledAtStop then "cancel requested" else "fail-fast halt"

def stop (turn : Turn) (loop : Loop) (step : PlanStep) : Except Error Loop :=
  if loop.table step.id = .pending ∨ loop.table step.id = .ready then do
    let loop ← loop.transition step.id .cancelled
    let loop := loop.amend step.id fun node =>
      { node with error := "never started: " ++ stopReason turn }
    return run.emit loop .stepCancelled
      [("step_id", .str step.id), ("reason", .str (stopReason turn))]
  else .ok loop

def stopUnstarted (turn : Turn) (loop : Loop) : Except Error Loop :=
  run.graph.steps.foldlM (run.stop turn) loop

def stepTimeout (id : String) : String :=
  ((run.executor.stepTimeouts.find? (·.1 = id)).map (·.2)).getD
    run.executor.defaultStepTimeoutS

/-- What starting a step writes beside its state. -/
def attempt (id : String) (node : GraphNode) : GraphNode :=
  { node with
    attempts := node.attempts + 1
    startedAt := some (run.world.startedAt id)
    timeoutS := some (run.stepTimeout id) }

/-- Start one step. -/
def submit (loop : Loop) (step : PlanStep) : Except Error Loop := do
  let loop ← loop.transition step.id .ready
  let loop := run.emit loop .stepReady [("step_id", .str step.id)]
  let loop ← loop.transition step.id .running
  let loop := loop.amend step.id (run.attempt step.id)
  let loop := run.emit loop .stepStarted [("step_id", .str step.id)]
  return { loop with inFlight := loop.inFlight ++ [step.id] }

/-- Start the listed steps while a slot is free. -/
def submitAll : List PlanStep → Loop → Except Error Loop
  | [], loop => .ok loop
  | step :: rest, loop =>
      if run.executor.maxConcurrency ≤ loop.inFlight.length then .ok loop
      else do
        let loop ← run.submit loop step
        submitAll rest loop

def submitReady (loop : Loop) : Except Error Loop :=
  run.submitAll (loop.toGraphState.ready run.graph) loop

/-- The state a collected step takes, the error it is given, and the event. -/
def settlement (step : PlanStep) : StepState × String × EventType × List (String × Json) :=
  let returned := run.runNode step
  if run.world.deadlineReached step.id && !returned.ok then
    (.timedOut, if returned.error = "" then "step deadline exceeded" else returned.error,
      .stepTimedOut,
      [("step_id", .str step.id), ("timeout_s", .float (run.stepTimeout step.id))])
  else if returned.ok then
    (.succeeded, "", .stepCompleted, [("step_id", .str step.id)])
  else
    (.failed, returned.error, .stepFailed,
      [("step_id", .str step.id), ("error", .str returned.error)])

/-- What a collected step keeps of its thread's return. -/
def record (returned : NodeReturn) (id : String) (node : GraphNode) : GraphNode :=
  { node with
    toolResults := returned.results
    result := returned.results.getLast?
    completedAt := some (run.world.completedAt id) }

/-- Collect one future. A step that ends well keeps the error it had. -/
def settle (loop : Loop) (step : PlanStep) : Except Error Loop :=
  let loop := { loop with inFlight := loop.inFlight.erase step.id }
  if loop.table step.id ≠ .running then .ok loop
  else do
    let returned := run.runNode step
    let (target, error, eventType, payload) := run.settlement step
    let loop := loop.amend step.id (run.record returned step.id)
    let loop ← loop.transition step.id target
    let loop := loop.amend step.id fun node =>
      { node with error := if target = .succeeded then node.error else error }
    let loop := run.emit loop eventType payload
    return { loop with
      contextResults := loop.contextResults ++ returned.results
      calls := loop.calls ++ returned.calls.map (step.id, ·) }

/-- One future that `wait` reported: it is one of those in flight. -/
def collect (loop : Loop) (id : String) : Except Error Loop :=
  match run.graph.steps.find? (·.id = id) with
  | some step => if id ∈ loop.inFlight then run.settle loop step else .ok loop
  | none => .ok loop

def collectCompleted (turn : Turn) (loop : Loop) : Except Error Loop :=
  turn.completed.foldlM run.collect loop

/-- `mark_unsatisfiable` and an event for each step it skipped. -/
def skipUnsatisfiable (loop : Loop) : Except Error Loop := do
  let (state, skipped) ← loop.toGraphState.markUnsatisfiable run.graph
  return skipped.foldl (fun loop id => run.emit loop .stepSkipped
    [("step_id", .str id), ("error", .str (loop.node id).error)]) (loop.withGraph state)

/-- Skip one stuck step; a transition that is refused is passed over. -/
def drain (loop : Loop) (step : PlanStep) : Loop :=
  match loop.transition step.id .skipped with
  | .error _ => loop
  | .ok loop =>
      run.emit
        (loop.amend step.id fun node =>
          { node with error := "unsatisfiable dependencies; skipped defensively" })
        .stepSkipped [("step_id", .str step.id)]

def stuck (loop : Loop) : List PlanStep :=
  run.graph.steps.filter fun step =>
    loop.table step.id = .pending ∨ loop.table step.id = .ready

/-- Nothing when no step is stuck. -/
def drainStuck (loop : Loop) : Option Loop :=
  if run.stuck loop = [] ∨ loop.done run.graph then none
  else some ((run.stuck loop).foldl run.drain loop)

def firstFailure (loop : Loop) : Bool :=
  run.graph.steps.any fun step =>
    loop.table step.id = .failed ∨ loop.table step.id = .timedOut

/-! ## The main loop -/

def stopPhase (turn : Turn) (loop : Loop) : Except Error Loop :=
  if turn.cancelledAtHead || loop.halting then run.stopUnstarted turn loop else .ok loop

def submitPhase (turn : Turn) (loop : Loop) : Except Error Loop :=
  if !turn.cancelledAtSubmit && !loop.halting then run.submitReady loop else .ok loop

/-- The turn of a loop with nothing in flight. -/
def drainPhase (loop : Loop) : Loop :=
  match run.drainStuck loop with
  | none => { loop with broke := true }
  | some loop => run.persist loop

/-- The turn of a loop with steps in flight. The deadlines it enforces cancel step
tokens, whose readings the world gives. -/
def collectPhase (turn : Turn) (loop : Loop) : Except Error Loop := do
  let loop ← run.collectCompleted turn loop
  let loop ← run.skipUnsatisfiable loop
  let halting := loop.halting ||
    (run.firstFailure loop && run.executor.failurePolicy = .failFast)
  return run.persist { loop with halting }

/-- One turn of the loop. -/
def iterate (turn : Turn) (loop : Loop) : Except Error Loop := do
  let loop ← run.stopPhase turn loop
  let loop ← run.submitPhase turn loop
  if loop.inFlight = [] then return run.drainPhase loop
  else run.collectPhase turn loop

/-- The loop before its first turn, on the given nodes. -/
def start (nodes : String → GraphNode) : Loop :=
  run.persist (run.emit { node := nodes } .graphStarted
    [("steps", .int run.graph.steps.length)])

/-- The loop stands still: its condition failed, or it broke off. -/
def finished (loop : Loop) : Bool := loop.done run.graph || loop.broke

/-- The loop after a number of turns. -/
def after (nodes : String → GraphNode) : Nat → Except Error Loop
  | 0 => .ok (run.start nodes)
  | turns + 1 => do
      let loop ← after nodes turns
      if run.finished loop then return loop
      run.iterate (run.world.turn turns) loop

/-! ## What follows the loop -/

def overallStatus (loop : Loop) : OverallStatus :=
  if run.world.cancelledAtEnd then .cancelled
  else if run.graph.steps.all fun step => loop.table step.id = .succeeded then .completed
  else .failed

/-- The ids of the nodes in a state, in plan order. -/
def bucket (loop : Loop) (state : StepState) : List String :=
  run.graph.ids.filter fun id => loop.table id = state

def aggregate (loop : Loop) (status : OverallStatus) : ExecutionResult where
  taskId := run.taskId
  status := status
  states := run.graph.ids.map fun id => (id, loop.table id)
  succeeded := run.bucket loop .succeeded
  failed := run.bucket loop .failed
  cancelled := run.bucket loop .cancelled
  timedOut := run.bucket loop .timedOut
  skipped := run.bucket loop .skipped
  results := run.graph.ids.map fun id => (id, (loop.node id).toolResults)
  durationS := run.world.durationS
  errors := (run.graph.ids.filter fun id => (loop.node id).error ≠ "").map fun id =>
    id ++ ": " ++ (loop.node id).error

/-- The nodes that have no completion time get one. -/
def stampCompletion (loop : Loop) : Loop :=
  { loop with
    node := fun id =>
      let node := loop.node id
      if id ∈ run.graph.ids then
        { node with completedAt := some (node.completedAt.getD (run.world.endedAt id)) }
      else node }

/-- The end of `execute_graph`: the result, and the loop's state as it is left. -/
def finish (loop : Loop) : ExecutionResult × Loop :=
  let loop := run.stampCompletion loop
  let status := run.overallStatus loop
  let loop := run.emit loop .graphCompleted
    [("status", .str status.value), ("duration_s", .float run.world.durationS)]
  (run.aggregate loop status, run.persist loop)

/-- The check before anything starts: every tool is registered. -/
def checkTools (knownTools : List String) : Except Error Unit :=
  run.graph.steps.forM fun step => step.tools.forM fun tool =>
    if tool ∈ knownTools then .ok ()
    else .error (.planValidation
      ("step " ++ Text.repr step.id ++ " uses unknown tool " ++ Text.repr tool))

end Execution

end Raphael.Agent.Executor
