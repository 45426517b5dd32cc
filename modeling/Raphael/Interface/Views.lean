import Raphael.Core.Enums
import Raphael.Core.Errors
import Raphael.Core.EventStore
import Raphael.Foundation.SlotTable

/-! # The event adapter

`EventAdapter` folds runtime events into the views of the tasks. A view is held under its
own id, which is not repeated in it, and a duration is in the unit of the clock. -/

namespace Raphael.Interface.Views

open Core Foundation

structure StepView where
  label : String := ""
  state : StepState := .pending
  dependencies : List String := []
  deriving DecidableEq

inductive ToolState
  | requested
  | running
  | completed
  | failed
  | denied
  deriving DecidableEq

structure ToolActivity where
  tool : String := ""
  state : ToolState := .requested
  duration : Option Int := none
  deriving DecidableEq

structure PermissionView where
  tool : String := ""
  reason : String := ""
  decided : Bool := false
  granted : Bool := false
  deriving DecidableEq

inductive AgentPhase
  | ready
  | running
  | completed
  | failed
  deriving DecidableEq

structure AgentView where
  status : AgentPhase := .ready
  taskId : String := ""
  deriving DecidableEq

inductive VerificationPhase
  | pending
  | running
  | passed
  | failed
  | inconclusive
  | error
  deriving DecidableEq

@[ext]
structure TaskView where
  state : TaskState := .created
  steps : String → Option StepView := fun _ => none
  agents : String → Option AgentView := fun _ => none
  tools : String → Option ToolActivity := fun _ => none
  permissions : String → Option PermissionView := fun _ => none
  verification : VerificationPhase := .pending
  recovery : String := ""

/-- The calls that are running, with the times they were started at. -/
abbrev ToolClock := String → Option Int

/-- How long a call has run. -/
def ToolClock.elapsed (clock : ToolClock) (callId : String) (now : Int) : Option Int :=
  (clock callId).map fun started => max 0 (now - started)

structure EventAdapter where
  tasks : String → Option TaskView := fun _ => none
  clocks : String → Option ToolClock := fun _ => none

/-- What `note_step_deps` is called with. -/
structure StepNote where
  taskId : String
  stepId : String
  dependencies : List String
  label : String := ""

/-- What is attached to the step. -/
def StepNote.describe (note : StepNote) (node : StepView) : StepView :=
  { node with
    dependencies := note.dependencies
    label := if note.label = "" then node.label else note.label }

abbrev Fields := List (String × Json)

/-- `str(payload.get(key, default))`. -/
def fieldText (payload : Fields) (key default : String) : String :=
  ((Json.lookup key payload).map Json.text).getD default

def stepIdOf (payload : Fields) : String := fieldText payload "step_id" ""

def callIdOf (payload : Fields) : String := fieldText payload "call_id" ""

def agentIdOf (payload : Fields) : String := fieldText payload "agent_id" ""

def toolOf (payload : Fields) : String := fieldText payload "tool" ""

namespace EventAdapter

/-! ## Plans -/

/-- What `enumerate` goes through. -/
def iterated : Json → Except Error (List Json)
  | .arr items => .ok items
  | .obj fields => .ok (fields.map fun field => .str field.1)
  | .str text => .ok (text.toList.map fun character => .str character.toString)
  | value => .error (.other ("'" ++ value.typeName ++ "' object is not iterable"))

/-- The id of a planned step. A `StepView` takes no other id than a text. -/
def plannedId (index : Nat) : Json → Except Error String
  | .obj fields =>
      match Json.lookup "id" fields with
      | none => .ok ("step-" ++ toString index)
      | some (.str id) => .ok id
      | some _ => .error (.other "step_id: Input should be a valid string")
  | step => .ok step.text

/-- The steps that are planned already stay when a later one raises. -/
def planFrom (steps : String → Option StepView) :
    Nat → List Json → Except Error Unit × (String → Option StepView)
  | _, [] => (.ok (), steps)
  | index, step :: rest =>
      match plannedId index step with
      | .error error => (.error error, steps)
      | .ok id => planFrom (Function.update steps id (some { label := id })) (index + 1) rest

/-- The branch of `PLAN_CREATED`. -/
def plan (steps : String → Option StepView) (payload : Fields) :
    Except Error Unit × (String → Option StepView) :=
  match iterated ((Json.lookup "steps" payload).getD (.arr [])) with
  | .error error => (.error error, steps)
  | .ok items => planFrom steps 0 items

end EventAdapter

/-! ## One event -/

namespace TaskView

/-- `_step`, and the state that the step is given. -/
def step (view : TaskView) (payload : Fields) (state : StepState) : TaskView :=
  { view with
    steps := amendSlot view.steps (stepIdOf payload) {} fun node => { node with state } }

/-- `_tool`, and what is changed of the call. -/
def tool (view : TaskView) (payload : Fields) (change : ToolActivity → ToolActivity) :
    TaskView :=
  { view with tools := amendSlot view.tools (callIdOf payload) {} change }

/-- `_pending_permission`, and what is changed of the entry. -/
def pendingPermission (view : TaskView) (payload : Fields)
    (change : PermissionView → PermissionView) : TaskView :=
  { view with
    permissions := amendSlot view.permissions (callIdOf payload)
      { tool := toolOf payload } change }

/-- `_resolve_permission`. -/
def resolvePermission (view : TaskView) (payload : Fields) (granted : Bool) : TaskView :=
  { view with
    permissions := reviseSlot view.permissions (callIdOf payload) fun entry =>
      if entry.decided then entry else { entry with decided := true, granted } }

/-- The branch of `TOOL_REQUESTED`. -/
def requestTool (view : TaskView) (payload : Fields) : TaskView :=
  let requested := { view with
    tools := amendSlot view.tools (callIdOf payload) { tool := toolOf payload } id }
  requested.pendingPermission payload id

/-- The branches of `TOOL_COMPLETED` and `TOOL_FAILED`. -/
def endTool (view : TaskView) (payload : Fields) (state : ToolState)
    (duration : Option Int) : TaskView :=
  (view.tool payload fun activity => { activity with state, duration }).resolvePermission
    payload true

/-- The branch of `PERMISSION_DENIED`. -/
def denyPermission (view : TaskView) (payload : Fields) : TaskView :=
  let denied := view.pendingPermission payload fun entry =>
    { entry with
      decided := true
      granted := false
      reason := fieldText payload "reason" "" }
  { denied with
    tools := reviseSlot denied.tools (callIdOf payload) fun activity =>
      { activity with state := .denied } }

/-- The branch of `GRAPH_STARTED`. -/
def startGraph (view : TaskView) : TaskView :=
  { view with
    state := if view.state ∈ [.completed, .failed, .cancelled] then view.state
      else .executing }

/-- The branch of `GRAPH_COMPLETED`. -/
def completeGraph (view : TaskView) : TaskView :=
  { view with
    state := if view.state ∈ [.failed, .cancelled, .recovering] then view.state
      else .completed }

/-- The branch of `AGENT_STARTED`. -/
def startAgent (view : TaskView) (taskId : String) (payload : Fields) : TaskView :=
  { view with
    agents := if agentIdOf payload = "" then view.agents
      else amendSlot view.agents (agentIdOf payload) {} fun agent =>
        { agent with status := .running, taskId } }

/-- The branch of `AGENT_COMPLETED`. -/
def completeAgent (view : TaskView) (payload : Fields) : TaskView :=
  let success := ((Json.lookup "success" payload).map Json.truthy).getD false
  { view with
    agents := if agentIdOf payload = "" then view.agents
      else reviseSlot view.agents (agentIdOf payload) fun agent =>
        { agent with status := if success then .completed else .failed } }

end TaskView

namespace EventAdapter

/-- The branches of `ingest`, on the view and the clock of the event's task. -/
def fold (event : Event) (view : TaskView) (clock : ToolClock) :
    Except Error Unit × TaskView × ToolClock :=
  let payload := event.payload
  let callId := callIdOf payload
  match event.eventType with
  | .taskCreated => (.ok (), { view with state := .created }, clock)
  | .planCreated =>
      let planned := plan view.steps payload
      (planned.1, { view with steps := planned.2 }, clock)
  | .graphStarted => (.ok (), view.startGraph, clock)
  | .stepReady => (.ok (), view.step payload .ready, clock)
  | .stepStarted => (.ok (), view.step payload .running, clock)
  | .stepCompleted => (.ok (), view.step payload .succeeded, clock)
  | .stepFailed => (.ok (), { view.step payload .failed with state := .failed }, clock)
  | .stepTimedOut => (.ok (), { view.step payload .timedOut with state := .failed }, clock)
  | .stepCancelled => (.ok (), view.step payload .cancelled, clock)
  | .stepSkipped => (.ok (), view.step payload .skipped, clock)
  | .graphCompleted => (.ok (), view.completeGraph, clock)
  | .toolRequested => (.ok (), view.requestTool payload, clock)
  | .toolStarted =>
      (.ok (), view.tool payload fun activity => { activity with state := .running },
        amendSlot clock callId event.createdAt id)
  | .toolCompleted =>
      (.ok (), view.endTool payload .completed (clock.elapsed callId event.createdAt),
        Function.update clock callId none)
  | .toolFailed =>
      (.ok (), view.endTool payload .failed (clock.elapsed callId event.createdAt),
        Function.update clock callId none)
  | .permissionDenied => (.ok (), view.denyPermission payload, clock)
  | .permissionGranted =>
      (.ok (), view.pendingPermission payload fun entry =>
        { entry with decided := true, granted := true }, clock)
  | .verificationStarted => (.ok (), { view with verification := .running }, clock)
  | .verificationPassed => (.ok (), { view with verification := .passed }, clock)
  | .verificationFailed => (.ok (), { view with verification := .failed }, clock)
  | .verificationInconclusive => (.ok (), { view with verification := .inconclusive }, clock)
  | .verificationError => (.ok (), { view with verification := .error }, clock)
  | .recoveryStarted =>
      (.ok (), { view with recovery := "RUNNING", state := .recovering }, clock)
  | .recoveryDecided =>
      (.ok (), { view with recovery := fieldText payload "action" "DECIDED" }, clock)
  | .recoveryExhausted => (.ok (), { view with recovery := "EXHAUSTED" }, clock)
  | .agentStarted => (.ok (), view.startAgent event.taskId payload, clock)
  | .agentCompleted => (.ok (), view.completeAgent payload, clock)
  | _ => (.ok (), view, clock)

def ingest (adapter : EventAdapter) (event : Event) : Except Error Unit × EventAdapter :=
  if event.taskId = "" then (.ok (), adapter)
  else
    let folded := fold event ((adapter.tasks event.taskId).getD {})
      ((adapter.clocks event.taskId).getD fun _ => none)
    (folded.1, {
      tasks := Function.update adapter.tasks event.taskId (some folded.2.1)
      clocks := Function.update adapter.clocks event.taskId (some folded.2.2) })

/-- The events one after the other, up to one that raises. -/
def ingestAll : List Event → EventAdapter → Except Error Unit × EventAdapter
  | [], adapter => (.ok (), adapter)
  | event :: rest, adapter =>
      match adapter.ingest event with
      | (.error error, adapter) => (.error error, adapter)
      | (.ok (), adapter) => ingestAll rest adapter

/-- The loop of `ingest_store`. -/
def ingestNumbered (lastSeen : Int) :
    Numbered → Int → EventAdapter → Except Error Int × EventAdapter
  | [], mark, adapter => (.ok mark, adapter)
  | (seq, event) :: rest, mark, adapter =>
      if seq ≤ lastSeen then ingestNumbered lastSeen rest mark adapter
      else
        match adapter.ingest event with
        | (.error error, adapter) => (.error error, adapter)
        | (.ok (), adapter) => ingestNumbered lastSeen rest seq adapter

def ingestStore (adapter : EventAdapter) (events : List Event) (lastSeen : Int := -1) :
    Except Error Int × EventAdapter :=
  ingestNumbered lastSeen (enumerate events) lastSeen adapter

def snapshot (adapter : EventAdapter) (taskId : String) : Option TaskView :=
  adapter.tasks taskId

def noteStepDeps (adapter : EventAdapter) (note : StepNote) : EventAdapter :=
  let view := (adapter.tasks note.taskId).getD {}
  { adapter with
    tasks := Function.update adapter.tasks note.taskId (some { view with
      steps := amendSlot view.steps note.stepId {} note.describe }) }

end EventAdapter

end Raphael.Interface.Views
