import Raphael.Agent.Executor.TaskGraph
import Raphael.Core.Conversion

/-! # Saved graphs

`TaskGraph.snapshot` as the JSON it is saved as, and `TaskGraph.restore` of any JSON. -/

namespace Raphael.Agent.Executor

open Core

/-! ## What is saved -/

/-- `model_dump()` of a tool result. -/
def dumpToolResult (result : ToolResult) : Json :=
  .obj [
    ("id", .str result.id),
    ("created_at", .str result.createdAt),
    ("updated_at", .str result.updatedAt),
    ("task_id", .str result.taskId),
    ("tool_call_id", .str result.toolCallId),
    ("success", .bool result.success),
    ("output", result.output),
    ("error", (result.error.map Json.str).getD .null),
    ("exit_code", (result.exitCode.map Json.int).getD .null),
    ("rollback", (result.rollback.map Json.obj).getD .null)]

def nodeFields (node : GraphNode) : List (String × Json) := [
  ("state", .str node.state.value),
  ("attempts", .int node.attempts),
  ("error", .str node.error),
  ("interrupted", .bool node.interrupted),
  ("timeout_s", (node.timeoutS.map Json.float).getD .null),
  ("started_at", (node.startedAt.map Json.str).getD .null),
  ("completed_at", (node.completedAt.map Json.str).getD .null),
  ("result", (node.result.map dumpToolResult).getD .null),
  ("tool_results", .arr (node.toolResults.map dumpToolResult))]

def nodeJson (node : GraphNode) : Json := .obj (nodeFields node)

def GraphState.snapshotJson (graph : TaskGraph) (state : GraphState) : Json :=
  .obj [("nodes", .obj (graph.steps.map fun step =>
    (step.id, nodeJson (state.node step.id))))]

/-! A context is saved with `model_dump_json`, which has `null` for a float that JSON has
no number for. -/

mutual
def throughJson : Json → Json
  | .float text => if Json.nonFinite text then .null else .float text
  | .arr items => .arr (itemsThroughJson items)
  | .obj fields => .obj (fieldsThroughJson fields)
  | value => value

def itemsThroughJson : List Json → List Json
  | [] => []
  | item :: rest => throughJson item :: itemsThroughJson rest

def fieldsThroughJson : List (String × Json) → List (String × Json)
  | [] => []
  | (key, value) :: rest => (key, throughJson value) :: fieldsThroughJson rest
end

/-! ## What is restored -/

/-- The value of a step's entry, when it is a dict. -/
abbrev Saved := List (String × Json)

/-- `StepState(value)`. -/
def stepState : Json → Option StepState
  | .str text =>
      [.pending, .ready, .running, .succeeded, .failed, .cancelled, .skipped, .timedOut].find?
        (·.value = text)
  | _ => none

def Saved.state (saved : Saved) : Json := (Json.lookup "state" saved).getD (.str "PENDING")

/-- The value under a key, `None` when there is none. -/
def Saved.value (saved : Saved) (key : String) : Json := (Json.lookup key saved).getD .null

/-- What the restore reads texts with. Times are given by their ISO texts, and a refusal is
a `ValueError` with a message. -/
structure Readers extends Numerals where
  fromisoformat : String → Except String String
  /-- `ToolResult.model_validate`. -/
  toolResult : Json → Except String ToolResult

/-- The fields of a node, in the order they are assigned. -/
inductive Field
  | attempts
  | error
  | interrupted
  | timeoutS
  | startedAt
  | completedAt
  | result
  | toolResults
  deriving DecidableEq, Repr

def Field.order : List Field :=
  [.attempts, .error, .interrupted, .timeoutS, .startedAt, .completedAt, .result, .toolResults]

namespace Readers

variable (readers : Readers)

def moment : Json → Except Raised String
  | .str text => (readers.fromisoformat text).mapError .valueError
  | _ => .error (.typeError "fromisoformat: argument must be str")

def validate (value : Json) : Except Raised ToolResult :=
  (readers.toolResult value).mapError .valueError

def validateAll (value : Json) : Except Raised (List ToolResult) := do
  let items ← value.items
  items.mapM readers.validate

/-- One assignment of the block, or what its conversion raises. -/
def read (saved : Saved) : Field → Except Raised (GraphNode → GraphNode)
  | .attempts => do
      let attempts ← readers.int ((Json.lookup "attempts" saved).getD (.int 0))
      return fun node => { node with attempts }
  | .error => do
      let error ← ((Json.lookup "error" saved).getD (.str "")).tryText
      return fun node => { node with error }
  | .interrupted =>
      let interrupted := ((Json.lookup "interrupted" saved).getD (.bool false)).truthy
      return fun node => { node with interrupted }
  | .timeoutS =>
      match saved.value "timeout_s" with
      | .null => return fun node => { node with timeoutS := none }
      | timeout => do
          let timeoutS ← readers.float timeout
          return fun node => { node with timeoutS := some timeoutS }
  | .startedAt =>
      if (saved.value "started_at").truthy then do
        let startedAt ← readers.moment (saved.value "started_at")
        return fun node => { node with startedAt := some startedAt }
      else return id
  | .completedAt =>
      if (saved.value "completed_at").truthy then do
        let completedAt ← readers.moment (saved.value "completed_at")
        return fun node => { node with completedAt := some completedAt }
      else return id
  | .result =>
      if (saved.value "result").truthy then do
        let result ← readers.validate (saved.value "result")
        return fun node => { node with result := some result }
      else return id
  | .toolResults => do
      let toolResults ← readers.validateAll
        ((Json.lookup "tool_results" saved).getD (.arr []))
      return fun node => { node with toolResults }

/-- One assignment after another; what is raised leaves the node as it is by then. -/
def assign (saved : Saved) : List Field → GraphNode → Except (Raised × GraphNode) GraphNode
  | [], node => .ok node
  | field :: rest, node =>
      match readers.read saved field with
      | .error raised => .error (raised, node)
      | .ok write => assign saved rest (write node)

/-- The handler of the block: it catches no `OverflowError`. -/
def discard (node : GraphNode) : Raised → Except Raised GraphNode
  | .overflowError message => .error (.overflowError message)
  | .valueError message | .typeError message =>
      .ok { node with
        state := .pending
        interrupted := true
        error := "corrupt saved state discarded: " ++ message }

/-- The block that takes the saved state and fields. -/
def restoreFields (saved : Saved) (state : StepState) (node : GraphNode) :
    Except Raised GraphNode :=
  match readers.assign saved Field.order { node with state } with
  | .ok node => .ok node
  | .error (raised, node) => discard node raised

/-- One turn of the loop, for a node of the graph and a dict. -/
def restoreNode (saved : Saved) (node : GraphNode) : Except Raised GraphNode :=
  match stepState saved.state with
  | none => do
      let text ← (saved.value "state").tryRepr
      return { node with
        error := "unrecognized saved state " ++ text ++ "; reset"
        interrupted := true }
  | some .running =>
      .ok { node with
        interrupted := true
        error := "interrupted by restart; recovery pending (Gate 10)" }
  | some state => readers.restoreFields saved state node

def restoreEntry (graph : TaskGraph) (nodes : String → GraphNode) (entry : String × Json) :
    Except Raised (String → GraphNode) :=
  match entry.2 with
  | .obj saved =>
      if entry.1 ∈ graph.ids then do
        let node ← readers.restoreNode saved (nodes entry.1)
        return Function.update nodes entry.1 node
      else .ok nodes
  | _ => .ok nodes

/-- `snapshot["nodes"]`, empty where it is no dict. -/
def entries (snapshot : Json) : List (String × Json) :=
  match snapshot.get? "nodes" with
  | some (.obj states) => states
  | _ => []

/-- How `restore` ends otherwise. -/
inductive RestoreError
  | plan (error : Error)
  | raised (raised : Raised)

def restore (plan : Plan) (snapshot : Json) :
    Except RestoreError (TaskGraph × (String → GraphNode)) :=
  match TaskGraph.fromPlan plan with
  | .error error => .error (.plan error)
  | .ok graph =>
      match (entries snapshot).foldlM (readers.restoreEntry graph) (fun _ => {}) with
      | .error raised => .error (.raised raised)
      | .ok nodes => .ok (graph, nodes)

end Readers

end Raphael.Agent.Executor
