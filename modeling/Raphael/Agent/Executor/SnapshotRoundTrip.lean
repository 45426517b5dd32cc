import Raphael.Agent.Executor.ExecutorSafety
import Raphael.Agent.Executor.GraphActs
import Raphael.Agent.Executor.RestoredGraph

/-! # Saving and restoring a graph

What comes back of a graph that was saved: every node that does not run, and of a running
one neither its attempts nor its timeout. JSON itself keeps every value but the floats it
has no number for. -/

namespace Raphael.Agent.Executor

open Core

/-! ## Through JSON -/

/-! A value with no infinite float and no NaN. -/

mutual
def finite : Json → Bool
  | .float text => !Json.nonFinite text
  | .arr items => finiteItems items
  | .obj fields => finiteFields fields
  | _ => true

def finiteItems : List Json → Bool
  | [] => true
  | item :: rest => finite item && finiteItems rest

def finiteFields : List (String × Json) → Bool
  | [] => true
  | (_, value) :: rest => finite value && finiteFields rest
end

mutual
theorem throughJson_eq_iff (value : Json) : throughJson value = value ↔ finite value = true := by
  cases value with
  | float text =>
      unfold throughJson finite
      cases Json.nonFinite text <;> simp
  | arr items =>
      unfold throughJson finite
      rw [Json.arr.injEq, itemsThroughJson_eq_iff items]
  | obj fields =>
      unfold throughJson finite
      rw [Json.obj.injEq, fieldsThroughJson_eq_iff fields]
  | null => exact iff_of_true rfl rfl
  | bool value => exact iff_of_true rfl rfl
  | int value => exact iff_of_true rfl rfl
  | str text => exact iff_of_true rfl rfl

theorem itemsThroughJson_eq_iff (items : List Json) :
    itemsThroughJson items = items ↔ finiteItems items = true := by
  cases items with
  | nil => exact iff_of_true rfl rfl
  | cons item rest =>
      unfold itemsThroughJson finiteItems
      rw [List.cons.injEq, throughJson_eq_iff item, itemsThroughJson_eq_iff rest,
        Bool.and_eq_true]

theorem fieldsThroughJson_eq_iff (fields : List (String × Json)) :
    fieldsThroughJson fields = fields ↔ finiteFields fields = true := by
  cases fields with
  | nil => exact iff_of_true rfl rfl
  | cons field rest =>
      rcases field with ⟨key, value⟩
      unfold fieldsThroughJson finiteFields
      rw [List.cons.injEq, Prod.mk.injEq, throughJson_eq_iff value,
        fieldsThroughJson_eq_iff rest, Bool.and_eq_true]
      simp
end

/-- What JSON keeps of a tool result. -/
def storedResult (result : ToolResult) : ToolResult :=
  { result with
    output := throughJson result.output
    rollback := result.rollback.map fieldsThroughJson }

/-- What JSON keeps of a node. -/
def storedNode (node : GraphNode) : GraphNode :=
  { node with
    timeoutS := node.timeoutS.filter fun text => !Json.nonFinite text
    result := node.result.map storedResult
    toolResults := node.toolResults.map storedResult }

namespace Readers

variable {readers : Readers}

/-- The text is that of a time, which is read back. -/
def IsTime (readers : Readers) (text : String) : Prop :=
  text ≠ "" ∧ readers.fromisoformat text = .ok text

/-- The times of a tool result are times. -/
def Timed (readers : Readers) (result : ToolResult) : Prop :=
  readers.IsTime result.createdAt ∧ readers.IsTime result.updatedAt

/-- The times of a node are times, and those of its results. -/
structure TimedNode (readers : Readers) (node : GraphNode) : Prop where
  startedAt : ∀ time ∈ node.startedAt, readers.IsTime time
  completedAt : ∀ time ∈ node.completedAt, readers.IsTime time
  result : ∀ result ∈ node.result, readers.Timed result
  toolResults : ∀ result ∈ node.toolResults, readers.Timed result

/-- The restored node has all that was saved. -/
structure Agrees (node restored : GraphNode) : Prop where
  state : restored.state = node.state
  attempts : restored.attempts = node.attempts
  error : restored.error = node.error
  timeoutS : restored.timeoutS = node.timeoutS
  startedAt : restored.startedAt = node.startedAt
  completedAt : restored.completedAt = node.completedAt
  result : restored.result = node.result
  toolResults : restored.toolResults = node.toolResults

/-- The restored node waits, and has the attempts and the timeout. -/
structure Interrupted (node restored : GraphNode) : Prop where
  pending : restored.state = .pending
  interrupted : restored.interrupted = true
  attempts : restored.attempts = node.attempts
  timeoutS : restored.timeoutS = node.timeoutS

/-- The restore of the saved graph succeeds, with what the nodes are to have kept. -/
def RoundTrips (readers : Readers) (plan : Plan) (graph : TaskGraph) (state : GraphState) :
    Prop :=
  ∃ nodes, readers.restore plan (throughJson (state.snapshotJson graph)) = .ok (graph, nodes) ∧
    ∀ step ∈ graph.steps,
      (state.table step.id ≠ .running → Agrees (state.node step.id) (nodes step.id)) ∧
      (state.table step.id = .running → Interrupted (state.node step.id) (nodes step.id))

theorem TimedNode.stored {node : GraphNode} (timed : readers.TimedNode node) :
    readers.TimedNode (storedNode node) where
  startedAt := timed.startedAt
  completedAt := timed.completedAt
  result := by
    intro result member
    rcases Option.mem_map.mp member with ⟨own, inside, rfl⟩
    exact timed.result own inside
  toolResults := by
    intro result member
    rcases List.mem_map.mp member with ⟨own, inside, rfl⟩
    exact timed.toolResults own inside

end Readers

/-! ## What the executor reaches -/

namespace Execution

variable {run : Execution} {readers : Readers}

/-- The graphs of a run on a fresh graph: those behind its turns, and the last one. -/
inductive Reached (run : Execution) : GraphState → Prop
  | turn {turns : Nat} {loop : Loop} (reached : run.after freshNodes turns = .ok loop) :
      Reached run loop.toGraphState
  | finish {turns : Nat} {loop : Loop} (reached : run.after freshNodes turns = .ok loop)
      (stands : run.finished loop = true) : Reached run (run.finish loop).2.toGraphState

def aTime : String := "2026-01-01T00:00:00+00:00"

/-- Reads what `dumpToolResult` writes. -/
def readDump : Json → Except String ToolResult
  | .obj [(_, .str id), (_, .str createdAt), (_, .str updatedAt), (_, .str taskId),
      (_, .str toolCallId), (_, .bool success), (_, output), (_, error), (_, exitCode),
      (_, rollback)] =>
      .ok {
        id, createdAt, updatedAt, taskId, toolCallId, success, output
        error := if let .str text := error then some text else none
        exitCode := if let .int code := exitCode then some code else none
        rollback := if let .obj fields := rollback then some fields else none }
  | _ => .error "1 validation error for ToolResult"

/-- Readers for one time. -/
def strict : Readers :=
  { Readers.refusing with
    fromisoformat := fun text =>
      if text = aTime then .ok text
      else .error ("Invalid isoformat string: " ++ Text.repr text)
    toolResult := readDump }

end Execution

end Raphael.Agent.Executor
