import Raphael.Core.Domain

/-! # The execution ledger

One durable row for each semantic action. Every function here is one statement
on the table, or a decision between two statements. -/

namespace Raphael.Tools

open Core

inductive ExecutionState
  | planned
  | authorized
  | started
  | executing
  | completed
  | failed
  | cancelled
  | unknown
  deriving DecidableEq, Repr

def ExecutionState.value : ExecutionState → String
  | .planned => "PLANNED"
  | .authorized => "AUTHORIZED"
  | .started => "STARTED"
  | .executing => "EXECUTING"
  | .completed => "COMPLETED"
  | .failed => "FAILED"
  | .cancelled => "CANCELLED"
  | .unknown => "UNKNOWN"

/-- The states that a restart finds in flight. -/
def ExecutionState.inFlight : ExecutionState → Bool
  | .started | .executing | .authorized => true
  | _ => false

structure ExecutionRecord where
  actionHash : String
  taskId : String
  tool : String
  state : ExecutionState
  attempt : Nat := 1
  resultHash : String := ""
  deriving DecidableEq, Repr

/-- What an action hash is computed from. -/
def actionPayload (taskId tool : String) (arguments : Arguments) : Json :=
  .obj [("task_id", .str taskId), ("tool", .str tool), ("arguments", .obj arguments)]

/-- `sha256` hashes the canonical text of the payload. -/
def actionHash (sha256 : String → String) (taskId tool : String)
    (arguments : Arguments) : String :=
  sha256 (actionPayload taskId tool arguments).canonicalText

/-- The table, keyed by `action_hash`. -/
abbrev ExecutionLedger := String → Option ExecutionRecord

namespace ExecutionLedger

def get (ledger : ExecutionLedger) (digest : String) : Option ExecutionRecord :=
  ledger digest

/-- `INSERT OR IGNORE`. -/
def insertOrIgnore (ledger : ExecutionLedger) (record : ExecutionRecord) :
    ExecutionLedger :=
  match ledger record.actionHash with
  | some _ => ledger
  | none => Function.update ledger record.actionHash (some record)

/-- An `UPDATE` of the row with this digest. -/
def update (ledger : ExecutionLedger) (digest : String)
    (change : ExecutionRecord → ExecutionRecord) : ExecutionLedger :=
  Function.update ledger digest ((ledger digest).map change)

def transition (ledger : ExecutionLedger) (digest : String) (state : ExecutionState)
    (resultHash : String) : ExecutionLedger :=
  ledger.update digest fun record => { record with state, resultHash }

/-- What `begin` does after its own read of the row. -/
inductive BeginDecision
  | insert
  | keep (existing : ExecutionRecord)
  | restart (existing : ExecutionRecord)

def beginDecision : Option ExecutionRecord → BeginDecision
  | none => .insert
  | some existing =>
      if [ExecutionState.completed, .started, .executing, .authorized, .unknown].contains
          existing.state then .keep existing
      else .restart existing

/-- The row `begin` inserts. -/
def startedRecord (digest taskId tool : String) : ExecutionRecord where
  actionHash := digest
  taskId := taskId
  tool := tool
  state := .started

/-- The `UPDATE` of `begin` on a row that may be restarted. -/
def restart (ledger : ExecutionLedger) (digest : String) (attempt : Nat) :
    ExecutionLedger :=
  ledger.update digest fun record =>
    { record with state := .started, attempt, resultHash := "" }

/-- The table behind `begin`, when no other statement comes between its own. -/
def begin (ledger : ExecutionLedger) (digest taskId tool : String) : ExecutionLedger :=
  match beginDecision (ledger.get digest) with
  | .insert => ledger.insertOrIgnore (startedRecord digest taskId tool)
  | .keep _ => ledger
  | .restart existing => ledger.restart digest (existing.attempt + 1)

/-- `recover_unknowns`: every row in flight goes over to UNKNOWN. -/
def recoverUnknowns (ledger : ExecutionLedger) : ExecutionLedger := fun digest =>
  if (ledger digest).any (·.state.inFlight) then ledger.transition digest .unknown "" digest
  else ledger digest

/-! A row is never removed. -/

theorem insertOrIgnore_ne_none (ledger : ExecutionLedger) (record : ExecutionRecord) :
    ledger.insertOrIgnore record record.actionHash ≠ none := by
  cases row : ledger record.actionHash with
  | some existing => simp [insertOrIgnore, row]
  | none => simp [insertOrIgnore, row]

theorem ne_none_of_insertOrIgnore {ledger : ExecutionLedger} {record : ExecutionRecord}
    {digest : String} (present : ledger digest ≠ none) :
    ledger.insertOrIgnore record digest ≠ none := by
  cases row : ledger record.actionHash with
  | some existing => simpa [insertOrIgnore, row] using present
  | none =>
      have different : digest ≠ record.actionHash := by
        rintro rfl
        exact present row
      simpa [insertOrIgnore, row, Function.update_of_ne different] using present

theorem ne_none_of_update {ledger : ExecutionLedger} {digest other : String}
    {change : ExecutionRecord → ExecutionRecord} (present : ledger other ≠ none) :
    ledger.update digest change other ≠ none := by
  unfold update
  by_cases same : other = digest
  · subst same
    simpa using present
  · rwa [Function.update_of_ne same]

theorem ne_none_of_recoverUnknowns {ledger : ExecutionLedger} {digest : String}
    (present : ledger digest ≠ none) : ledger.recoverUnknowns digest ≠ none := by
  unfold recoverUnknowns
  split
  · exact ne_none_of_update present
  · exact present

/-! What the statements make of the state of a row. -/

theorem insertOrIgnore_of_absent {ledger : ExecutionLedger} {record : ExecutionRecord}
    (absent : ledger record.actionHash = none) :
    ledger.insertOrIgnore record =
      Function.update ledger record.actionHash (some record) := by
  simp [insertOrIgnore, absent]

/-- Under a digest that is not there, `begin` inserts its row. -/
theorem begin_of_absent {ledger : ExecutionLedger} {digest : String}
    (absent : ledger digest = none) (taskId tool : String) :
    ledger.begin digest taskId tool =
      Function.update ledger digest (some (startedRecord digest taskId tool)) := by
  simp [begin, get, absent, beginDecision, insertOrIgnore, startedRecord]

theorem transition_self {ledger : ExecutionLedger} {digest : String}
    {record : ExecutionRecord} (present : ledger digest = some record)
    (state : ExecutionState) (resultHash : String) :
    ledger.transition digest state resultHash digest =
      some { record with state, resultHash } := by
  simp [transition, update, present]

theorem transition_of_ne {ledger : ExecutionLedger} {digest other : String}
    (different : other ≠ digest) (state : ExecutionState) (resultHash : String) :
    ledger.transition digest state resultHash other = ledger other := by
  simp [transition, update, Function.update_of_ne different]

end ExecutionLedger

end Raphael.Tools
