import Raphael.Core.PyValue
import Raphael.Tools.LedgerSettling

/-! # Reporting what a tool put out

The end of a call whose handler returns a tool result: the event with a redacted snippet
of the output, the row of the ledger, and the result. -/

namespace Raphael.Tools

open Core
open Security

/-- A tool result with an output of any shape. -/
structure PyToolResult where
  taskId : String := ""
  toolCallId : String := ""
  success : Bool := false
  output : PyValue := .none
  error : Option String := none

def PyToolResult.ofToolResult (result : ToolResult) : PyToolResult where
  taskId := result.taskId
  toolCallId := result.toolCallId
  success := result.success
  output := .ofJson result.output
  error := result.error

/-- A text is masked or cut off. -/
def clip (text : String) : String :=
  if Secrets.looksLikeSecretValue text then "***"
  else if text.length ≤ 500 then text
  else Text.take 500 text ++ "… [" ++ toString (text.length - 500) ++ " more chars]"

/-- `_safe_output_snippet`. -/
def safeOutputSnippet : PyValue → Except Error String
  | .none => .ok ""
  | .dict entries => do
      let redacted ← PyValue.redact entries
      return clip (PyValue.repr (.dict redacted))
  | .str text => .ok (clip text)
  | .list items => .ok (clip (PyValue.repr (.list items)))
  | .scalar repr => .ok (clip repr)

/-- Where the output is a dict, the dicts that redaction comes to have text as keys. -/
def Reportable : PyValue → Prop
  | .dict entries => PyValue.redactable entries = true
  | .none | .str _ | .list _ | .scalar _ => True

instance : DecidablePred Reportable
  | .dict entries => inferInstanceAs (Decidable (PyValue.redactable entries = true))
  | .none | .str _ | .list _ | .scalar _ => isTrue trivial

/-- What JSON can hold is reportable. -/
theorem reportable_ofJson (value : Json) : Reportable (.ofJson value) := by
  cases value with
  | obj fields => exact PyValue.redactable_ofFields fields
  | bool flag => cases flag <;> trivial
  | null => trivial
  | int value => trivial
  | float text => trivial
  | str text => trivial
  | arr items => trivial

namespace ToolRunner

section Returning

variable (externals : RunnerExternals) (surroundings : Surroundings)
  (runner : ToolRunner)

/-- `_finish` on a tool result. -/
def finishReturned (identity : String) (result : PyToolResult) (state : RunState) :
    Except Error PyToolResult × RunState :=
  let call := state.call
  let result := { result with taskId := call.taskId, toolCallId := call.id }
  let state := withStatus state (if result.success then .completed else .failed)
  match safeOutputSnippet result.output with
  | .error error => (.error error, state)
  | .ok snippet =>
      let state := emit state (if result.success then .toolCompleted else .toolFailed)
        [("tool", .str call.tool), ("call_id", .str call.id),
          ("action_hash", .str identity), ("output_snippet", .str snippet),
          ("error", .str (safeError externals (result.error.getD "")))]
      let digest := externals.identities.sha256 result.output.repr
      let outcome := if result.success then .completed else .failed
      (.ok result, { state with
        ledger := state.ledger.map (·.transition identity outcome digest) })

end Returning

variable {externals : RunnerExternals} {surroundings : Surroundings}
  {runner : ToolRunner} {state next : RunState} {tool : Tool} {permission : Permission}
  {identity : String} {result : PyToolResult}

/-- On a JSON output, and with the snippet and the text of the source, this is how `run`
ends. -/
theorem finishReturned_ofToolResult (given : ToolResult) (crash : String)
    (snippet : safeOutputSnippet (.ofJson given.output) =
      .ok (externals.outputSnippet given.output))
    (text : PyValue.repr (.ofJson given.output) = externals.reprOutput given.output) :
    finishReturned externals identity (.ofToolResult given) state =
      ((finish externals tool identity crash state (.result given)).1.map .ofToolResult,
        (finish externals tool identity crash state (.result given)).2) := by
  simp only [finishReturned, PyToolResult.ofToolResult, snippet, text]
  rfl

/-- The call comes to its handler under the permission, with its action reserved. -/
def ReachesHandler (externals : RunnerExternals) (surroundings : Surroundings)
    (runner : ToolRunner) (state : RunState) (tool : Tool) (permission : Permission)
    (identity : String) (next : RunState) : Prop :=
  ∃ first second third handler,
    screen externals surroundings runner state = .ok (tool, first) ∧
    permit externals surroundings runner tool first = .ok (permission, second) ∧
    reserve externals tool second = .ok (identity, third) ∧
    dispatch externals runner tool permission identity third = .ok (handler, next)

/-- Behind the reservation the row of the action is there. -/
theorem row_of_reserve {ledger : ExecutionLedger}
    (reserved : reserve externals tool state = .ok (identity, next))
    (present : next.ledger = some ledger) :
    ledger identity ≠ none ∧ SameReservation { state with
      ledger := next.ledger
      seenIds := next.seenIds } next := by
  cases row : state.ledger.bind (·.get (identityOf externals tool state.call)) with
  | some record =>
      rcases reserve_of_row row with ⟨ended, refused, _⟩
      rw [refused] at reserved
      cases reserved
  | none =>
      cases seen : state.seenIds.contains state.call.id with
      | true =>
          rcases reserve_of_seen row seen with ⟨ended, _, refused, _⟩
          rw [refused] at reserved
          cases reserved
      | false =>
          rw [reserve_of_new row seen] at reserved
          cases reserved
          rcases Option.map_eq_some_iff.mp present with ⟨before, held, rfl⟩
          rw [held] at row
          refine ⟨?_, ⟨rfl, rfl, rfl, rfl, rfl, rfl⟩⟩
          rw [begun_row row]
          exact Option.some_ne_none _

/-- Up to its handler the call keeps its ids, and its action has a row. -/
theorem ReachesHandler.row
    (reaches : ReachesHandler externals surroundings runner state tool permission identity
      next) :
    next.call.id = state.call.id ∧ next.call.taskId = state.call.taskId ∧
      ∀ ledger, next.ledger = some ledger → ledger identity ≠ none := by
  rcases reaches with ⟨first, second, third, handler, screened, permitted, reserved, started⟩
  rw [← screenReadings_const] at screened
  have toSecond := (screenReadings_reservation screened).1.trans (permit_reservation permitted)
  rcases @dispatch_cases externals third tool permission runner identity with
    ⟨ended, _, stopped, _⟩ | ⟨_, _, _, _, dispatched, same⟩
  · rw [started] at stopped
    cases stopped
  · rw [started] at dispatched
    cases dispatched
    have kept := reserve_ok reserved
    refine ⟨?_, ?_, fun ledger present => ?_⟩
    · rw [same.id, kept.1, toSecond.id]
    · rw [same.taskId, kept.1, toSecond.taskId]
    · exact (row_of_reserve reserved (same.ledger.symm.trans present)).1

end ToolRunner

end Raphael.Tools
