import Raphael.Tools.ReservationRace
import Raphael.Tools.ToolRunner

/-! # The replay boundary across crashes

Calls of `ToolRunner.run` that are made one at a time over one database. Between any
two steps of a call the process may crash; a new runner and a new ledger take over,
and the rows in flight go over to UNKNOWN. -/

namespace Raphael.Tools

open Core Foundation

/-- A call, with the contract of its tool, as it goes into `_reserve_action`. -/
structure LedgerCall where
  call : ToolCall
  tool : Tool

namespace LedgerCall

def semanticTool (entry : LedgerCall) : String :=
  ToolRunner.semanticTool entry.tool entry.call

/-- The task, the semantic tool identity and the arguments, with the keys of every dict
in order. -/
def action (entry : LedgerCall) : Json :=
  (actionPayload entry.call.taskId entry.semanticTool entry.call.arguments).sortKeys

def digest (sha256 : String → String) (entry : LedgerCall) : String :=
  actionHash sha256 entry.call.taskId entry.semanticTool entry.call.arguments

theorem digest_eq_of_action_eq (sha256 : String → String) {first second : LedgerCall}
    (same : first.action = second.action) : first.digest sha256 = second.digest sha256 := by
  unfold action at same
  simp only [digest, actionHash, Json.canonicalText, same]

/-- The row that `begin` inserts for the call. -/
def record (sha256 : String → String) (entry : LedgerCall) : ExecutionRecord :=
  ExecutionLedger.startedRecord (entry.digest sha256) entry.call.taskId entry.semanticTool

end LedgerCall

/-- Where the call in progress stands. `selecting` is the read in `_reserve_action`,
`beginning` the read inside `begin`, `inserting` and `restarting` its two writes,
`rereading` its last read, `claiming` the check of the seen call ids, `starting` the two
events and the look-up of the handler, and `recording` the write that settles the row. -/
inductive ReplayPhase
  | idle
  | selecting (entry : LedgerCall)
  | beginning (entry : LedgerCall)
  | inserting (entry : LedgerCall)
  | restarting (entry : LedgerCall) (attempt : Nat)
  | rereading (entry : LedgerCall)
  | claiming (entry : LedgerCall)
  | starting (entry : LedgerCall)
  | invoking (entry : LedgerCall)
  | recording (entry : LedgerCall) (state : ExecutionState) (resultHash : String)

/-- The call that has its reservation, and has not settled its row. -/
def ReplayPhase.held? : ReplayPhase → Option LedgerCall
  | .rereading entry | .claiming entry | .starting entry | .invoking entry
  | .recording entry _ _ => some entry
  | .idle | .selecting _ | .beginning _ | .inserting _ | .restarting _ _ => none

/-- The database and the process; what has been invoked, and the actions that a crash
left between their reservation and the write that settles them. -/
structure ReplayHistory where
  ledger : ExecutionLedger
  seenIds : List String
  phase : ReplayPhase
  invoked : List LedgerCall
  left : List LedgerCall

/-- What happens next. A call that does not pass the gates before the reservation comes
back at once; one whose handler is gone comes back before it is invoked. -/
inductive ReplayAction
  | call (entry : LedgerCall) (passes : Bool)
  | advance
  | revoked
  | invoke
  | finish (ending : HandlerEnd)
  | crash

namespace ReplayHistory

def start (ledger : ExecutionLedger) : ReplayHistory where
  ledger := ledger
  seenIds := []
  phase := .idle
  invoked := []
  left := []

/-- The statement that the call in progress makes next. -/
def advance (sha256 : String → String) (history : ReplayHistory) : Option ReplayHistory :=
  match history.phase with
  | .selecting entry =>
      match history.ledger.get (entry.digest sha256) with
      | some _ => some { history with phase := .idle }
      | none => some { history with phase := .beginning entry }
  | .beginning entry =>
      match ExecutionLedger.beginDecision (history.ledger.get (entry.digest sha256)) with
      | .insert => some { history with phase := .inserting entry }
      | .keep _ => some { history with phase := .claiming entry }
      | .restart existing =>
          some { history with phase := .restarting entry (existing.attempt + 1) }
  | .inserting entry => some { history with
      ledger := history.ledger.insertOrIgnore (entry.record sha256)
      phase := .rereading entry }
  | .restarting entry attempt => some { history with
      ledger := history.ledger.restart (entry.digest sha256) attempt
      phase := .claiming entry }
  | .rereading entry => some { history with phase := .claiming entry }
  | .claiming entry =>
      if history.seenIds.contains entry.call.id then some { history with phase := .idle }
      else some { history with
        seenIds := entry.call.id :: history.seenIds
        phase := .starting entry }
  | .recording entry state resultHash => some { history with
      ledger := history.ledger.transition (entry.digest sha256) state resultHash
      phase := .idle }
  | _ => none

/-- The process is gone; the next one recovers before it makes a call. -/
def crash (history : ReplayHistory) : ReplayHistory where
  ledger := history.ledger.recoverUnknowns
  seenIds := []
  phase := .idle
  invoked := history.invoked
  left := history.left ++ history.phase.held?.toList

def step (sha256 : String → String) : StepFunction ReplayHistory ReplayAction
  | history, .call entry passes =>
      match history.phase with
      | .idle => some (if passes then { history with phase := .selecting entry } else history)
      | _ => none
  | history, .advance => history.advance sha256
  | history, .revoked =>
      match history.phase with
      | .starting _ => some { history with phase := .idle }
      | _ => none
  | history, .invoke =>
      match history.phase with
      | .starting entry => some { history with
          phase := .invoking entry
          invoked := history.invoked ++ [entry] }
      | _ => none
  | history, .finish ending =>
      match history.phase, ending with
      | .invoking entry, .result true resultHash =>
          some { history with phase := .recording entry .completed resultHash }
      | .invoking entry, .result false resultHash =>
          some { history with phase := .recording entry .failed resultHash }
      | .invoking _, .noResult => some { history with phase := .idle }
      | _, _ => none
  | history, .crash => some history.crash

/-- The row of the action has the given state. -/
def RowIs (sha256 : String → String) (history : ReplayHistory) (entry : LedgerCall)
    (state : ExecutionState) : Prop :=
  ∃ record, history.ledger (entry.digest sha256) = some record ∧ record.state = state

/-- What ties the rows to the invocations so far: an invoked action has a row, and a row
that a crash left is UNKNOWN. -/
structure Kept (sha256 : String → String) (history : ReplayHistory) : Prop where
  once : history.invoked.Pairwise fun first second =>
    first.digest sha256 ≠ second.digest sha256
  recorded : ∀ entry ∈ history.invoked, history.ledger (entry.digest sha256) ≠ none
  unknown : ∀ entry ∈ history.left, history.RowIs sha256 entry .unknown

/-- The action of the call was not invoked. -/
def Uninvoked (sha256 : String → String) (history : ReplayHistory) (entry : LedgerCall) :
    Prop :=
  ∀ past ∈ history.invoked, past.digest sha256 ≠ entry.digest sha256

/-- The row of the call in progress: it is absent up to the INSERT, and STARTED from
there on. No row is ever restarted. -/
def Fits (sha256 : String → String) (history : ReplayHistory) : ReplayPhase → Prop
  | .idle | .selecting _ => True
  | .beginning entry | .inserting entry => history.ledger (entry.digest sha256) = none
  | .restarting _ _ => False
  | .rereading entry | .claiming entry | .starting entry =>
      history.RowIs sha256 entry .started ∧ history.Uninvoked sha256 entry
  | .invoking entry | .recording entry _ _ => history.RowIs sha256 entry .started

structure Bounded (sha256 : String → String) (history : ReplayHistory) : Prop where
  kept : history.Kept sha256
  fits : history.Fits sha256 history.phase

variable {sha256 : String → String} {history next : ReplayHistory} {entry : LedgerCall}

theorem Bounded.start (ledger : ExecutionLedger) : (start ledger).Bounded sha256 where
  kept := ⟨.nil, fun _ member => (List.not_mem_nil member).elim,
    fun _ member => (List.not_mem_nil member).elim⟩
  fits := trivial

/-- What is kept has nothing to do with the process. -/
private theorem Kept.process (kept : history.Kept sha256) (seenIds : List String)
    (phase : ReplayPhase) : Kept sha256 { history with seenIds, phase } :=
  ⟨kept.once, kept.recorded, kept.unknown⟩

/-- A row with another state is none that a crash has left. -/
private theorem Kept.left_ne (kept : history.Kept sha256) {other : LedgerCall}
    (isLeft : other ∈ history.left)
    (elsewise : ¬history.RowIs sha256 entry .unknown) :
    other.digest sha256 ≠ entry.digest sha256 := by
  intro same
  have isUnknown := kept.unknown other isLeft
  unfold RowIs at isUnknown elsewise
  rw [same] at isUnknown
  exact elsewise isUnknown

private theorem RowIs.started_ne (started : history.RowIs sha256 entry .started) :
    ¬history.RowIs sha256 entry .unknown := by
  rintro ⟨record, found, isUnknown⟩
  rcases started with ⟨own, ownFound, isStarted⟩
  rw [ownFound] at found
  cases found
  rw [isStarted] at isUnknown
  cases isUnknown

/-- A statement that writes a row which no crash has left. -/
private theorem Kept.write (kept : history.Kept sha256) (record : ExecutionRecord)
    (phase : ReplayPhase) (elsewise : ¬history.RowIs sha256 entry .unknown) :
    Kept sha256 { history with
      ledger := Function.update history.ledger (entry.digest sha256) (some record)
      phase := phase } where
  once := kept.once
  recorded := by
    intro past member
    change Function.update history.ledger (entry.digest sha256) (some record)
      (past.digest sha256) ≠ none
    by_cases same : past.digest sha256 = entry.digest sha256
    · rw [same, Function.update_self]
      exact Option.some_ne_none _
    · rw [Function.update_of_ne same]
      exact kept.recorded past member
  unknown := by
    intro other isLeft
    rcases kept.unknown other isLeft with ⟨held, found, isUnknown⟩
    refine ⟨held, ?_, isUnknown⟩
    change Function.update history.ledger (entry.digest sha256) (some record)
      (other.digest sha256) = some held
    rw [Function.update_of_ne (kept.left_ne isLeft elsewise)]
    exact found

private theorem Bounded.advance (bounded : history.Bounded sha256)
    (advanced : history.advance sha256 = some next) : next.Bounded sha256 := by
  have kept := bounded.kept
  have fits := bounded.fits
  unfold ReplayHistory.advance at advanced
  cases phase : history.phase with
  | idle =>
      rw [phase] at advanced
      cases advanced
  | selecting entry =>
      simp only [phase] at advanced
      cases row : history.ledger.get (entry.digest sha256) with
      | some record =>
          rw [row] at advanced
          cases advanced
          exact ⟨kept.process _ _, trivial⟩
      | none =>
          rw [row] at advanced
          cases advanced
          exact ⟨kept.process _ _, row⟩
  | beginning entry =>
      rw [phase] at fits
      have row : history.ledger.get (entry.digest sha256) = none := fits
      simp only [phase, row, ExecutionLedger.beginDecision] at advanced
      cases advanced
      exact ⟨kept.process _ _, row⟩
  | inserting entry =>
      rw [phase] at fits
      have row : history.ledger (entry.digest sha256) = none := fits
      have inserted : history.ledger.insertOrIgnore (entry.record sha256) =
          Function.update history.ledger (entry.digest sha256)
            (some (entry.record sha256)) :=
        ExecutionLedger.insertOrIgnore_of_absent row
      simp only [phase, inserted] at advanced
      cases advanced
      constructor
      · apply kept.write
        rintro ⟨record, found, _⟩
        rw [row] at found
        cases found
      · refine ⟨⟨entry.record sha256, Function.update_self .., rfl⟩, ?_⟩
        intro past member same
        apply kept.recorded past member
        rw [same]
        exact row
  | restarting entry attempt =>
      rw [phase] at fits
      exact fits.elim
  | rereading entry =>
      rw [phase] at fits
      simp only [phase] at advanced
      cases advanced
      exact ⟨kept.process _ _, fits⟩
  | claiming entry =>
      rw [phase] at fits
      simp only [phase] at advanced
      split at advanced
      · cases advanced
        exact ⟨kept.process _ _, trivial⟩
      · cases advanced
        exact ⟨kept.process _ _, fits⟩
  | starting entry =>
      rw [phase] at advanced
      cases advanced
  | invoking entry =>
      rw [phase] at advanced
      cases advanced
  | recording entry state resultHash =>
      rw [phase] at fits
      have started : history.RowIs sha256 entry .started := fits
      simp only [phase] at advanced
      cases advanced
      rcases started with ⟨record, found, _⟩
      have written : history.ledger.transition (entry.digest sha256) state resultHash =
          Function.update history.ledger (entry.digest sha256)
            (some { record with state, resultHash }) := by
        simp [ExecutionLedger.transition, ExecutionLedger.update, found]
      rw [written]
      exact ⟨kept.write _ _ (RowIs.started_ne fits), trivial⟩

private theorem Bounded.crash (bounded : history.Bounded sha256) :
    history.crash.Bounded sha256 := by
  have kept := bounded.kept
  refine ⟨⟨kept.once, ?_, ?_⟩, trivial⟩
  · intro entry member
    exact ExecutionLedger.ne_none_of_recoverUnknowns (kept.recorded entry member)
  · intro entry member
    rcases List.mem_append.mp member with before | now
    · rcases kept.unknown entry before with ⟨record, found, isUnknown⟩
      refine ⟨record, ?_, isUnknown⟩
      simp [ReplayHistory.crash, ExecutionLedger.recoverUnknowns, found, isUnknown,
        ExecutionState.inFlight]
    · have started : history.RowIs sha256 entry .started := by
        have fits := bounded.fits
        cases phase : history.phase <;> rw [phase] at fits now <;>
          simp only [ReplayPhase.held?, Option.toList_some, Option.toList_none,
            List.mem_singleton, List.not_mem_nil] at now
        all_goals subst now
        · exact fits.1
        · exact fits.1
        · exact fits.1
        · exact fits
        · exact fits
      rcases started with ⟨record, found, isStarted⟩
      have flies : record.state.inFlight = true := by rw [isStarted]; rfl
      refine ⟨{ record with state := .unknown, resultHash := "" }, ?_, rfl⟩
      simp [ReplayHistory.crash, ExecutionLedger.recoverUnknowns, found, flies,
        ExecutionLedger.transition_self found]

/-- One step of a call, or a crash, keeps the boundary. -/
private theorem Bounded.step (history : ReplayHistory) (action : ReplayAction)
    (next : ReplayHistory) (bounded : history.Bounded sha256)
    (stepped : ReplayHistory.step sha256 history action = some next) :
    next.Bounded sha256 := by
  have kept := bounded.kept
  have fits := bounded.fits
  cases action with
  | call entry passes =>
      simp only [ReplayHistory.step] at stepped
      split at stepped
      case h_1 idle =>
        cases passes with
        | true =>
            cases stepped
            exact ⟨kept.process _ _, trivial⟩
        | false =>
            cases stepped
            exact bounded
      case h_2 => cases stepped
  | advance => exact bounded.advance stepped
  | revoked =>
      simp only [ReplayHistory.step] at stepped
      split at stepped
      case h_1 entry phase =>
        cases stepped
        exact ⟨kept.process _ _, trivial⟩
      case h_2 => cases stepped
  | invoke =>
      simp only [ReplayHistory.step] at stepped
      split at stepped
      case h_1 entry phase =>
        rw [phase] at fits
        cases stepped
        refine ⟨⟨?_, ?_, kept.unknown⟩, fits.1⟩
        · apply List.pairwise_append.mpr
          refine ⟨kept.once, List.pairwise_singleton _ _, ?_⟩
          intro past member latest isLatest
          rw [List.mem_singleton.mp isLatest]
          exact fits.2 past member
        · intro past member
          rcases List.mem_append.mp member with before | latest
          · exact kept.recorded past before
          · rcases fits.1 with ⟨record, found, _⟩
            rw [List.mem_singleton.mp latest]
            exact fun missing => by rw [found] at missing; cases missing
      case h_2 => cases stepped
  | finish ending =>
      simp only [ReplayHistory.step] at stepped
      split at stepped
      case h_1 entry resultHash phase | h_2 entry resultHash phase =>
        rw [phase] at fits
        cases stepped
        exact ⟨kept.process _ _, fits⟩
      case h_3 =>
        cases stepped
        exact ⟨kept.process _ _, trivial⟩
      case h_4 => cases stepped
  | crash =>
      cases stepped
      exact bounded.crash

/-- A mail that one tool sends. -/
def sending (id : String) : LedgerCall where
  call := { id, taskId := "t", tool := "mail.send" }
  tool := { name := "mail.send" }

/-- The call ids of what was invoked, and of what a crash left. -/
def ids (history : ReplayHistory) : List String × List String :=
  (history.invoked.map (·.call.id), history.left.map (·.call.id))

end ReplayHistory

end Raphael.Tools
