import Raphael.Foundation.StepSystem
import Raphael.Tools.ExecutionLedger

/-! # Racing reservations

Any number of `ToolRunner.run` calls on runners that share one ledger. Each
statement on the ledger and each handler invocation is one atomic step; what a
call does before `_reserve_action` and after its handler is one step each. -/

namespace Raphael.Tools

open Core Foundation

/-- The calls that are made: the runner each is made on, and the contract of its
tool there. Their call ids are pairwise different. -/
structure RunnerCalls (Call : Type u) (Runner : Type v) where
  runner : Call → Runner
  call : Call → ToolCall
  tool : Call → Tool
  sha256 : String → String
  distinctIds : ∀ first second, (call first).id = (call second).id → first = second

namespace RunnerCalls

variable {Call : Type u} {Runner : Type v}

/-- `tool.action_identity or call.tool`. -/
def semanticTool (calls : RunnerCalls Call Runner) (call : Call) : String :=
  if (calls.tool call).actionIdentity = "" then (calls.call call).tool
  else (calls.tool call).actionIdentity

/-- The task, the semantic tool identity and the arguments of a call, with the
keys of every dict in order. -/
def action (calls : RunnerCalls Call Runner) (call : Call) : Json :=
  (actionPayload (calls.call call).taskId (calls.semanticTool call)
    (calls.call call).arguments).sortKeys

def digest (calls : RunnerCalls Call Runner) (call : Call) : String :=
  actionHash calls.sha256 (calls.call call).taskId (calls.semanticTool call)
    (calls.call call).arguments

theorem digest_eq_of_action_eq (calls : RunnerCalls Call Runner) {first second : Call}
    (same : calls.action first = calls.action second) :
    calls.digest first = calls.digest second := by
  unfold action at same
  simp only [digest, actionHash, Json.canonicalText, same]

end RunnerCalls

/-- Where a call stands. `selecting` is the read in `_reserve_action`,
`beginning` the read inside `begin`, `inserting` and `restarting` its two writes,
`rereading` its last read, and `claiming` the check of the seen call ids. -/
inductive CallPhase
  | gating
  | selecting
  | beginning
  | inserting
  | restarting (attempt : Nat)
  | rereading
  | claiming
  | invoking
  | recording (state : ExecutionState) (resultHash : String)
  | finished
  deriving DecidableEq

/-- The call has found no row for its action, and has not invoked its handler. -/
def CallPhase.reserving : CallPhase → Bool
  | .beginning | .inserting | .restarting _ | .rereading | .claiming | .invoking => true
  | _ => false

/-- The call is between its own read and its INSERT. -/
def CallPhase.unrecorded : CallPhase → Bool
  | .beginning | .inserting => true
  | _ => false

/-- How a handler invocation ends: with a result, whose output is hashed for the
ledger, or with a deadline, a crash or a value of another type, which go through
`_fail` and leave the ledger alone. -/
inductive HandlerEnd
  | result (success : Bool) (resultHash : String)
  | noResult

structure Racing (Call : Type u) (Runner : Type v) where
  ledger : ExecutionLedger
  phase : Call → CallPhase
  seenIds : Runner → List String
  invoked : List Call

inductive RaceAction (Call : Type u)
  | gate (call : Call) (passes : Bool)
  | advance (call : Call)
  | invoke (call : Call) (ending : HandlerEnd)
  | revoked (call : Call)

namespace Racing

variable {Call : Type u} {Runner : Type v} [DecidableEq Call] [DecidableEq Runner]

def start (ledger : ExecutionLedger) : Racing Call Runner where
  ledger := ledger
  phase := fun _ => .gating
  seenIds := fun _ => []
  invoked := []

def moveTo (state : Racing Call Runner) (call : Call) (phase : CallPhase) :
    Racing Call Runner :=
  { state with phase := Function.update state.phase call phase }

def step (calls : RunnerCalls Call Runner) :
    StepFunction (Racing Call Runner) (RaceAction Call)
  | state, .gate call passes =>
      match state.phase call with
      | .gating => some (state.moveTo call (if passes then .selecting else .finished))
      | _ => none
  | state, .advance call =>
      let digest := calls.digest call
      match state.phase call with
      | .selecting =>
          match state.ledger.get digest with
          | some _ => some (state.moveTo call .finished)
          | none => some (state.moveTo call .beginning)
      | .beginning =>
          match ExecutionLedger.beginDecision (state.ledger.get digest) with
          | .insert => some (state.moveTo call .inserting)
          | .keep _ => some (state.moveTo call .claiming)
          | .restart existing => some (state.moveTo call (.restarting (existing.attempt + 1)))
      | .inserting =>
          let record := ExecutionLedger.startedRecord digest (calls.call call).taskId
            (calls.semanticTool call)
          some (moveTo { state with ledger := state.ledger.insertOrIgnore record }
            call .rereading)
      | .restarting attempt =>
          some (moveTo { state with ledger := state.ledger.restart digest attempt }
            call .claiming)
      | .rereading => some (state.moveTo call .claiming)
      | .claiming =>
          let runner := calls.runner call
          let id := (calls.call call).id
          if (state.seenIds runner).contains id then some (state.moveTo call .finished)
          else
            let seenIds := Function.update state.seenIds runner (id :: state.seenIds runner)
            some (moveTo { state with seenIds } call .invoking)
      | .recording result resultHash =>
          let ledger := state.ledger.transition digest result resultHash
          some (moveTo { state with ledger } call .finished)
      | _ => none
  | state, .invoke call ending =>
      match state.phase call with
      | .invoking =>
          let next : CallPhase := match ending with
            | .result true resultHash => .recording .completed resultHash
            | .result false resultHash => .recording .failed resultHash
            | .noResult => .finished
          some (moveTo { state with invoked := state.invoked ++ [call] } call next)
      | _ => none
  | state, .revoked call =>
      match state.phase call with
      | .invoking => some (state.moveTo call .finished)
      | _ => none

/-- No action has had its handler invoked twice. -/
def AtMostOnce (calls : RunnerCalls Call Runner) (state : Racing Call Runner) : Prop :=
  state.invoked.Pairwise fun first second => calls.action first ≠ calls.action second

/-- A call that finds no row for its action makes this read while no other call of
the same action is between its own read and its INSERT. -/
def ReservesAlone (calls : RunnerCalls Call Runner) (state : Racing Call Runner) :
    RaceAction Call → Prop
  | .advance call =>
      state.phase call = .selecting → state.ledger.get (calls.digest call) = none →
        ∀ other, calls.digest other = calls.digest call →
          (state.phase other).unrecorded = false
  | _ => True

instance (calls : RunnerCalls Bool Runner) (state : Racing Bool Runner)
    (action : RaceAction Bool) : Decidable (state.ReservesAlone calls action) := by
  unfold ReservesAlone
  split <;> infer_instance

/-- At most one call of each action holds the reservation, and an action that is
recorded or invoked stays recorded. -/
structure Exclusive (calls : RunnerCalls Call Runner) (state : Racing Call Runner) :
    Prop where
  recorded : ∀ call, (state.phase call).reserving = true →
    (state.phase call).unrecorded = false → state.ledger (calls.digest call) ≠ none
  single : ∀ first second, (state.phase first).reserving = true →
    (state.phase second).reserving = true →
    calls.digest first = calls.digest second → first = second
  invokedRecorded : ∀ call ∈ state.invoked, state.ledger (calls.digest call) ≠ none
  invokedReleased : ∀ call ∈ state.invoked, ∀ other,
    (state.phase other).reserving = true → calls.digest other ≠ calls.digest call
  once : state.invoked.Pairwise fun first second =>
    calls.digest first ≠ calls.digest second

omit [DecidableEq Call] [DecidableEq Runner] in
theorem exclusive_start (calls : RunnerCalls Call Runner) (ledger : ExecutionLedger) :
    (start ledger : Racing Call Runner).Exclusive calls where
  recorded := by simp [start, CallPhase.reserving]
  single := by simp [start, CallPhase.reserving]
  invokedRecorded := by simp [start]
  invokedReleased := by simp [start]
  once := by simp [start]

namespace Exclusive

variable {calls : RunnerCalls Call Runner} {state : Racing Call Runner}

/-- No other call holds the reservation of this call's action, and the action was
not invoked. -/
def Unclaimed (calls : RunnerCalls Call Runner) (state : Racing Call Runner)
    (call : Call) : Prop :=
  (∀ other, (state.phase other).reserving = true →
    calls.digest other = calls.digest call → other = call) ∧
  ∀ past ∈ state.invoked, calls.digest call ≠ calls.digest past

omit [DecidableEq Call] [DecidableEq Runner] in
theorem unclaimed (exclusive : state.Exclusive calls) {call : Call}
    (holds : (state.phase call).reserving = true) : Unclaimed calls state call :=
  ⟨fun _ reserving same => exclusive.single _ _ reserving holds same,
    fun past member => exclusive.invokedReleased past member call holds⟩

omit [DecidableEq Runner] in
/-- A call may move on when it is alone with its action, as long as no row goes
away and its own row is there once it is past the INSERT. -/
theorem move (exclusive : state.Exclusive calls) {call : Call} {phase : CallPhase}
    {ledger : ExecutionLedger} {seenIds : Runner → List String}
    (kept : ∀ digest, state.ledger digest ≠ none → ledger digest ≠ none)
    (alone : phase.reserving = true → Unclaimed calls state call)
    (present : phase.reserving = true → phase.unrecorded = false →
      ledger (calls.digest call) ≠ none) :
    ({ state with ledger, seenIds }.moveTo call phase).Exclusive calls := by
  constructor
  · intro other reserving recorded
    simp only [moveTo] at reserving recorded ⊢
    by_cases same : other = call
    · subst same
      rw [Function.update_self] at reserving recorded
      exact present reserving recorded
    · rw [Function.update_of_ne same] at reserving recorded
      exact kept _ (exclusive.recorded other reserving recorded)
  · intro first second firstHolds secondHolds equal
    simp only [moveTo] at firstHolds secondHolds
    by_cases firstSame : first = call
    · subst firstSame
      rw [Function.update_self] at firstHolds
      by_cases secondSame : second = first
      · exact secondSame.symm
      · rw [Function.update_of_ne secondSame] at secondHolds
        exact ((alone firstHolds).1 second secondHolds equal.symm).symm
    · rw [Function.update_of_ne firstSame] at firstHolds
      by_cases secondSame : second = call
      · subst secondSame
        rw [Function.update_self] at secondHolds
        exact (alone secondHolds).1 first firstHolds equal
      · rw [Function.update_of_ne secondSame] at secondHolds
        exact exclusive.single first second firstHolds secondHolds equal
  · intro past member
    exact kept _ (exclusive.invokedRecorded past member)
  · intro past member other reserving
    simp only [moveTo] at reserving
    by_cases same : other = call
    · subst same
      rw [Function.update_self] at reserving
      exact (alone reserving).2 past member
    · rw [Function.update_of_ne same] at reserving
      exact exclusive.invokedReleased past member other reserving
  · exact exclusive.once

omit [DecidableEq Runner] in
/-- A call may move on to where it reserves nothing. -/
theorem release (exclusive : state.Exclusive calls) {call : Call} {phase : CallPhase}
    {ledger : ExecutionLedger} {seenIds : Runner → List String}
    (kept : ∀ digest, state.ledger digest ≠ none → ledger digest ≠ none)
    (released : phase.reserving = false) :
    ({ state with ledger, seenIds }.moveTo call phase).Exclusive calls := by
  apply exclusive.move kept
  · intro reserving
    cases released.symm.trans reserving
  · intro reserving
    cases released.symm.trans reserving

omit [DecidableEq Call] [DecidableEq Runner] in
/-- The read of `_reserve_action`: under the condition, a call that finds no row
is alone with its action. -/
theorem unclaimed_of_no_row (exclusive : state.Exclusive calls) {call : Call}
    (selecting : state.phase call = .selecting)
    (absent : state.ledger.get (calls.digest call) = none)
    (alone : state.ReservesAlone calls (.advance call)) : Unclaimed calls state call := by
  constructor
  · intro other reserving same
    have recorded := exclusive.recorded other reserving (alone selecting absent other same)
    rw [same] at recorded
    exact absurd absent recorded
  · intro past member same
    have recorded := exclusive.invokedRecorded past member
    rw [← same] at recorded
    exact absurd absent recorded

omit [DecidableEq Runner] in
theorem invoke (exclusive : state.Exclusive calls) {call : Call}
    (invoking : state.phase call = .invoking) {next : CallPhase}
    (released : next.reserving = false) :
    ({ state with invoked := state.invoked ++ [call] }.moveTo call next).Exclusive
      calls := by
  have holds : (state.phase call).reserving = true := by rw [invoking]; rfl
  have alone := exclusive.unclaimed holds
  have moved : ({ state with ledger := state.ledger }.moveTo call next).Exclusive calls :=
    exclusive.move (fun _ present => present)
      (fun reserving => by simp [released] at reserving)
      (fun reserving => by simp [released] at reserving)
  refine ⟨moved.recorded, moved.single, ?_, ?_, ?_⟩
  · intro past member
    rcases List.mem_append.mp member with earlier | latest
    · exact exclusive.invokedRecorded past earlier
    · rw [List.mem_singleton.mp latest]
      exact exclusive.recorded call holds (by rw [invoking]; rfl)
  · intro past member other reserving same
    rcases List.mem_append.mp member with earlier | latest
    · exact moved.invokedReleased past earlier other reserving same
    · rw [List.mem_singleton.mp latest] at same
      simp only [moveTo] at reserving
      by_cases different : other = call
      · subst different
        rw [Function.update_self, released] at reserving
        cases reserving
      · rw [Function.update_of_ne different] at reserving
        exact different (alone.1 other reserving same)
  · refine List.pairwise_append.mpr ⟨exclusive.once, List.pairwise_singleton _ _, ?_⟩
    intro past member latest isLatest
    rw [List.mem_singleton.mp isLatest]
    exact (alone.2 past member).symm

/-- One step of any call keeps the reservation exclusive. -/
theorem step {next : Racing Call Runner} {action : RaceAction Call}
    (exclusive : state.Exclusive calls) (alone : state.ReservesAlone calls action)
    (stepped : Racing.step calls state action = some next) : next.Exclusive calls := by
  cases action with
  | gate call passes =>
      simp only [Racing.step] at stepped
      cases current : state.phase call <;> simp only [current] at stepped
      case gating =>
        cases stepped
        cases passes <;>
          exact exclusive.release (fun _ present => present) rfl
      all_goals cases stepped
  | revoked call =>
      simp only [Racing.step] at stepped
      cases current : state.phase call <;> simp only [current] at stepped
      case invoking =>
        cases stepped
        exact exclusive.release (fun _ present => present) rfl
      all_goals cases stepped
  | invoke call ending =>
      simp only [Racing.step] at stepped
      cases current : state.phase call <;> simp only [current] at stepped
      case invoking =>
        cases stepped
        apply exclusive.invoke current
        rcases ending with ⟨success, _⟩ | _
        · cases success <;> rfl
        · rfl
      all_goals cases stepped
  | advance call =>
      simp only [Racing.step] at stepped
      cases current : state.phase call <;> simp only [current] at stepped
      case selecting =>
        cases row : state.ledger.get (calls.digest call) <;>
          simp only [row] at stepped <;> cases stepped
        · exact exclusive.move (fun _ present => present)
            (fun _ => exclusive.unclaimed_of_no_row current row alone)
            (fun _ recorded => by cases recorded)
        · exact exclusive.release (fun _ present => present) rfl
      case beginning =>
        have holds : Unclaimed calls state call :=
          exclusive.unclaimed (by rw [current]; rfl)
        cases row : state.ledger.get (calls.digest call) with
        | none =>
            simp only [row, ExecutionLedger.beginDecision] at stepped
            cases stepped
            exact exclusive.move (fun _ present => present) (fun _ => holds)
              (fun _ recorded => by cases recorded)
        | some existing =>
            have present : state.ledger (calls.digest call) ≠ none := by
              intro absent
              rw [ExecutionLedger.get, absent] at row
              cases row
            simp only [row, ExecutionLedger.beginDecision] at stepped
            split at stepped <;> cases stepped <;>
              exact exclusive.move (fun _ kept => kept) (fun _ => holds)
                (fun _ _ => present)
      case inserting =>
        cases stepped
        exact exclusive.move (fun _ => ExecutionLedger.ne_none_of_insertOrIgnore)
          (fun _ => exclusive.unclaimed (by rw [current]; rfl))
          (fun _ _ => ExecutionLedger.insertOrIgnore_ne_none state.ledger
            (ExecutionLedger.startedRecord (calls.digest call) _ _))
      case restarting attempt =>
        cases stepped
        have present := exclusive.recorded call (by rw [current]; rfl) (by rw [current]; rfl)
        exact exclusive.move (fun _ => ExecutionLedger.ne_none_of_update)
          (fun _ => exclusive.unclaimed (by rw [current]; rfl))
          (fun _ _ => ExecutionLedger.ne_none_of_update present)
      case rereading =>
        cases stepped
        exact exclusive.move (fun _ present => present)
          (fun _ => exclusive.unclaimed (by rw [current]; rfl))
          (fun _ _ => exclusive.recorded call (by rw [current]; rfl) (by rw [current]; rfl))
      case claiming =>
        split at stepped <;> cases stepped
        · exact exclusive.release (fun _ present => present) rfl
        · exact exclusive.move (fun _ present => present)
            (fun _ => exclusive.unclaimed (by rw [current]; rfl))
            (fun _ _ => exclusive.recorded call (by rw [current]; rfl)
              (by rw [current]; rfl))
      case recording result resultHash =>
        cases stepped
        exact exclusive.release (fun _ => ExecutionLedger.ne_none_of_update) rfl
      all_goals cases stepped

end Exclusive

/-- In every run in which each call reserves alone, no action is invoked twice. -/
theorem atMostOnce_of_reservesAlone {calls : RunnerCalls Call Runner}
    {ledger : ExecutionLedger} {actions : List (RaceAction Call)}
    {state : Racing Call Runner}
    (alone : StepFunction.Meets (step calls) (ReservesAlone calls) (start ledger) actions)
    (reached : StepFunction.run (step calls) (start ledger) actions = some state) :
    state.AtMostOnce calls := by
  have exclusive : state.Exclusive calls :=
    StepFunction.invariant_of_meets
      (fun _ _ _ holds meets stepped => Exclusive.step holds meets stepped)
      (exclusive_start calls ledger) alone reached
  exact exclusive.once.imp fun different same =>
    different (calls.digest_eq_of_action_eq same)

/-- Two plan steps with the same tool and arguments, on one runner. -/
def sameToolTwice : RunnerCalls Bool Unit where
  runner := fun _ => ()
  call := fun call =>
    { id := if call then "b" else "a", taskId := "t", tool := "mail.send" }
  tool := fun _ => { name := "mail.send" }
  sha256 := id
  distinctIds := by decide

/-- Both calls read before either inserts its row. -/
def readTwiceThenInsert : List (RaceAction Bool) :=
  [.gate false true, .gate true true, .advance false, .advance true,
    .advance false, .advance true, .advance false, .advance true,
    .advance false, .advance true, .advance false, .advance true,
    .invoke false (.result true ""), .invoke true (.result true "")]

theorem readTwiceThenInsert_invokes_twice :
    ∃ state, StepFunction.run (step sameToolTwice) (start fun _ => none)
        readTwiceThenInsert = some state ∧
      ¬state.AtMostOnce sameToolTwice := by
  refine ⟨_, rfl, fun once => ?_⟩
  exact (List.pairwise_cons.mp once).1 true (by decide) rfl

/-- One call after the other reserves alone; the second is refused. -/
def oneAfterTheOther : List (RaceAction Bool) :=
  [.gate false true, .advance false, .advance false, .advance false, .advance false,
    .advance false, .invoke false (.result true ""), .gate true true, .advance true]

theorem oneAfterTheOther_atMostOnce :
    ∃ state, StepFunction.run (step sameToolTwice) (start fun _ => none)
        oneAfterTheOther = some state ∧
      state.AtMostOnce sameToolTwice :=
  ⟨_, rfl, @atMostOnce_of_reservesAlone _ _ _ _ sameToolTwice (fun _ => none)
    oneAfterTheOther _ (by decide) rfl⟩

end Racing

end Raphael.Tools
