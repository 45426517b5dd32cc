import Raphael.Tools.AuthorizedInvocations

/-! # What a call leaves in the ledger

One call of `run` while the registry changes: the contract of the tool, its guard, the
authorizer and its handler are each read from the registry as it stands then. A sandbox
reports how far the handler has come. -/

namespace Raphael.Tools

open Core
open Security

/-- The readings of the registry in one call. -/
inductive RegistryReading
  | contract
  | guard
  | authorization
  | handler
  deriving DecidableEq

/-- How far the handler has come when the call goes on without it. -/
inductive HandlerProgress
  | notStarted
  | unfinished
  | finished
  deriving DecidableEq

/-- What is known of a handler when the call goes on. -/
structure HandlerReport where
  progress : HandlerProgress
  outcome : HandlerOutcome

/-- A handler that exceeds its deadline goes on in its thread. -/
def HandlerOutcome.progress : HandlerOutcome → HandlerProgress
  | .deadline => .unfinished
  | .result _ | .otherValue _ | .raised _ => .finished

/-- The handler was started, and returned a tool result if it has finished. -/
def HandlerReport.Conclusive (report : HandlerReport) : Prop :=
  report.progress ≠ .notStarted ∧
    (report.progress = .finished → ∃ result, report.outcome = .result result)

namespace ToolRunner

section Changing

variable (externals : RunnerExternals) (surroundings : Surroundings)

/-- The runner, with its registry as it stands at each reading. -/
abbrev Readings := RegistryReading → ToolRunner

/-- The sandbox runs a handler and reports on it. -/
abbrev Sandbox := Tool → ToolHandler → Arguments → HandlerReport

/-- `screen`, with the contract and the guard from two readings. -/
def screenReadings (readings : Readings) (state : RunState) :
    Except RunEnd (Tool × RunState) :=
  let call := state.call
  if surroundings.cancelled .start then
    .error (failure (withStatus state .failed) "cancelled before execution")
  else
    match (readings .contract).registry.get call.tool with
    | none =>
        .error (fail externals (redacted state) ("unknown tool " ++ Text.repr call.tool))
    | some tool =>
        if tool.capabilities.contains "mcp-external" &&
            ((readings .guard).registry.argumentGuard call.tool).isNone then
          .error (fail externals (redacted state)
            "MCP tool privacy guard is unavailable or revoked")
        else
          match (readings .guard).objection call with
          | some blocked => .error (fail externals (redacted state) blocked)
          | none =>
              let state := emit state .toolRequested
                [("tool", .str call.tool), ("call_id", .str call.id),
                  ("arguments", externals.safePayload call.arguments)]
              match checkArguments externals.schemaErrors tool call.arguments with
              | .error error => .error (.error error, state)
              | .ok (problem :: problems) =>
                  .error (fail externals state (Text.join "; " (problem :: problems)))
              | .ok [] => .ok (tool, withStatus state .validated)

/-- The half of `execute` before the handler: the handler, and the state in which it is
started. -/
def dispatch (runner : ToolRunner) (tool : Tool) (permission : Permission)
    (identity : String) (state : RunState) : Except RunEnd (ToolHandler × RunState) :=
  let call := state.call
  let state := emit state .permissionGranted
    [("tool", .str call.tool), ("call_id", .str call.id),
      ("approval_id", .str (approvalText externals permission)),
      ("action_hash", .str identity)]
  let state := emit (withStatus state .execute) .toolStarted
    [("tool", .str call.tool), ("call_id", .str call.id), ("action_hash", .str identity)]
  match runner.registry.handler call.tool with
  | none => .error (fail externals state "tool was revoked before execution")
  | some handler =>
      if tool.requiresSandbox && !runner.hasProfile tool then
        .error (fail externals state ("tool " ++ Text.repr call.tool ++
          " requires unknown sandbox profile " ++ Text.repr tool.sandboxProfile))
      else .ok (handler, state)

/-- What becomes of the handler, in the sandbox or on its own. -/
def report (sandbox : Sandbox) (tool : Tool) (handler : ToolHandler)
    (arguments : Arguments) : HandlerReport :=
  if tool.requiresSandbox then sandbox tool handler arguments
  else ⟨(handler arguments).progress, handler arguments⟩

/-- The state in which the report of a handler is taken in. -/
def reported (tool : Tool) (permission : Permission) (progress : HandlerProgress)
    (state : RunState) : RunState :=
  if progress = .notStarted then state
  else { state with
    approvals := state.approvals.map (surroundings.before externals.identities .invoking)
    invocations := state.invocations ++
      [{ tool, arguments := state.call.arguments, permission }] }

/-- `execute`, with the handler from its own reading. -/
def executeReadings (readings : Readings) (sandbox : Sandbox) (tool : Tool)
    (permission : Permission) (identity : String) (state : RunState) :
    RunEnd × HandlerProgress :=
  match dispatch externals (readings .handler) tool permission identity state with
  | .error ended => (ended, .notStarted)
  | .ok (handler, state) =>
      let report := report sandbox tool handler state.call.arguments
      (finish externals tool identity
          (if tool.requiresSandbox then "sandbox crashed: " else "handler crashed: ")
          (reported externals surroundings tool permission report.progress state)
          report.outcome,
        report.progress)

/-- What follows a granted permission: the reservation, and the execution under it. -/
def reserveReadings (readings : Readings) (sandbox : Sandbox) (tool : Tool)
    (permission : Permission) (state : RunState) : RunEnd × HandlerProgress :=
  match reserve externals tool state with
  | .error ended => (ended, .notStarted)
  | .ok (identity, state) =>
      executeReadings externals surroundings readings sandbox tool permission identity state

/-- `run` while the registry changes, with the progress of the handler. -/
def runReadings (readings : Readings) (sandbox : Sandbox) (state : RunState) :
    RunEnd × HandlerProgress :=
  match screenReadings externals surroundings readings state with
  | .error ended => (ended, .notStarted)
  | .ok (tool, state) =>
      match permit externals surroundings (readings .authorization) tool state with
      | .error ended => (ended, .notStarted)
      | .ok (permission, state) =>
          reserveReadings externals surroundings readings sandbox tool permission state

end Changing

variable {externals : RunnerExternals} {surroundings : Surroundings}
  {readings : Readings} {sandbox : Sandbox} {state next : RunState} {tool : Tool}
  {permission : Permission}

/-! ## A registry that stays as it is -/

theorem screenReadings_const (runner : ToolRunner) (state : RunState) :
    screenReadings externals surroundings (fun _ => runner) state =
      screen externals surroundings runner state := rfl

theorem execute_eq_dispatch (runner : ToolRunner) (tool : Tool) (permission : Permission)
    (identity : String) (state : RunState) :
    execute externals surroundings runner tool permission identity state =
      match dispatch externals runner tool permission identity state with
      | .error ended => ended
      | .ok (handler, state) =>
          invoke externals surroundings tool permission identity
            (if tool.requiresSandbox then "sandbox crashed: " else "handler crashed: ")
            (if tool.requiresSandbox then runner.sandbox tool handler else handler) state := by
  simp only [execute, dispatch]
  cases runner.registry.handler state.call.tool with
  | none => rfl
  | some handler =>
      cases sandboxed : tool.requiresSandbox with
      | false => simp
      | true =>
          cases profiled : runner.hasProfile tool with
          | false => simp
          | true => simp

/-- Under a registry that does not change and a sandbox that starts every handler, the
call is the one of `run`. -/
theorem runReadings_const (runner : ToolRunner)
    (sandboxes : ∀ tool handler arguments,
      (sandbox tool handler arguments).outcome = runner.sandbox tool handler arguments ∧
        (sandbox tool handler arguments).progress ≠ .notStarted)
    (state : RunState) :
    (runReadings externals surroundings (fun _ => runner) sandbox state).1 =
      run externals surroundings runner state := by
  unfold runReadings run
  rw [screenReadings_const]
  cases screen externals surroundings runner state with
  | error ended => rfl
  | ok screened =>
      rcases screened with ⟨tool, state⟩
      dsimp only
      cases permit externals surroundings runner tool state with
      | error ended => rfl
      | ok permitted =>
          rcases permitted with ⟨permission, state⟩
          dsimp only
          unfold reserveReadings
          cases reserve externals tool state with
          | error ended => rfl
          | ok reserved =>
              rcases reserved with ⟨identity, state⟩
              dsimp only
              rw [execute_eq_dispatch, executeReadings]
              cases dispatch externals runner tool permission identity state with
              | error ended => rfl
              | ok dispatched =>
                  rcases dispatched with ⟨handler, state⟩
                  have reports := sandboxes tool handler state.call.arguments
                  cases sandboxed : tool.requiresSandbox with
                  | true => simp [report, sandboxed, reported, reports, invoke]
                  | false =>
                      have started : (handler state.call.arguments).progress ≠ .notStarted := by
                        cases handler state.call.arguments <;> simp [HandlerOutcome.progress]
                      simp [report, sandboxed, reported, started, invoke]

/-! ## What the phases leave of the ledger -/

/-- The phase has left the ledger and the seen ids, and the call but for its status. -/
structure SameReservation (state next : RunState) : Prop where
  ledger : next.ledger = state.ledger
  seenIds : next.seenIds = state.seenIds
  id : next.call.id = state.call.id
  taskId : next.call.taskId = state.call.taskId
  tool : next.call.tool = state.call.tool
  arguments : next.call.arguments = state.call.arguments

theorem SameReservation.trans {middle : RunState} (first : SameReservation state middle)
    (second : SameReservation middle next) : SameReservation state next where
  ledger := second.ledger.trans first.ledger
  seenIds := second.seenIds.trans first.seenIds
  id := second.id.trans first.id
  taskId := second.taskId.trans first.taskId
  tool := second.tool.trans first.tool
  arguments := second.arguments.trans first.arguments

theorem settle_reservation {runner : ToolRunner} :
    SameReservation state
      (settle externals surroundings runner tool permission state).2 := by
  unfold settle
  split
  · simp only [awaitHuman]
    split_ifs <;> exact ⟨rfl, rfl, rfl, rfl, rfl, rfl⟩
  · exact ⟨rfl, rfl, rfl, rfl, rfl, rfl⟩

theorem screenReadings_reservation
    (passed : screenReadings externals surroundings readings state = .ok (tool, next)) :
    SameReservation state next ∧
      (readings .contract).registry.get state.call.tool = some tool := by
  unfold screenReadings at passed
  dsimp only at passed
  split_ifs at passed
  split at passed
  · cases passed
  · next found registered =>
      split_ifs at passed
      split at passed
      · cases passed
      · split at passed
        · cases passed
        · cases passed
        · cases passed
          exact ⟨⟨rfl, rfl, rfl, rfl, rfl, rfl⟩, registered⟩

theorem screenReadings_stopped {ended : RunEnd}
    (stopped : screenReadings externals surroundings readings state = .error ended) :
    ended.2.ledger = state.ledger := by
  unfold screenReadings at stopped
  dsimp only at stopped
  split_ifs at stopped
  · cases stopped
    rfl
  · split at stopped
    · cases stopped
      rfl
    · split_ifs at stopped
      · cases stopped
        rfl
      · split at stopped
        · cases stopped
          rfl
        · split at stopped
          · cases stopped
            rfl
          · cases stopped
            rfl
          · cases stopped

theorem permit_reservation {runner : ToolRunner}
    (passed : permit externals surroundings runner tool state = .ok (permission, next)) :
    SameReservation state next := by
  simp only [permit] at passed
  split at passed
  · cases passed
  · next ruled authorized =>
      have same := @settle_reservation externals surroundings { state with
        approvals := (runner.authorizer.authorize externals.toExternals surroundings
          state.call.taskId tool state.call state.approvals).2 } tool ruled runner
      split_ifs at passed
      cases passed
      exact ⟨same.ledger, same.seenIds, same.id, same.taskId, same.tool, same.arguments⟩

theorem permit_stopped {runner : ToolRunner} {ended : RunEnd}
    (stopped : permit externals surroundings runner tool state = .error ended) :
    ended.2.ledger = state.ledger := by
  simp only [permit] at stopped
  split at stopped
  · cases stopped
    rfl
  · next ruled authorized =>
      have same := @settle_reservation externals surroundings { state with
        approvals := (runner.authorizer.authorize externals.toExternals surroundings
          state.call.taskId tool state.call state.approvals).2 } tool ruled runner
      split_ifs at stopped
      · cases stopped
        exact same.ledger
      · cases stopped
        exact same.ledger

/-! ## What a call owes the ledger -/

/-- The digest that `_reserve_action` reserves for a call. -/
def identityOf (externals : RunnerExternals) (tool : Tool) (call : ToolCall) : String :=
  actionHash externals.identities.sha256 call.taskId (semanticTool tool call) call.arguments

theorem SameReservation.identity (same : SameReservation state next) (tool : Tool) :
    identityOf externals tool next.call = identityOf externals tool state.call := by
  simp only [identityOf, semanticTool, same.taskId, same.tool, same.arguments]

/-- The row of the action is COMPLETED or FAILED, as the result says. -/
def RowSettled (externals : RunnerExternals) (tool : Tool) (call : ToolCall)
    (ledger : Option ExecutionLedger) (success : Bool) : Prop :=
  ∃ rows record, ledger = some rows ∧ rows (identityOf externals tool call) = some record ∧
    record.state = if success then .completed else .failed

/-- A call that returns without having invoked its handler has left the ledger as it was,
and one whose handler has finished has settled the row of its action. -/
def SettlesLedger (externals : RunnerExternals) (readings : Readings) (before : RunState)
    (ended : RunEnd × HandlerProgress) : Prop :=
  ∀ result, ended.1.1 = .ok result →
    (ended.2 = .notStarted → ended.1.2.ledger = before.ledger) ∧
    (ended.2 = .finished →
      ∃ tool, (readings .contract).registry.get before.call.tool = some tool ∧
        RowSettled externals tool before.call ended.1.2.ledger result.success)

/-- The call passes every gate, and there is no row for its action. -/
def Reserves (externals : RunnerExternals) (surroundings : Surroundings)
    (readings : Readings) (state : RunState) (tool : Tool) (next : RunState) : Prop :=
  ∃ first permission,
    screenReadings externals surroundings readings state = .ok (tool, first) ∧
    permit externals surroundings (readings .authorization) tool first =
      .ok (permission, next) ∧
    next.ledger.bind (·.get (identityOf externals tool next.call)) = none

/-- The call id is new to the runner, the handler is still there and has its sandbox
profile, and it is started and returns a tool result unless it exceeds its deadline. -/
def Concludes (readings : Readings) (sandbox : Sandbox) (tool : Tool) (next : RunState) :
    Prop :=
  next.seenIds.contains next.call.id = false ∧
    ∃ handler, (readings .handler).registry.handler next.call.tool = some handler ∧
      (tool.requiresSandbox = true → (readings .handler).hasProfile tool = true) ∧
      (report sandbox tool handler next.call.arguments).Conclusive

/-! ## The ledger behind the reservation -/

/-- The ledger with the row that `begin` has inserted. -/
def begun (externals : RunnerExternals) (tool : Tool) (call : ToolCall)
    (ledger : ExecutionLedger) : ExecutionLedger :=
  ledger.begin (identityOf externals tool call) call.taskId (semanticTool tool call)

variable {ledger : ExecutionLedger} {call : ToolCall}

theorem begun_row (absent : ledger (identityOf externals tool call) = none) :
    begun externals tool call ledger (identityOf externals tool call) =
      some (ExecutionLedger.startedRecord (identityOf externals tool call) call.taskId
        (semanticTool tool call)) := by
  simp [begun, ExecutionLedger.begin_of_absent absent]

/-- The inserted row is there, and it is not settled. -/
theorem begun_owes (absent : ledger (identityOf externals tool call) = none) :
    begun externals tool call ledger ≠ ledger ∧
      ∀ success, ¬RowSettled externals tool call
        (some (begun externals tool call ledger)) success := by
  constructor
  · intro same
    have row := @begun_row externals tool ledger call absent
    rw [same, absent] at row
    cases row
  · rintro success ⟨rows, record, same, found, settled⟩
    cases same
    rw [begun_row absent] at found
    cases found
    cases success <;> cases settled

/-! ## The exits behind the gates -/

theorem reserve_eq_deny {record : ExecutionRecord}
    (found : state.ledger.bind (·.get (identityOf externals tool state.call)) = some record) :
    reserve externals tool state = .error (deny externals state
      ("action already has durable state " ++ record.state.value ++
        "; reconcile before replay")) := by
  simp only [identityOf] at found
  simp only [reserve, found]

theorem reserve_of_row {record : ExecutionRecord}
    (found : state.ledger.bind (·.get (identityOf externals tool state.call)) = some record) :
    ∃ ended, reserve externals tool state = .error ended ∧
      ended.2.ledger = state.ledger := ⟨_, reserve_eq_deny found, rfl⟩

theorem reserve_of_seen
    (absent : state.ledger.bind (·.get (identityOf externals tool state.call)) = none)
    (seen : state.seenIds.contains state.call.id = true) :
    ∃ ended refusal, reserve externals tool state = .error ended ∧ ended.1 = .ok refusal ∧
      ended.2.ledger = state.ledger.map (begun externals tool state.call) := by
  simp only [identityOf] at absent
  simp only [reserve, absent, seen, if_true]
  exact ⟨_, _, rfl, rfl, rfl⟩

theorem reserve_of_new
    (absent : state.ledger.bind (·.get (identityOf externals tool state.call)) = none)
    (new : state.seenIds.contains state.call.id = false) :
    reserve externals tool state = .ok (identityOf externals tool state.call, { state with
      ledger := state.ledger.map (begun externals tool state.call)
      seenIds := state.call.id :: state.seenIds }) := by
  simp only [identityOf] at absent
  simp only [reserve, absent, new, Bool.false_eq_true, if_false]
  rfl

/-- A call that passes the gates ends where its reservation is denied. -/
theorem run_of_denied {runner : ToolRunner} {screened permitted : RunState}
    {permission : Permission} {ended : RunEnd}
    (screening : screen externals surroundings runner state = .ok (tool, screened))
    (permitting : permit externals surroundings runner tool screened =
      .ok (permission, permitted))
    (denied : reserve externals tool permitted = .error ended) :
    run externals surroundings runner state = ended := by
  simp only [run, screening, permitting, denied]

/-- A call that passes the gates and has its reservation is executed. -/
theorem run_of_reserved {runner : ToolRunner} {screened permitted reserved : RunState}
    {permission : Permission} {identity : String}
    (screening : screen externals surroundings runner state = .ok (tool, screened))
    (permitting : permit externals surroundings runner tool screened =
      .ok (permission, permitted))
    (reserving : reserve externals tool permitted = .ok (identity, reserved)) :
    run externals surroundings runner state =
      execute externals surroundings runner tool permission identity reserved := by
  simp only [run, screening, permitting, reserving]

/-- Either the handler or its sandbox profile is missing, and the call comes back, or the
handler is started. -/
theorem dispatch_cases (runner : ToolRunner) (identity : String) :
    (∃ ended failure, dispatch externals runner tool permission identity state =
        .error ended ∧ ended.1 = .ok failure ∧ ended.2.ledger = state.ledger ∧
      ∀ handler, runner.registry.handler state.call.tool = some handler →
        ¬(tool.requiresSandbox = true → runner.hasProfile tool = true)) ∨
    ∃ handler next, runner.registry.handler state.call.tool = some handler ∧
      (tool.requiresSandbox = true → runner.hasProfile tool = true) ∧
      dispatch externals runner tool permission identity state = .ok (handler, next) ∧
      SameReservation state next := by
  unfold dispatch
  dsimp only
  cases found : runner.registry.handler state.call.tool with
  | none => exact .inl ⟨_, _, rfl, rfl, rfl, fun _ present => by cases present⟩
  | some handler =>
      cases missing : tool.requiresSandbox && !runner.hasProfile tool with
      | true =>
          refine .inl ⟨_, _, rfl, rfl, rfl, fun _ _ profiled => ?_⟩
          simp only [Bool.and_eq_true, Bool.not_eq_true'] at missing
          rw [profiled missing.1] at missing
          cases missing.2
      | false =>
          refine .inr ⟨handler, _, rfl, fun needed => ?_, rfl, ⟨rfl, rfl, rfl, rfl, rfl, rfl⟩⟩
          simpa [needed] using missing

/-- A tool result settles the row; any other end of the handler leaves the ledger. -/
theorem finish_ledger (identity crash : String) (outcome : HandlerOutcome) :
    (∃ result returned, outcome = .result result ∧
        (finish externals tool identity crash state outcome).1 = .ok returned ∧
        returned.success = result.success ∧
        ∃ resultHash, (finish externals tool identity crash state outcome).2.ledger =
          state.ledger.map (·.transition identity
            (if returned.success then .completed else .failed) resultHash)) ∨
      ((¬∃ result, outcome = .result result) ∧
        ∃ returned, (finish externals tool identity crash state outcome).1 = .ok returned ∧
          (finish externals tool identity crash state outcome).2.ledger = state.ledger) := by
  cases outcome with
  | result result => exact .inl ⟨result, _, rfl, rfl, rfl, _, rfl⟩
  | otherValue typeName => exact .inr ⟨fun given => by rcases given with ⟨_, ⟨⟩⟩, _, rfl, rfl⟩
  | raised error => exact .inr ⟨fun given => by rcases given with ⟨_, ⟨⟩⟩, _, rfl, rfl⟩
  | deadline => exact .inr ⟨fun given => by rcases given with ⟨_, ⟨⟩⟩, _, rfl, rfl⟩

theorem finish_seenIds (identity crash : String) (outcome : HandlerOutcome) :
    (finish externals tool identity crash state outcome).2.seenIds = state.seenIds := by
  cases outcome with
  | result result => rfl
  | otherValue typeName => rfl
  | raised error => rfl
  | deadline => rfl

/-- Behind the reservation the handler is invoked once, where it is there and has its
sandbox profile. -/
theorem execute_eq_finish {runner : ToolRunner} {handler : ToolHandler}
    (found : runner.registry.handler state.call.tool = some handler)
    (profiled : tool.requiresSandbox = true → runner.hasProfile tool = true)
    (identity : String) :
    ∃ started crash, SameReservation state started ∧
      started.invocations = state.invocations ++
        [{ tool, arguments := state.call.arguments, permission }] ∧
      execute externals surroundings runner tool permission identity state =
        finish externals tool identity crash started
          ((if tool.requiresSandbox then runner.sandbox tool handler else handler)
            state.call.arguments) := by
  rw [execute_eq_dispatch]
  unfold dispatch
  have missing : (tool.requiresSandbox && !runner.hasProfile tool) = false := by
    cases needed : tool.requiresSandbox with
    | false => rfl
    | true => simp [profiled needed]
  simp only [found, missing, Bool.false_eq_true, if_false]
  refine ⟨_, _, ?_, ?_, rfl⟩
  · exact ⟨rfl, rfl, rfl, rfl, rfl, rfl⟩
  · rfl

/-- What a call owes once the contract of its tool is known. -/
def Pays (externals : RunnerExternals) (tool : Tool) (call : ToolCall)
    (ledger : ExecutionLedger) (ended : RunEnd × HandlerProgress) : Prop :=
  ∀ result, ended.1.1 = .ok result →
    (ended.2 = .notStarted → ended.1.2.ledger = some ledger) ∧
    (ended.2 = .finished → RowSettled externals tool call ended.1.2.ledger result.success)

/-- A report is paid for where it is conclusive. -/
private theorem pays_report_iff (report : HandlerReport) (crash : String)
    (absent : ledger (identityOf externals tool call) = none)
    (inserted : state.ledger = some (begun externals tool call ledger)) :
    Pays externals tool call ledger
        (finish externals tool (identityOf externals tool call) crash state report.outcome,
          report.progress) ↔
      report.Conclusive := by
  have owes := @begun_owes externals tool ledger call absent
  have row := @begun_row externals tool ledger call absent
  rcases @finish_ledger externals state tool (identityOf externals tool call) crash
    report.outcome with ⟨result, returned, isResult, returns, success, resultHash, written⟩ |
      ⟨noResult, returned, returns, kept⟩
  · rw [inserted, Option.map_some] at written
    constructor
    · intro pays
      refine ⟨fun notStarted => ?_, fun _ => ⟨result, isResult⟩⟩
      have same := (pays returned returns).1 notStarted
      rw [written] at same
      have atRow := congrFun (Option.some.inj same) (identityOf externals tool call)
      rw [ExecutionLedger.transition_self row, absent] at atRow
      cases atRow
    · rintro conclusive given isGiven
      rw [returns] at isGiven
      cases isGiven
      refine ⟨fun notStarted => absurd notStarted conclusive.1, fun _ => ?_⟩
      exact ⟨_, _, written, ExecutionLedger.transition_self row _ _, rfl⟩
  · rw [inserted] at kept
    constructor
    · intro pays
      have owed := pays returned returns
      rw [kept] at owed
      exact ⟨fun notStarted => owes.1 (Option.some.inj (owed.1 notStarted)),
        fun finished => absurd (owed.2 finished) (owes.2 _)⟩
    · rintro conclusive given isGiven
      refine ⟨fun notStarted => absurd notStarted conclusive.1, fun finished => ?_⟩
      exact absurd (conclusive.2 finished) noResult

theorem reported_ledger (progress : HandlerProgress) :
    (reported externals surroundings tool permission progress state).ledger =
      state.ledger := by
  unfold reported
  split_ifs <;> rfl

/-- Behind the reservation a call pays where its handler is there and its report is
conclusive. -/
private theorem pays_executed_iff
    (absent : ledger (identityOf externals tool state.call) = none)
    (inserted : state.ledger = some (begun externals tool state.call ledger)) :
    Pays externals tool state.call ledger
        (executeReadings externals surroundings readings sandbox tool permission
          (identityOf externals tool state.call) state) ↔
      ∃ handler, (readings .handler).registry.handler state.call.tool = some handler ∧
        (tool.requiresSandbox = true → (readings .handler).hasProfile tool = true) ∧
        (report sandbox tool handler state.call.arguments).Conclusive := by
  unfold executeReadings
  rcases @dispatch_cases externals state tool permission (readings .handler)
    (identityOf externals tool state.call) with
    ⟨ended, failure, dispatched, returns, kept, missing⟩ |
      ⟨handler, next, found, profiled, dispatched, same⟩
  · rw [dispatched]
    constructor
    · intro pays
      have unchanged := (pays failure returns).1 rfl
      rw [kept, inserted] at unchanged
      exact absurd (Option.some.inj unchanged) (begun_owes absent).1
    · rintro ⟨handler, found, profiled, _⟩
      exact absurd profiled (missing handler found)
  · rw [dispatched]
    dsimp only
    rw [pays_report_iff _ _ absent
      ((reported_ledger _).trans (same.ledger.trans inserted)), same.arguments]
    constructor
    · intro conclusive
      exact ⟨handler, found, profiled, conclusive⟩
    · rintro ⟨other, otherFound, _, conclusive⟩
      rw [found] at otherFound
      cases otherFound
      exact conclusive

/-- A call that has its permission pays where it finds a row for its action, or comes to
its end as it should. -/
private theorem pays_reserved_iff (held : state.ledger = some ledger) :
    Pays externals tool state.call ledger
        (reserveReadings externals surroundings readings sandbox tool permission state) ↔
      (state.ledger.bind (·.get (identityOf externals tool state.call)) = none →
        Concludes readings sandbox tool state) := by
  unfold reserveReadings
  cases row : state.ledger.bind (·.get (identityOf externals tool state.call)) with
  | some record =>
      rcases reserve_of_row row with ⟨ended, refused, kept⟩
      rw [refused]
      constructor
      · exact fun _ absent => by cases absent
      · intro _ result _
        exact ⟨fun _ => kept.trans held, nofun⟩
  | none =>
      have absent : ledger (identityOf externals tool state.call) = none := by
        rw [held] at row
        exact row
      cases seen : state.seenIds.contains state.call.id with
      | true =>
          rcases reserve_of_seen row seen with ⟨ended, refusal, refused, returns, kept⟩
          rw [refused]
          constructor
          · intro pays
            have unchanged := (pays refusal returns).1 rfl
            rw [kept, held] at unchanged
            exact absurd (Option.some.inj unchanged) (begun_owes absent).1
          · intro concludes
            have new := (concludes rfl).1
            rw [seen] at new
            cases new
      | false =>
          rw [reserve_of_new row seen]
          have inserted : state.ledger.map (begun externals tool state.call) =
              some (begun externals tool state.call ledger) := by rw [held, Option.map_some]
          rw [inserted]
          have executed := @pays_executed_iff externals surroundings readings sandbox
            { state with
              ledger := some (begun externals tool state.call ledger)
              seenIds := state.call.id :: state.seenIds } tool permission ledger absent rfl
          refine executed.trans ⟨fun ends _ => ⟨seen, ends⟩, fun concludes => (concludes rfl).2⟩

/-- What a call owes is a matter of the tool whose contract it has read. -/
private theorem settlesLedger_iff_pays {before : RunState} {ended : RunEnd × HandlerProgress}
    (registered : (readings .contract).registry.get before.call.tool = some tool)
    (present : before.ledger = some ledger) (same : SameReservation before next) :
    SettlesLedger externals readings before ended ↔
      Pays externals tool next.call ledger ended := by
  unfold SettlesLedger Pays RowSettled
  rw [present, same.identity]
  apply forall_congr'
  intro result
  apply imp_congr_right
  intro _
  apply and_congr_right
  intro _
  apply imp_congr_right
  intro _
  constructor
  · rintro ⟨other, found, settled⟩
    rw [registered] at found
    cases found
    exact settled
  · exact fun settled => ⟨tool, registered, settled⟩

/-- A call settles the ledger if and only if it does not come to reserve its action, or
its call id is new, its handler is still there and has its sandbox profile, and it is
started and returns a tool result unless it exceeds its deadline. -/
theorem settlesLedger_iff (externals : RunnerExternals) (surroundings : Surroundings)
    (readings : Readings) (sandbox : Sandbox) (ledger : ExecutionLedger) (state : RunState) :
    SettlesLedger externals readings { state with ledger := some ledger }
        (runReadings externals surroundings readings sandbox
          { state with ledger := some ledger }) ↔
      ∀ tool next, Reserves externals surroundings readings
          { state with ledger := some ledger } tool next →
        Concludes readings sandbox tool next := by
  generalize opening : ({ state with ledger := some ledger } : RunState) = before
  have present : before.ledger = some ledger := by rw [← opening]
  clear opening
  unfold runReadings
  cases screening : screenReadings externals surroundings readings before with
  | error ended =>
      constructor
      · rintro _ tool next ⟨first, permission, screened, _⟩
        rw [screening] at screened
        cases screened
      · intro _ result _
        exact ⟨fun _ => screenReadings_stopped screening, nofun⟩
  | ok screened =>
      rcases screened with ⟨tool, first⟩
      have ⟨sameFirst, registered⟩ := screenReadings_reservation screening
      dsimp only
      cases permitting : permit externals surroundings (readings .authorization) tool
          first with
      | error ended =>
          constructor
          · rintro _ other next ⟨otherFirst, permission, screened, permitted, _⟩
            rw [screening] at screened
            cases screened
            rw [permitting] at permitted
            cases permitted
          · intro _ result _
            exact ⟨fun _ => (permit_stopped permitting).trans sameFirst.ledger, nofun⟩
      | ok permitted =>
          rcases permitted with ⟨permission, next⟩
          have same := sameFirst.trans (permit_reservation permitting)
          dsimp only
          rw [settlesLedger_iff_pays registered present same,
            pays_reserved_iff (same.ledger.trans present)]
          -- The gates lead to one reservation only.
          constructor
          · rintro one _ _ ⟨_, _, screened, permitted, absent⟩
            rw [screening] at screened
            cases screened
            rw [permitting] at permitted
            cases permitted
            exact one absent
          · exact fun all absent =>
              all tool next ⟨first, permission, screening, permitting, absent⟩

/-! ## A tool that raises -/

def uploadTool : Tool where
  name := "upload.put"

/-- The handler of the tool raises a tool error. -/
def uploadRegistry : ToolRegistry where
  entries := [{
    tool := uploadTool
    handler := fun _ => .raised (.toolExecution "tool 'upload.put' failed: quota") }]

def uploadRunner : ToolRunner where
  registry := uploadRegistry
  authorizer := { registry := uploadRegistry }
  sandbox := fun _ handler => handler

def uploadOpening : RunState where
  call := { id := "call-1", taskId := "t", tool := "upload.put" }
  ledger := some fun _ => none

def uploadEnded : RunEnd × HandlerProgress :=
  runReadings plainExternals { clock := fun _ => 0, polls := 0 } (fun _ => uploadRunner)
    (fun _ handler arguments => ⟨.finished, handler arguments⟩) uploadOpening

/-- The handler has run and failed, and its row stays STARTED. -/
theorem raising_handler_unsettled :
    ¬SettlesLedger plainExternals (fun _ => uploadRunner) uploadOpening uploadEnded := by
  intro settles
  have started : uploadEnded.1.2.ledger.bind (fun rows =>
      (rows (identityOf plainExternals uploadTool uploadOpening.call)).map (·.state)) =
      some .started := by decide +kernel
  rcases (settles _ rfl).2 rfl with ⟨tool, registered, rows, record, same, found, settled⟩
  cases registered
  rw [same, Option.bind_some, found, Option.map_some, settled] at started
  cases started

end ToolRunner

end Raphael.Tools
