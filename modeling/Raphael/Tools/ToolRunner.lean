import Raphael.Core.Events
import Raphael.Security.AuthorizationManager
import Raphael.Tools.ExecutionLedger

/-! # The tool runner

Validation, authorization, durable identity and execution of one tool call, with
an authorization manager as the authorizer. -/

namespace Raphael.Tools

open Core
open Security

/-- What the runner takes from outside, with the redaction of what it publishes. -/
structure RunnerExternals extends Externals where
  safePayload : Arguments → Json
  looksLikeSecret : String → Bool
  outputSnippet : Json → String
  reprOutput : Json → String

structure ToolRunner where
  registry : ToolRegistry
  authorizer : AuthorizationManager
  /-- The authorizer decides on the same registry. -/
  shared : authorizer.registry = registry := by rfl
  /-- A sandbox runs the handler in its own way. -/
  sandbox : Tool → ToolHandler → ToolHandler
  sandboxProfiles : List String := []

/-- A handler that was invoked, with the permission it was invoked under. -/
structure Invocation where
  tool : Tool
  arguments : Arguments
  permission : Permission

/-- What one call of `run` reads and writes. -/
structure RunState where
  call : ToolCall
  approvals : Option ApprovalStore := none
  ledger : Option ExecutionLedger := none
  seenIds : List String := []
  events : List Event := []
  invocations : List Invocation := []

/-- What a call returns or raises, and what it leaves behind. -/
abbrev RunEnd := Except Error ToolResult × RunState

namespace ToolRunner

variable (externals : RunnerExternals) (surroundings : Surroundings)
  (runner : ToolRunner)

def safeError (error : String) : String :=
  if externals.looksLikeSecret error then "***" else error

def emit (state : RunState) (eventType : EventType) (payload : List (String × Json)) :
    RunState :=
  { state with
    events := state.events ++ [{ eventType, taskId := state.call.taskId, payload }] }

def withStatus (state : RunState) (status : ToolCallStatus) : RunState :=
  { state with call := { state.call with status } }

/-- Rejected arguments are not kept. -/
def redacted (state : RunState) : RunState :=
  { state with call := { state.call with arguments := [("redacted", .bool true)] } }

def failure (state : RunState) (error : String) : RunEnd :=
  (.ok { taskId := state.call.taskId, toolCallId := state.call.id, error := some error },
    state)

def fail (state : RunState) (error : String) : RunEnd :=
  let error := safeError externals error
  failure (emit (withStatus state .failed) .toolFailed
    [("tool", .str state.call.tool), ("call_id", .str state.call.id),
      ("error", .str error)]) error

def deny (state : RunState) (reason : String) : RunEnd :=
  let reason := safeError externals reason
  failure (emit (withStatus state .denied) .permissionDenied
    [("tool", .str state.call.tool), ("call_id", .str state.call.id),
      ("reason", .str reason)]) reason

/-- What the guard of the tool objects to. -/
def objection (call : ToolCall) : Option String :=
  match runner.registry.argumentGuard call.tool with
  | none => none
  | some guard =>
      match guard call.arguments with
      | .error _ => some "tool argument privacy check failed"
      | .ok none => none
      | .ok (some text) => if text == "" then none else some text

/-- Everything before the authorization: the tool of a call that passes. -/
def screen (state : RunState) : Except RunEnd (Tool × RunState) :=
  let call := state.call
  if surroundings.cancelled .start then
    .error (failure (withStatus state .failed) "cancelled before execution")
  else
    match runner.registry.get call.tool with
    | none =>
        .error (fail externals (redacted state) ("unknown tool " ++ Text.repr call.tool))
    | some tool =>
        if tool.capabilities.contains "mcp-external" &&
            (runner.registry.argumentGuard call.tool).isNone then
          .error (fail externals (redacted state)
            "MCP tool privacy guard is unavailable or revoked")
        else
          match runner.objection call with
          | some blocked => .error (fail externals (redacted state) blocked)
          | none =>
              let state := emit state .toolRequested
                [("tool", .str call.tool), ("call_id", .str call.id),
                  ("arguments", externals.safePayload call.arguments)]
              match checkArguments externals.schemaErrors tool call.arguments with
              | .error error => .error (.error error, state)
              | .ok (problem :: problems) =>
                  .error (fail externals state (Text.join "; " (problem :: problems)))
              | .ok [] => .ok (tool, withStatus state .validated)

/-- The text of an approval id in an event. -/
def approvalText (permission : Permission) : String :=
  match permission.approvalId with
  | some place => externals.identities.approvalId place
  | none => ""

/-- The first half of `_await_human`: what the human decides. -/
def awaitDecision (permission : Permission) (state : RunState) : Permission × RunState :=
  let approvalId := approvalText externals permission
  let call := state.call
  let requested := emit state .approvalRequested
    [("tool", .str call.tool), ("call_id", .str call.id),
      ("approval_id", .str approvalId), ("reason", .str permission.reason)]
  let (awaited, approvals) := AuthorizationManager.awaitApproval
    externals.toExternals surroundings permission state.approvals
  let decided : Permission :=
    if surroundings.cancelled .waited then
      { awaited with
        decision := .denied
        reason := "task cancelled while awaiting approval" }
    else awaited
  (decided, emit { requested with approvals } .approvalDecided
    [("tool", .str call.tool), ("call_id", .str call.id),
      ("approval_id", .str approvalId), ("decision", .str decided.decision.value)])

/-- `_await_human`: a grant by a human holds for this exact action only. -/
def awaitHuman (tool : Tool) (permission : Permission) (state : RunState) :
    Permission × RunState :=
  let (decided, state) := awaitDecision externals surroundings permission state
  if decided.decision == .granted then
    let (matching, approvals) := runner.authorizer.checkApproval externals.toExternals
      surroundings decided tool state.call state.approvals
    if matching then (decided, { state with approvals })
    else
      ({ decided with
          decision := .denied
          reason := "approval does not match this exact action" },
        { state with approvals })
  else (decided, state)

/-- The permission behind the authorizer, waiting for a human if it is pending. -/
def settle (tool : Tool) (permission : Permission) (state : RunState) :
    Permission × RunState :=
  if permission.decision == .pending then
    awaitHuman externals surroundings runner tool permission state
  else (permission, state)

/-- The authorization, up to the last look at the cancellation. -/
def permit (tool : Tool) (state : RunState) : Except RunEnd (Permission × RunState) :=
  let (authorized, approvals) := runner.authorizer.authorize externals.toExternals
    surroundings state.call.taskId tool state.call state.approvals
  let state := { state with approvals }
  match authorized with
  | .error error =>
      .error (deny externals state
        (match error with
        | .domainValidation _ | .planValidation _ | .authorizationDenied .. => error.text
        | _ => "authorizer error: " ++ error.text))
  | .ok permission =>
      let (permission, state) := settle externals surroundings runner tool permission state
      if permission.decision != .granted then
        .error (deny externals state ("denied: " ++ permission.reason))
      else if surroundings.cancelled .last then
        .error (failure (withStatus state .denied) "cancelled before execution")
      else .ok (permission, state)

/-- `tool.action_identity or call.tool`. -/
def semanticTool (tool : Tool) (call : ToolCall) : String :=
  if tool.actionIdentity == "" then call.tool else tool.actionIdentity

/-- `_reserve_action`: the exact semantic action is reserved; call ids made up by
a model are not an identity. -/
def reserve (tool : Tool) (state : RunState) : Except RunEnd (String × RunState) :=
  let call := state.call
  let semantic := semanticTool tool call
  let digest := actionHash externals.identities.sha256 call.taskId semantic call.arguments
  match state.ledger.bind (·.get digest) with
  | some record =>
      .error (deny externals state ("action already has durable state " ++
        record.state.value ++ "; reconcile before replay"))
  | none =>
      let state := { state with
        ledger := state.ledger.map (·.begin digest call.taskId semantic) }
      if state.seenIds.contains call.id then
        .error (deny externals state
          ("duplicate call id " ++ Text.repr call.id ++ ": already executed"))
      else .ok (digest, { state with seenIds := call.id :: state.seenIds })

/-- How an exception of the handler, or of the sandbox, is reported. -/
def crashText (crash : String) (error : Error) : String :=
  match error with
  | .toolExecution _ | .toolTimeout _ | .domainValidation _ | .planValidation _ => error.text
  | _ => crash ++ error.text

/-- `_finish`, and the reports of a handler that returns no tool result. -/
def finish (tool : Tool) (identity crash : String) (state : RunState) :
    HandlerOutcome → RunEnd
  | .deadline =>
      fail externals state (Error.timedOut state.call.tool tool.timeoutS).text
  | .otherValue typeName =>
      fail externals state ("handler for " ++ Text.repr state.call.tool ++ " returned " ++
        typeName)
  | .raised error => fail externals state (crashText crash error)
  | .result result =>
      let call := state.call
      let result := { result with taskId := call.taskId, toolCallId := call.id }
      let state := withStatus state (if result.success then .completed else .failed)
      let state := emit state (if result.success then .toolCompleted else .toolFailed)
        [("tool", .str call.tool), ("call_id", .str call.id),
          ("action_hash", .str identity),
          ("output_snippet", .str (externals.outputSnippet result.output)),
          ("error", .str (safeError externals (result.error.getD "")))]
      let digest := externals.identities.sha256 (externals.reprOutput result.output)
      let outcome := if result.success then .completed else .failed
      (.ok result, { state with
        ledger := state.ledger.map (·.transition identity outcome digest) })

/-- Run the handler, recording its invocation. -/
def invoke (tool : Tool) (permission : Permission) (identity crash : String)
    (handler : ToolHandler) (state : RunState) : RunEnd :=
  let invocation : Invocation := { tool, arguments := state.call.arguments, permission }
  let state := { state with
    approvals := state.approvals.map
      (surroundings.before externals.identities .invoking)
    invocations := state.invocations ++ [invocation] }
  finish externals tool identity crash state (handler state.call.arguments)

/-- A tool that needs a sandbox has a profile; the terminal has one of its own. -/
def hasProfile (tool : Tool) : Bool :=
  runner.sandboxProfiles.contains tool.sandboxProfile || tool.sandboxProfile == "terminal"

def execute (tool : Tool) (permission : Permission) (identity : String)
    (state : RunState) : RunEnd :=
  let call := state.call
  let state := emit state .permissionGranted
    [("tool", .str call.tool), ("call_id", .str call.id),
      ("approval_id", .str (approvalText externals permission)),
      ("action_hash", .str identity)]
  let state := emit (withStatus state .execute) .toolStarted
    [("tool", .str call.tool), ("call_id", .str call.id), ("action_hash", .str identity)]
  match runner.registry.handler call.tool with
  | none => fail externals state "tool was revoked before execution"
  | some handler =>
      if tool.requiresSandbox then
        if runner.hasProfile tool then
          invoke externals surroundings tool permission identity "sandbox crashed: "
            (runner.sandbox tool handler) state
        else
          fail externals state ("tool " ++ Text.repr call.tool ++
            " requires unknown sandbox profile " ++ Text.repr tool.sandboxProfile)
      else
        invoke externals surroundings tool permission identity "handler crashed: " handler
          state

def run (state : RunState) : RunEnd :=
  match screen externals surroundings runner state with
  | .error ended => ended
  | .ok (tool, state) =>
      match permit externals surroundings runner tool state with
      | .error ended => ended
      | .ok (permission, state) =>
          match reserve externals tool state with
          | .error ended => ended
          | .ok (identity, state) =>
              execute externals surroundings runner tool permission identity state

end ToolRunner

end Raphael.Tools
