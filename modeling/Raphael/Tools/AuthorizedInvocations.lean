import Raphael.Tools.AuthorizationGate

/-! # When an invocation is authorized

The runner invokes a handler only with a permission that the policy grants by
itself, or on an approval in time of exactly this action. The exception is a call
for no task, which `pending` lets wait for the approval of any other task. -/

namespace Raphael.Tools

open Core
open Security

namespace ToolRunner

/-! ## The gate -/

/-- The store holds a request decided APPROVED before its expiry for exactly this
task, tool, arguments and policy. -/
def ExactlyApproved (runner : ToolRunner) (call : ToolCall) (tool : Tool)
    (approvals : Option ApprovalStore) : Prop :=
  ∃ (store : ApprovalStore) (place : Nat) (request : ApprovalRequest),
    approvals = some store ∧ store.requests[place]? = some request ∧
    request.ApprovedInTime ∧ request.taskId = call.taskId ∧ request.tool = tool.name ∧
    SameArguments request.arguments call.arguments ∧
    request.policy = runner.authorizer.policy.name

structure Authorized (externals : RunnerExternals) (surroundings : Surroundings)
    (runner : ToolRunner) (call : ToolCall) (invocation : Invocation)
    (approvals : Option ApprovalStore) : Prop where
  registered : runner.registry.get call.tool = some invocation.tool
  arguments : invocation.arguments = call.arguments
  unobjected : ∀ guard, runner.registry.argumentGuard call.tool = some guard →
    guard call.arguments = .ok none ∨ guard call.arguments = .ok (some "")
  valid : checkArguments externals.schemaErrors invocation.tool call.arguments = .ok []
  running : surroundings.cancelled .last = false
  granted : invocation.permission.decision = .granted
  allowed : ruledOut externals runner call invocation.tool = false
  licence :
    (needsHuman externals runner call invocation.tool = false ∧
      levelOrder (level externals runner call invocation.tool) ≤
        levelOrder runner.authorizer.policy.autoGrantUpTo) ∨
    (needsHuman externals runner call invocation.tool = true ∧
      ExactlyApproved runner call invocation.tool approvals)

/-- The digest tells the action of the call apart from the actions of the store. -/
def DistinguishesActions (externals : RunnerExternals) (runner : ToolRunner)
    (call : ToolCall) (tool : Tool) (approvals : Option ApprovalStore) : Prop :=
  ∀ store, approvals = some store → ∀ request ∈ store.requests,
    Separates externals.identities.sha256
      (approvalDocument request.tool request.arguments request.policy)
      (approvalDocument tool.name call.arguments runner.authorizer.policy.name)

/-- What has been done with a store since it was made. -/
structure StoreHistory where
  defaultTtl : Int := 900000000
  operations : List StoreOperation := []

def StoreHistory.store (identities : Identities) (history : StoreHistory) :
    ApprovalStore :=
  ApprovalStore.after identities { defaultTtl := history.defaultTtl } history.operations

/-- The state a call is run in. -/
def opening (externals : RunnerExternals) (call : ToolCall)
    (history : Option StoreHistory) (ledger : Option ExecutionLedger)
    (seenIds : List String) : RunState where
  call := call
  approvals := history.map (·.store externals.identities)
  ledger := ledger
  seenIds := seenIds

/-- Whatever happened to the store before, and whatever happens around the call, a
handler is only invoked when that is authorized. -/
def AuthorizesInvocations (externals : RunnerExternals) (runner : ToolRunner)
    (call : ToolCall) : Prop :=
  ∀ (history : Option StoreHistory) (ledger : Option ExecutionLedger)
    (seenIds : List String) (surroundings : Surroundings) (invocation : Invocation),
    let ended := (run externals surroundings runner
      (opening externals call history ledger seenIds)).2
    invocation ∈ ended.invocations →
    DistinguishesActions externals runner call invocation.tool ended.approvals →
    Authorized externals surroundings runner call invocation ended.approvals

/-- The call passes every check up to the approval gate, and has to pass that. -/
def ReachesApproval (externals : RunnerExternals) (runner : ToolRunner)
    (call : ToolCall) : Prop :=
  ∃ tool, Screened externals runner call tool ∧
    ruledOut externals runner call tool = false ∧
    needsHuman externals runner call tool = true ∧
    (tool.requiresSandbox = true → runner.hasProfile tool = true)

variable {externals : RunnerExternals} {runner : ToolRunner} {call : ToolCall}
  {surroundings : Surroundings} {tool : Tool}

private theorem opening_isValid {history : Option StoreHistory}
    {ledger : Option ExecutionLedger} {seenIds : List String} {store : ApprovalStore}
    (present : (opening externals call history ledger seenIds).approvals = some store) :
    store.IsValid externals.identities.sha256 := by
  rcases Option.map_eq_some_iff.mp present with ⟨history, -, rfl⟩
  exact ApprovalStore.after_isValid externals.identities rfl history.operations

private theorem unobjected_of_objection (unobjected : runner.objection call = none)
    {guard : ArgumentGuard}
    (guarded : runner.registry.argumentGuard call.tool = some guard) :
    guard call.arguments = .ok none ∨ guard call.arguments = .ok (some "") := by
  simp only [objection, guarded] at unobjected
  split at unobjected
  · cases unobjected
  · next silent => exact .inl silent
  · next text objected =>
      split_ifs at unobjected with empty
      exact .inr (by rw [objected, beq_iff_eq.mp empty])

/-- An approval for a call of a task is an approval of exactly its action. -/
private theorem exactlyApproved_of_holds {approvals : Option ApprovalStore}
    (named : call.taskId ≠ "")
    (valid : ∀ store, approvals = some store →
      store.IsValid externals.identities.sha256)
    (distinguishes : DistinguishesActions externals runner call tool approvals)
    (holds : HoldsApproval externals runner call tool approvals) :
    ExactlyApproved runner call tool approvals := by
  rcases holds with ⟨store, place, request, reached, present, sameTask, approved⟩
  have member := List.mem_of_getElem? present
  rcases (valid store reached request member).exact_of_approves approved
      (distinguishes store reached request member) with
    ⟨inTime, sameTool, sameArguments, samePolicy⟩
  exact ⟨store, place, request, reached, present, inTime, sameTask named, sameTool,
    sameArguments, samePolicy⟩

/-- A call of a task, and a call that does not reach the approval gate, is invoked
only when that is authorized. -/
theorem authorizes_of_named
    (sound : call.taskId ≠ "" ∨ ¬ ReachesApproval externals runner call) :
    AuthorizesInvocations externals runner call := by
  intro history ledger seenIds surroundings invocation ended invoked distinguishes
  have fresh : (opening externals call history ledger seenIds).invocations = [] := rfl
  rcases run_invoked fresh invoked with ⟨gated, led⟩
  have valid := led.isValid fun store present => opening_isValid present
  refine ⟨gated.screened.registered, gated.arguments,
    fun guard => unobjected_of_objection gated.screened.unobjected, gated.screened.valid,
    gated.running, gated.granted, gated.licensed.allowed, ?_⟩
  refine gated.licensed.licence.imp_right fun ⟨human, holds⟩ => ⟨human, ?_⟩
  have named : call.taskId ≠ "" := sound.resolve_right fun unreached =>
    unreached ⟨invocation.tool, gated.screened, gated.licensed.allowed, human,
      gated.profiled⟩
  exact exactlyApproved_of_holds named valid distinguishes holds

/-! ## The approval of another task -/

/-- Another task asks for the approval of the same action, and still waits. -/
def foreignRequest (runner : ToolRunner) (call : ToolCall) (tool : Tool) :
    StoreOperation :=
  .request 0 "another task" tool.name call.arguments "" "" runner.authorizer.policy.name
    (some 1)

/-- While the call waits, the human approves the one request there is. -/
def humanApproves : Surroundings where
  clock := fun _ => 0
  others := fun moment =>
    if moment = .poll 0 then [.decide 0 0 true "operator"] else []
  polls := 1

/-- The request of the other task. -/
def foreign (externals : RunnerExternals) (runner : ToolRunner) (call : ToolCall)
    (tool : Tool) : ApprovalRequest where
  taskId := "another task"
  tool := tool.name
  arguments := call.arguments
  argumentsHash := approvalHash externals.identities.sha256 tool.name call.arguments
    runner.authorizer.policy.name
  policy := runner.authorizer.policy.name
  expiresAt := some 1

/-- The same request, approved. -/
def foreignApproved (externals : RunnerExternals) (runner : ToolRunner) (call : ToolCall)
    (tool : Tool) : ApprovalRequest :=
  { foreign externals runner call tool with
    status := .approved
    decidedAt := some 0
    decidedBy := "operator" }

private theorem gate_waits (noTask : call.taskId = "") (assessment : RiskAssessment) :
    ∃ permission, runner.authorizer.approvalGate externals.toExternals humanApproves
        call.taskId tool call assessment
        (some { requests := [foreign externals runner call tool] }) =
      (.ok permission, some { requests := [foreign externals runner call tool] }) ∧
      permission.decision = .pending ∧ permission.approvalId = some 0 := by
  simp [AuthorizationManager.approvalGate, Surroundings.before, humanApproves,
    ApprovalStore.after, ApprovalStore.findValid, ApprovalStore.findValidIn, foreign,
    ApprovalStore.request, ApprovalStore.sweepExpired, ApprovalRequest.expireOne,
    ApprovalRequest.hasExpired, ApprovalRequest.isPendingFor, noTask]

private theorem wait_grants {permission : Permission}
    (pending : permission.decision = .pending) (waitsFor : permission.approvalId = some 0) :
    ∃ reason, AuthorizationManager.awaitApproval externals.toExternals humanApproves
        permission (some { requests := [foreign externals runner call tool] }) =
      ({ permission with decision := .granted, reason },
        some { requests := [foreignApproved externals runner call tool] }) := by
  simp [AuthorizationManager.awaitApproval, AuthorizationManager.awaitPolls, pending,
    waitsFor, Surroundings.cancelled, Surroundings.before, humanApproves,
    ApprovalStore.after, StoreOperation.apply, ApprovalStore.decide,
    ApprovalStore.sweepExpired, ApprovalStore.get, ApprovalRequest.expireOne,
    ApprovalRequest.hasExpired, foreign, foreignApproved]

private theorem check_accepts {permission : Permission}
    (waitsFor : permission.approvalId = some 0) :
    runner.authorizer.checkApproval externals.toExternals humanApproves permission tool call
        (some { requests := [foreignApproved externals runner call tool] }) =
      (true, some { requests := [foreignApproved externals runner call tool] }) := by
  simp [AuthorizationManager.checkApproval, waitsFor, Surroundings.before, humanApproves,
    ApprovalStore.after, ApprovalStore.verify, ApprovalRequest.expireOne,
    ApprovalRequest.approves, foreign, foreignApproved]

private theorem settle_grants {state : RunState} {permission : Permission}
    (holding : state.approvals =
      some { requests := [foreign externals runner state.call tool] })
    (pending : permission.decision = .pending) (waitsFor : permission.approvalId = some 0) :
    ∃ granted next,
      settle externals humanApproves runner tool permission state = (granted, next) ∧
      granted.decision = .granted ∧ next.call = state.call ∧
      next.approvals =
        some { requests := [foreignApproved externals runner state.call tool] } ∧
      next.ledger = state.ledger ∧ next.seenIds = state.seenIds ∧
      next.invocations = state.invocations := by
  rcases @wait_grants externals runner state.call tool permission pending waitsFor with
    ⟨reason, waited⟩
  have checked := @check_accepts externals runner state.call tool
    { permission with decision := .granted, reason } waitsFor
  simp only [settle, pending, beq_self_eq_true, if_true, awaitHuman, awaitDecision, holding,
    waited]
  simp only [Surroundings.cancelled, humanApproves] at checked ⊢
  simp [emit, checked]

private theorem permit_grants {state : RunState}
    (screened : Screened externals runner state.call tool)
    (allowed : ruledOut externals runner state.call tool = false)
    (human : needsHuman externals runner state.call tool = true)
    (noTask : state.call.taskId = "")
    (holding : state.approvals =
      some { requests := [foreign externals runner state.call tool] }) :
    ∃ permission next,
      permit externals humanApproves runner tool state = .ok (permission, next) ∧
      next.call = state.call ∧
      next.approvals =
        some { requests := [foreignApproved externals runner state.call tool] } ∧
      next.ledger = state.ledger ∧ next.seenIds = state.seenIds ∧
      next.invocations = state.invocations := by
  rcases @authorize_of_screened externals humanApproves runner state tool screened
    state.approvals with ⟨reason, ruling⟩
  simp only [allowed, human, Bool.false_eq_true, if_false, if_true, holding] at ruling
  rcases @gate_waits externals runner state.call tool noTask
    (runner.authorizer.assessment externals.toExternals state.call.taskId
      runner.authorizer.context.agentId tool state.call) with
    ⟨asked, gate, pending, waitsFor⟩
  rw [gate] at ruling
  rcases @settle_grants externals runner tool { state with
      approvals := some { requests := [foreign externals runner state.call tool] } }
    asked rfl pending waitsFor with ⟨granted, next, settled, isGranted, keeps⟩
  refine ⟨granted, next, ?_, keeps⟩
  simp only [permit, holding, ruling, settled, isGranted]
  rfl

private theorem execute_invokes {state : RunState} {permission : Permission}
    {identity : String} (registered : runner.registry.get state.call.tool = some tool)
    (profiled : tool.requiresSandbox = true → runner.hasProfile tool = true) :
    (execute externals surroundings runner tool permission identity state).2.invocations ≠
      [] := by
  rcases Option.isSome_iff_exists.mp (ToolRegistry.handler_isSome_of_get registered) with
    ⟨handler, found⟩
  simp only [execute, found]
  split_ifs with sandboxed known
  · simp [invoke, (finish_keeps _ _ _).1]
  · exact absurd (profiled sandboxed) known
  · simp [invoke, (finish_keeps _ _ _).1]

private theorem reserve_new {state : RunState} (noLedger : state.ledger = none)
    (unseen : state.seenIds = []) :
    ∃ identity, reserve externals tool state =
      .ok (identity, { state with seenIds := [state.call.id] }) := by
  rcases state with ⟨call, approvals, ledger, seenIds, events, invocations⟩
  subst noLedger unseen
  exact ⟨_, rfl⟩

/-- A call for no task that reaches the gate is invoked on the approval of another
task. -/
theorem foreignApproval_invokes (noTask : call.taskId = "")
    (screened : Screened externals runner call tool)
    (allowed : ruledOut externals runner call tool = false)
    (human : needsHuman externals runner call tool = true)
    (profiled : tool.requiresSandbox = true → runner.hasProfile tool = true) :
    let ended := (run externals humanApproves runner
      (opening externals call
        (some { operations := [foreignRequest runner call tool] }) none [])).2
    ended.approvals = some { requests := [foreignApproved externals runner call tool] } ∧
      ∃ invocation ∈ ended.invocations, invocation.tool = tool := by
  intro ended
  let start := opening externals call
    (some { operations := [foreignRequest runner call tool] }) none []
  have passes : Screened externals runner start.call tool := screened
  have screening : screen externals humanApproves runner start =
      .ok (tool, ToolRunner.screened externals start) := screen_eq_ok passes rfl
  have holding : (ToolRunner.screened externals start).approvals =
      some { requests := [foreign externals runner call tool] } := rfl
  rcases permit_grants passes.behind allowed human noTask holding with
    ⟨permission, permitted, permitting, sameCall, approved, ledger, seenIds, fresh⟩
  rcases @reserve_new externals tool permitted ledger seenIds with ⟨identity, reserving⟩
  have reached : ended = (execute externals humanApproves runner tool permission identity
      { permitted with seenIds := [permitted.call.id] }).2 := by
    simp only [ended, run]
    rw [show opening externals call _ none [] = start from rfl]
    simp only [screening, permitting, reserving]
  have registered : runner.registry.get permitted.call.tool = some tool := by
    rw [sameCall]
    exact screened.registered
  rcases List.exists_mem_of_ne_nil _ (@execute_invokes externals runner humanApproves tool
    { permitted with seenIds := [permitted.call.id] } permission identity registered
    profiled) with ⟨invocation, invoked⟩
  rcases execute_invoked invoked fresh with ⟨rfl, -, approvals⟩
  rw [reached]
  refine ⟨?_, _, invoked, rfl⟩
  rw [approvals, approved]
  rfl

/-- The approval is not one of the call. -/
theorem not_exactlyApproved_foreign {invoked : Tool} (noTask : call.taskId = "") :
    ¬ ExactlyApproved runner call invoked
      (some { requests := [foreignApproved externals runner call tool] }) := by
  rintro ⟨store, place, request, reached, present, -, sameTask, -⟩
  obtain rfl := Option.some.inj reached
  obtain rfl : request = foreignApproved externals runner call tool := by
    simpa using List.mem_of_getElem? present
  rw [noTask] at sameTask
  simp [foreignApproved, foreign] at sameTask

/-- That invocation is not authorized. -/
private theorem not_authorized_on_foreign {invocation : Invocation}
    (noTask : call.taskId = "")
    (human : needsHuman externals runner call invocation.tool = true) :
    ¬ Authorized externals surroundings runner call invocation
      (some { requests := [foreignApproved externals runner call tool] }) := by
  intro authorized
  rcases authorized.licence with ⟨free, -⟩ | ⟨-, approved⟩
  · simp [human] at free
  · exact not_exactlyApproved_foreign noTask approved

theorem distinguishes_foreign :
    DistinguishesActions externals runner call tool
      (some { requests := [foreignApproved externals runner call tool] }) := by
  intro store reached request member
  obtain rfl := Option.some.inj reached
  obtain rfl := List.mem_singleton.mp member
  exact fun _ => rfl

/-- The runner authorizes every invocation of a call exactly when the call is of a
task, or does not reach the approval gate. -/
theorem authorizesInvocations_iff :
    AuthorizesInvocations externals runner call ↔
      call.taskId ≠ "" ∨ ¬ ReachesApproval externals runner call := by
  refine ⟨fun authorizes => ?_, authorizes_of_named⟩
  by_contra unsound
  simp only [not_or, ne_eq, not_not] at unsound
  rcases unsound with ⟨noTask, tool, screened, allowed, human, profiled⟩
  rcases foreignApproval_invokes noTask screened allowed human profiled with
    ⟨approvals, invocation, invoked, rfl⟩
  have authorized := authorizes _ _ _ _ invocation invoked
    (approvals ▸ distinguishes_foreign)
  exact not_authorized_on_foreign noTask human (approvals ▸ authorized)

/-! ## A call for no task -/

def notesTool : Tool where
  name := "notes.delete"
  requiresApproval := true

def notesRunner : ToolRunner where
  registry := { entries := [{ tool := notesTool, handler := fun _ => .result {
    success := true } }] }
  authorizer := { registry := { entries := [{ tool := notesTool, handler := fun _ => .result {
    success := true } }] } }
  sandbox := fun _ handler => handler

def notesCall : ToolCall where
  id := "call-1"
  tool := "notes.delete"

/-- Lower-case names, no paths and no secrets: nothing outside matters. -/
def plainExternals : RunnerExternals where
  platform :=
    { lower := id
      basename := id
      isAbsolute := fun _ => false
      isBelow := fun _ _ => true }
  identities := { sha256 := id, approvalId := toString }
  schemaErrors := fun _ _ => .ok []
  safePayload := .obj
  looksLikeSecret := fun _ => false
  outputSnippet := Json.text
  reprOutput := Json.repr

/-- The approval of another task lets a call for no task through. -/
theorem noTaskCall_invoked_unauthorized :
    let ended := (run plainExternals humanApproves notesRunner
      (opening plainExternals notesCall
        (some { operations := [foreignRequest notesRunner notesCall notesTool] })
        none [])).2
    ∃ invocation ∈ ended.invocations,
      DistinguishesActions plainExternals notesRunner notesCall invocation.tool
        ended.approvals ∧
      ¬ Authorized plainExternals humanApproves notesRunner notesCall invocation
        ended.approvals := by
  intro ended
  have screened : Screened plainExternals notesRunner notesCall notesTool :=
    ⟨rfl, by decide, rfl, rfl⟩
  have noTask : notesCall.taskId = "" := rfl
  rcases foreignApproval_invokes noTask screened rfl rfl (by decide) with
    ⟨approvals, invocation, invoked, sameTool⟩
  refine ⟨invocation, invoked, ?_, ?_⟩
  · rw [approvals, sameTool]
    exact distinguishes_foreign
  · rw [approvals, ← sameTool]
    exact not_authorized_on_foreign rfl (by rw [sameTool]; rfl)

end ToolRunner

end Raphael.Tools
