import Raphael.Security.Rulings
import Raphael.Tools.ToolRunner

/-! # The authorization gate

What holds whenever the runner invokes a handler: each phase of `run` adds what it
has checked, and no later phase takes it away. -/

namespace Raphael.Tools

open Core
open Security

namespace ToolRunner

variable {externals : RunnerExternals} {surroundings : Surroundings}
  {runner : ToolRunner} {state next : RunState} {tool : Tool} {permission : Permission}

/-! ## What the phases leave alone -/

@[simp] theorem emit_invocations (eventType : EventType)
    (payload : List (String × Json)) :
    (emit state eventType payload).invocations = state.invocations := rfl

@[simp] theorem emit_call (eventType : EventType) (payload : List (String × Json)) :
    (emit state eventType payload).call = state.call := rfl

@[simp] theorem withStatus_invocations (status : ToolCallStatus) :
    (withStatus state status).invocations = state.invocations := rfl

@[simp] theorem withStatus_arguments (status : ToolCallStatus) :
    (withStatus state status).call.arguments = state.call.arguments := rfl

@[simp] theorem redacted_invocations :
    (redacted state).invocations = state.invocations := rfl

@[simp] theorem failure_invocations (error : String) :
    (failure state error).2.invocations = state.invocations := rfl

@[simp] theorem fail_invocations (error : String) :
    (fail externals state error).2.invocations = state.invocations := rfl

@[simp] theorem deny_invocations (reason : String) :
    (deny externals state reason).2.invocations = state.invocations := rfl

theorem finish_keeps (identity crash : String) (outcome : HandlerOutcome) :
    (finish externals tool identity crash state outcome).2.invocations =
        state.invocations ∧
      (finish externals tool identity crash state outcome).2.approvals =
        state.approvals := by
  cases outcome with
  | result result => exact ⟨rfl, rfl⟩
  | otherValue typeName => exact ⟨rfl, rfl⟩
  | raised error => exact ⟨rfl, rfl⟩
  | deadline => exact ⟨rfl, rfl⟩

/-! ## The screening -/

/-- The call passes every check before the authorization. -/
structure Screened (externals : RunnerExternals) (runner : ToolRunner) (call : ToolCall)
    (tool : Tool) : Prop where
  registered : runner.registry.get call.tool = some tool
  guarded : tool.capabilities.contains "mcp-external" = true →
    (runner.registry.argumentGuard call.tool).isSome
  unobjected : runner.objection call = none
  valid : checkArguments externals.schemaErrors tool call.arguments = .ok []

/-- The state behind the screening. -/
def screened (externals : RunnerExternals) (state : RunState) : RunState :=
  withStatus (emit state .toolRequested
    [("tool", .str state.call.tool), ("call_id", .str state.call.id),
      ("arguments", externals.safePayload state.call.arguments)]) .validated

@[simp] theorem screened_invocations :
    (screened externals state).invocations = state.invocations := rfl

@[simp] theorem screened_arguments :
    (screened externals state).call.arguments = state.call.arguments := rfl

/-- The status of the call plays no part. -/
theorem Screened.behind (holds : Screened externals runner state.call tool) :
    Screened externals runner (screened externals state).call tool :=
  ⟨holds.registered, holds.guarded, holds.unobjected, holds.valid⟩

theorem screen_ok (passed : screen externals surroundings runner state = .ok (tool, next)) :
    Screened externals runner state.call tool ∧ next = screened externals state := by
  unfold screen at passed
  dsimp only at passed
  split_ifs at passed with cancelled
  split at passed
  · cases passed
  · next found registered =>
      split_ifs at passed with unguarded
      split at passed
      · cases passed
      · next unobjected =>
          split at passed
          · cases passed
          · cases passed
          · next valid =>
              cases passed
              refine ⟨⟨registered, fun external => ?_, unobjected, valid⟩, rfl⟩
              rw [external, Bool.true_and, Option.isNone_iff_eq_none] at unguarded
              exact Option.isSome_iff_ne_none.mpr unguarded

theorem screen_eq_ok (holds : Screened externals runner state.call tool)
    (running : surroundings.cancelled .start = false) :
    screen externals surroundings runner state = .ok (tool, screened externals state) := by
  have guarded : (tool.capabilities.contains "mcp-external" &&
      (runner.registry.argumentGuard state.call.tool).isNone) = false := by
    cases external : tool.capabilities.contains "mcp-external" with
    | false => rfl
    | true =>
        have := holds.guarded external
        simpa [Option.isSome_iff_ne_none] using this
  simp only [screen, running, Bool.false_eq_true, if_false, holds.registered, guarded,
    holds.unobjected]
  simp only [holds.valid, screened]

theorem screen_error {ended : RunEnd}
    (stopped : screen externals surroundings runner state = .error ended) :
    ended.2.invocations = state.invocations := by
  unfold screen at stopped
  dsimp only at stopped
  split_ifs at stopped with cancelled
  · cases stopped
    rfl
  · split at stopped
    · cases stopped
      rfl
    · split_ifs at stopped with unguarded
      · cases stopped
        rfl
      · split at stopped
        · cases stopped
          rfl
        · split at stopped
          · cases stopped
            rfl
          · cases stopped
            rfl
          · cases stopped

/-! ## The permission -/

/-- The risk a call is assessed at. -/
def level (externals : RunnerExternals) (runner : ToolRunner) (call : ToolCall)
    (tool : Tool) : RiskLevel :=
  (runner.authorizer.assessment externals.toExternals call.taskId
    runner.authorizer.context.agentId tool call).level

/-- The denials of the policy that no approval overrides rule the tool out. -/
def ruledOut (externals : RunnerExternals) (runner : ToolRunner) (call : ToolCall)
    (tool : Tool) : Bool :=
  runner.authorizer.policy.hardDenied
    (runner.authorizer.effectiveAgent runner.authorizer.context.agentId) tool.name
    (level externals runner call tool)

/-- The call needs a human. -/
def needsHuman (externals : RunnerExternals) (runner : ToolRunner) (call : ToolCall)
    (tool : Tool) : Bool :=
  runner.authorizer.needsApproval tool (level externals runner call tool)

/-- The store holds an approved request for the tool and the arguments. -/
def HoldsApproval (externals : RunnerExternals) (runner : ToolRunner) (call : ToolCall)
    (tool : Tool) (approvals : Option ApprovalStore) : Prop :=
  ∃ (store : ApprovalStore) (place : Nat) (request : ApprovalRequest),
    approvals = some store ∧ store.requests[place]? = some request ∧
    (call.taskId ≠ "" → request.taskId = call.taskId) ∧
    AuthorizationManager.Approved externals.toExternals runner.authorizer tool call request

/-- What stands behind a granted permission. -/
structure Licensed (externals : RunnerExternals) (runner : ToolRunner) (call : ToolCall)
    (tool : Tool) (approvals : Option ApprovalStore) : Prop where
  allowed : ruledOut externals runner call tool = false
  licence :
    (needsHuman externals runner call tool = false ∧
      levelOrder (level externals runner call tool) ≤
        levelOrder runner.authorizer.policy.autoGrantUpTo) ∨
    (needsHuman externals runner call tool = true ∧
      HoldsApproval externals runner call tool approvals)

/-- An approval stays in the store. -/
theorem HoldsApproval.of_leads {call : ToolCall} {approvals later : Option ApprovalStore}
    (holds : HoldsApproval externals runner call tool approvals)
    (leads : Leads externals.identities.sha256 approvals later) :
    HoldsApproval externals runner call tool later := by
  rcases holds with ⟨store, place, request, rfl, present, sameTask, approved⟩
  cases leads with
  | @some _ later leads =>
      have settled : request.status ≠ .pending := by
        simp only [AuthorizationManager.Approved, ApprovalRequest.approves,
          Bool.and_eq_true, beq_iff_eq] at approved
        simp [approved.1.1]
      rcases leads.persists place request present with ⟨kept, presentLater, -, same⟩
      obtain rfl := same settled
      exact ⟨later, place, kept, rfl, presentLater, sameTask, approved⟩

theorem Licensed.of_leads {call : ToolCall} {approvals later : Option ApprovalStore}
    (licensed : Licensed externals runner call tool approvals)
    (leads : Leads externals.identities.sha256 approvals later) :
    Licensed externals runner call tool later :=
  ⟨licensed.allowed, licensed.licence.imp_right fun human =>
    ⟨human.1, human.2.of_leads leads⟩⟩

/-- The status of the call plays no part. -/
theorem Licensed.before {approvals : Option ApprovalStore}
    (licensed : Licensed externals runner (screened externals state).call tool approvals) :
    Licensed externals runner state.call tool approvals :=
  ⟨licensed.allowed, licensed.licence⟩

theorem awaitDecision_leads :
    Leads externals.identities.sha256 state.approvals
      (awaitDecision externals surroundings permission state).2.approvals :=
  AuthorizationManager.awaitApproval_leads

theorem awaitDecision_approvalId :
    (awaitDecision externals surroundings permission state).1.approvalId =
      permission.approvalId := by
  have awaited := @AuthorizationManager.awaitApproval_approvalId externals.toExternals
    surroundings state.approvals permission
  simp only [awaitDecision]
  split_ifs
  · exact awaited
  · exact awaited

/-- Waiting for a human changes nothing of the call. -/
theorem awaitHuman_keeps :
    (awaitHuman externals surroundings runner tool permission state).2.call = state.call ∧
    (awaitHuman externals surroundings runner tool permission state).2.invocations =
      state.invocations := by
  simp only [awaitHuman]
  split_ifs <;> exact ⟨rfl, rfl⟩

theorem awaitHuman_leads :
    Leads externals.identities.sha256 state.approvals
      (awaitHuman externals surroundings runner tool permission state).2.approvals := by
  have decided := @awaitDecision_leads externals surroundings state permission
  simp only [awaitHuman]
  split_ifs
  · exact decided.trans AuthorizationManager.checkApproval_leads
  · exact decided.trans AuthorizationManager.checkApproval_leads
  · exact decided

/-- A human grant stands on an approved request with the id of the permission. -/
theorem awaitHuman_granted
    (granted : (awaitHuman externals surroundings runner tool permission
      state).1.decision = .granted) :
    ∃ (place : Nat) (store : ApprovalStore) (request : ApprovalRequest),
      permission.approvalId = some place ∧
      (awaitHuman externals surroundings runner tool permission state).2.approvals =
        some store ∧
      store.requests[place]? = some request ∧
      AuthorizationManager.Approved externals.toExternals runner.authorizer tool state.call
        request := by
  simp only [awaitHuman] at granted ⊢
  split_ifs at granted ⊢ with decided checked
  · rcases AuthorizationManager.checkApproval_true checked with
      ⟨place, store, request, identified, reached, present, approved⟩
    exact ⟨place, store, request, awaitDecision_approvalId ▸ identified, reached, present,
      approved⟩
  · exact absurd granted (by simpa using decided)

/-- What passing the authorization takes, phase by phase. -/
private theorem permit_ok_phases
    (passed : permit externals surroundings runner tool state = .ok (permission, next)) :
    ∃ ruled approvals,
      runner.authorizer.authorize externals.toExternals surroundings state.call.taskId tool
        state.call state.approvals = (.ok ruled, approvals) ∧
      settle externals surroundings runner tool ruled { state with approvals } =
        (permission, next) ∧
      permission.decision = .granted ∧ surroundings.cancelled .last = false := by
  simp only [permit] at passed
  split at passed
  · cases passed
  · next ruled authorized =>
      split_ifs at passed with refused cancelled
      simp only [Except.ok.injEq] at passed
      refine ⟨ruled, _, Prod.ext authorized rfl, passed, ?_, by simpa using cancelled⟩
      rw [(Prod.mk.inj passed).1] at refused
      simpa using refused

/-- A call that needs a human and is granted in the end has its approval. -/
private theorem holdsApproval_of_gate {assessment : RiskAssessment} {ruled : Permission}
    {approvals : Option ApprovalStore}
    (gate : runner.authorizer.approvalGate externals.toExternals surroundings
      state.call.taskId tool state.call assessment state.approvals = (.ok ruled, approvals))
    (settled : settle externals surroundings runner tool ruled { state with approvals } =
      (permission, next))
    (granted : permission.decision = .granted) :
    HoldsApproval externals runner state.call tool next.approvals := by
  cases decision : ruled.decision with
  | granted =>
      rcases AuthorizationManager.approvalGate_granted gate decision with
        ⟨store, place, request, reached, present, sameTask, approved⟩
      simp only [settle, decision, beq_iff_eq, reduceCtorEq, if_false,
        Prod.mk.injEq] at settled
      rw [← settled.2]
      exact ⟨store, place, request, reached, present, fun _ => sameTask, approved⟩
  | denied =>
      simp only [settle, decision, beq_iff_eq, reduceCtorEq, if_false,
        Prod.mk.injEq] at settled
      rw [← settled.1, decision] at granted
      cases granted
  | pending =>
      rcases AuthorizationManager.approvalGate_pending gate decision with
        ⟨store, place, rfl, identified, ofTask⟩
      simp only [settle, decision, beq_self_eq_true, if_true] at settled
      have awaited : (awaitHuman externals surroundings runner tool ruled
          { state with approvals := some store }).1.decision = .granted := by
        rw [settled]
        exact granted
      rcases awaitHuman_granted awaited with
        ⟨waitedPlace, later, request, waitedFor, reached, present, approved⟩
      obtain rfl : place = waitedPlace := Option.some.inj (identified.symm.trans waitedFor)
      have led := @awaitHuman_leads externals surroundings runner
        { state with approvals := some store } tool ruled
      rw [reached] at led
      rw [settled] at reached
      refine ⟨later, place, request, reached, present, fun named => ?_, approved⟩
      -- The request keeps the task it had when the call began to wait.
      rcases ofTask named with ⟨asked, asking, sameTask⟩
      cases led with
      | some led =>
          rcases led.persists place asked asking with ⟨kept, keeping, same, -⟩
          obtain rfl : kept = request := Option.some.inj (keeping.symm.trans present)
          exact same.taskId.trans sameTask

theorem settle_keeps :
    (settle externals surroundings runner tool permission state).2.call = state.call ∧
    (settle externals surroundings runner tool permission state).2.invocations =
      state.invocations ∧
    Leads externals.identities.sha256 state.approvals
      (settle externals surroundings runner tool permission state).2.approvals := by
  unfold settle
  split
  · exact ⟨awaitHuman_keeps.1, awaitHuman_keeps.2, awaitHuman_leads⟩
  · exact ⟨rfl, rfl, .refl _ _⟩

/-- A permission that the policy alone decides is not waited for. -/
private theorem settle_decide (taskId reason : String) (call : ToolCall)
    (granted : Bool) :
    settle externals surroundings runner tool
        (runner.authorizer.permissions.decide taskId call granted reason) state =
      (runner.authorizer.permissions.decide taskId call granted reason, state) := by
  cases granted <;> rfl

/-- The ruling on a call that passes the screening. -/
theorem authorize_of_screened (screened : Screened externals runner state.call tool)
    (approvals : Option ApprovalStore) :
    ∃ reason, runner.authorizer.authorize externals.toExternals surroundings
        state.call.taskId tool state.call approvals =
      let decide granted := (.ok (runner.authorizer.permissions.decide state.call.taskId
        state.call granted reason), approvals)
      let assessment := runner.authorizer.assessment externals.toExternals
        state.call.taskId runner.authorizer.context.agentId tool state.call
      if ruledOut externals runner state.call tool then decide false
      else if needsHuman externals runner state.call tool then
        runner.authorizer.approvalGate externals.toExternals surroundings
          state.call.taskId tool state.call assessment approvals
      else
        decide (runner.authorizer.policyEngine.evaluate assessment tool.name
          (runner.authorizer.effectiveAgent runner.authorizer.context.agentId)).1 := by
  have registered : runner.authorizer.registry.get tool.name = some tool := by
    rw [runner.shared, ToolRegistry.get_name screened.registered, screened.registered]
  exact ⟨_, AuthorizationManager.authorize_eq registered screened.valid⟩

/-- A permission that is granted in the end is licensed by what the store holds. -/
theorem permit_ok (screened : Screened externals runner state.call tool)
    (passed : permit externals surroundings runner tool state = .ok (permission, next)) :
    permission.decision = .granted ∧ surroundings.cancelled .last = false ∧
      next.call = state.call ∧ next.invocations = state.invocations ∧
      Leads externals.identities.sha256 state.approvals next.approvals ∧
      Licensed externals runner state.call tool next.approvals := by
  rcases permit_ok_phases passed with
    ⟨ruled, approvals, authorized, settled, granted, running⟩
  have keeps := @settle_keeps externals surroundings runner { state with approvals } tool
    ruled
  rw [settled] at keeps
  rcases authorize_of_screened screened state.approvals with ⟨reason, ruling⟩
  rw [authorized] at ruling
  dsimp only at ruling keeps
  split_ifs at ruling with denied human
  · simp only [Prod.mk.injEq, Except.ok.injEq] at ruling
    rw [ruling.1, settle_decide] at settled
    simp [← (Prod.mk.inj settled).1] at granted
  · have led : Leads externals.identities.sha256 state.approvals approvals := by
      rw [show approvals = _ from congrArg Prod.snd ruling]
      exact AuthorizationManager.approvalGate_leads _
    exact ⟨granted, running, keeps.1, keeps.2.1, led.trans keeps.2.2, by simpa using denied,
      .inr ⟨human, holdsApproval_of_gate ruling.symm settled granted⟩⟩
  · simp only [Prod.mk.injEq, Except.ok.injEq] at ruling
    rw [ruling.2] at keeps
    rw [ruling.1, settle_decide] at settled
    have within := granted
    rw [← (Prod.mk.inj settled).1, PermissionEngine.decide_granted] at within
    exact ⟨granted, running, keeps.1, keeps.2.1, keeps.2.2, by simpa using denied,
      .inl ⟨by simpa using human, PolicyEngine.evaluate_granted within⟩⟩

/-- A call in the grant band that needs no human is granted at once. -/
theorem permit_of_free (screened : Screened externals runner state.call tool)
    (allowed : ruledOut externals runner state.call tool = false)
    (free : needsHuman externals runner state.call tool = false)
    (granted : (runner.authorizer.policyEngine.evaluate
      (runner.authorizer.assessment externals.toExternals state.call.taskId
        runner.authorizer.context.agentId tool state.call) tool.name
      (runner.authorizer.effectiveAgent runner.authorizer.context.agentId)).1 = true)
    (running : surroundings.cancelled .last = false) :
    ∃ permission,
      permit externals surroundings runner tool state = .ok (permission, state) := by
  rcases @authorize_of_screened externals surroundings runner state tool screened
    state.approvals with ⟨reason, ruling⟩
  simp only [allowed, free, granted, Bool.false_eq_true, if_false] at ruling
  have settled := @settle_decide externals surroundings runner state tool
    state.call.taskId reason state.call true
  use runner.authorizer.permissions.decide state.call.taskId state.call true reason
  unfold permit
  simp only [ruling, settled, running]
  rfl

theorem permit_error {ended : RunEnd}
    (stopped : permit externals surroundings runner tool state = .error ended) :
    ended.2.invocations = state.invocations := by
  simp only [permit] at stopped
  split at stopped
  · cases stopped
    rfl
  · next ruled authorized =>
      have keeps := @settle_keeps externals surroundings runner { state with
        approvals := (runner.authorizer.authorize externals.toExternals surroundings
          state.call.taskId tool state.call state.approvals).2 } tool ruled
      split_ifs at stopped with refused cancelled
      · cases stopped
        exact keeps.2.1
      · cases stopped
        exact keeps.2.1

/-! ## Reservation and execution -/

theorem reserve_ok {identity : String}
    (reserved : reserve externals tool state = .ok (identity, next)) :
    next.call = state.call ∧ next.approvals = state.approvals ∧
      next.invocations = state.invocations := by
  simp only [reserve] at reserved
  split at reserved
  · cases reserved
  · split_ifs at reserved
    cases reserved
    exact ⟨rfl, rfl, rfl⟩

theorem reserve_error {ended : RunEnd}
    (refused : reserve externals tool state = .error ended) :
    ended.2.invocations = state.invocations := by
  simp only [reserve] at refused
  split at refused
  · cases refused
    rfl
  · split_ifs at refused
    cases refused
    rfl

/-- The store as the others leave it while the handler is invoked. -/
def invoking (externals : RunnerExternals) (surroundings : Surroundings)
    (approvals : Option ApprovalStore) : Option ApprovalStore :=
  approvals.map (surroundings.before externals.identities .invoking)

theorem invoking_leads (approvals : Option ApprovalStore) :
    Leads externals.identities.sha256 approvals
      (invoking externals surroundings approvals) := by
  cases approvals with
  | none => exact .none
  | some store => exact .some (ApprovalStore.leads_after _ _ _)

private theorem invoke_effect {identity crash : String} {handler : ToolHandler} :
    (invoke externals surroundings tool permission identity crash handler
        state).2.invocations =
      state.invocations ++ [{ tool, arguments := state.call.arguments, permission }] ∧
    (invoke externals surroundings tool permission identity crash handler
        state).2.approvals = invoking externals surroundings state.approvals := by
  unfold invoke
  exact ⟨(finish_keeps _ _ _).1, (finish_keeps _ _ _).2⟩

/-- Nothing but the handler of the tool is invoked, on the arguments of the call. -/
theorem execute_invoked {identity : String} {invocation : Invocation}
    (invoked : invocation ∈ (execute externals surroundings runner tool permission identity
      state).2.invocations)
    (fresh : state.invocations = []) :
    invocation = { tool, arguments := state.call.arguments, permission } ∧
      (tool.requiresSandbox = true → runner.hasProfile tool = true) ∧
      (execute externals surroundings runner tool permission identity state).2.approvals =
        invoking externals surroundings state.approvals := by
  simp only [execute] at invoked ⊢
  split at invoked
  · simp [fresh] at invoked
  · next handler found =>
      split_ifs at invoked ⊢ with sandboxed profiled
      · rw [invoke_effect.1] at invoked
        exact ⟨by simpa [fresh] using invoked, fun _ => profiled, invoke_effect.2⟩
      · simp [fresh] at invoked
      · rw [invoke_effect.1] at invoked
        exact ⟨by simpa [fresh] using invoked, fun needed => absurd needed sandboxed,
          invoke_effect.2⟩

/-! ## The whole call -/

/-- Everything that has been checked when a handler is invoked. -/
structure Gated (externals : RunnerExternals) (surroundings : Surroundings)
    (runner : ToolRunner) (call : ToolCall) (invocation : Invocation)
    (approvals : Option ApprovalStore) : Prop where
  screened : Screened externals runner call invocation.tool
  arguments : invocation.arguments = call.arguments
  running : surroundings.cancelled .last = false
  granted : invocation.permission.decision = .granted
  licensed : Licensed externals runner call invocation.tool approvals
  profiled : invocation.tool.requiresSandbox = true →
    runner.hasProfile invocation.tool = true

theorem run_invoked {invocation : Invocation} (fresh : state.invocations = [])
    (invoked : invocation ∈ (run externals surroundings runner state).2.invocations) :
    Gated externals surroundings runner state.call invocation
        (run externals surroundings runner state).2.approvals ∧
      Leads externals.identities.sha256 state.approvals
        (run externals surroundings runner state).2.approvals := by
  unfold run at invoked ⊢
  cases screening : screen externals surroundings runner state with
  | error ended =>
      simp [screening, screen_error screening, fresh] at invoked
  | ok passed =>
      rcases passed with ⟨tool, first⟩
      rcases screen_ok screening with ⟨holds, rfl⟩
      simp only [screening] at invoked ⊢
      cases permitting : permit externals surroundings runner tool
          (screened externals state) with
      | error ended =>
          simp only [permitting] at invoked
          simp [permit_error permitting, fresh] at invoked
      | ok passed =>
          rcases passed with ⟨permission, second⟩
          rcases permit_ok holds.behind permitting with
            ⟨granted, running, sameCall, sameInvocations, led, licensed⟩
          have freshSecond : second.invocations = [] := sameInvocations.trans fresh
          simp only [permitting] at invoked ⊢
          cases reserving : reserve externals tool second with
          | error ended =>
              simp [reserving, reserve_error reserving, freshSecond] at invoked
          | ok passed =>
              rcases passed with ⟨identity, third⟩
              rcases reserve_ok reserving with ⟨keptCall, keptApprovals, keptInvocations⟩
              simp only [reserving] at invoked ⊢
              rcases execute_invoked invoked (keptInvocations.trans freshSecond) with
                ⟨rfl, profiled, reached⟩
              rw [reached, keptApprovals]
              have later := @invoking_leads externals surroundings second.approvals
              refine ⟨⟨holds, ?_, running, granted, (licensed.of_leads later).before,
                profiled⟩, led.trans later⟩
              rw [keptCall, sameCall, screened_arguments]

end ToolRunner

end Raphael.Tools
