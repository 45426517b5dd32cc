import Raphael.Security.ApprovalStore
import Raphael.Security.PolicyEngine
import Raphael.Tools.CheckArguments
import Raphael.Tools.ToolRegistry

/-! # The authorization manager

Risk, policy and human approval of one tool call. The store is also used by
others, whose operations are taken between those of the manager. -/

namespace Raphael.Security

open Core
open Tools

/-- The moments of a call at which the clock, the cancellation or the store is
looked at. -/
inductive Moment
  | start
  | finding
  | requesting
  | poll (index : Nat)
  | waited
  | checking
  | last
  | invoking
  deriving DecidableEq

/-- What happens around a call. -/
structure Surroundings where
  clock : Moment → Int
  /-- What the others do with the store right before a moment. -/
  others : Moment → List StoreOperation := fun _ => []
  /-- The readings of the cancellation token, when the call has one. -/
  cancelToken : Option (Moment → Bool) := none
  /-- The polls that fit before the deadline of the wait. -/
  polls : Nat

namespace Surroundings

def cancelled (surroundings : Surroundings) (moment : Moment) : Bool :=
  match surroundings.cancelToken with
  | some reading => reading moment
  | none => false

/-- The store as the others leave it right before a moment. -/
def before (surroundings : Surroundings) (identities : Identities) (moment : Moment)
    (store : ApprovalStore) : ApprovalStore :=
  store.after identities (surroundings.others moment)

end Surroundings

/-- What the authorization takes from outside. -/
structure Externals where
  platform : Platform
  identities : Identities
  schemaErrors : SchemaErrors

structure AuthorizationManager where
  registry : ToolRegistry
  risk : RiskEngine := {}
  policyEngine : PolicyEngine := {}
  permissions : PermissionEngine := { policyName := policyEngine.policy.name }
  context : RiskContext := {}

namespace AuthorizationManager

variable (externals : Externals) (surroundings : Surroundings)
  (manager : AuthorizationManager)

def policy : Policy := manager.policyEngine.policy

/-- A tool needs a human when its contract, the risk or the floor says so. -/
def needsApproval (tool : Tool) (level : RiskLevel) : Bool :=
  tool.requiresApproval || level == .critical ||
    match manager.policy.approvalRequiredFrom with
    | some floor => levelOrder level ≥ levelOrder floor
    | none => false

/-- The agent that a call is assessed for. -/
def effectiveAgent (agentId : String) : String :=
  if agentId == "" then manager.context.agentId else agentId

/-- The assessment of a call of a known tool. -/
def assessment (taskId agentId : String) (known : Tool) (call : ToolCall) :
    RiskAssessment :=
  manager.risk.assess externals.platform taskId known call
    { manager.context with agentId := manager.effectiveAgent agentId }

def approvalGate (taskId : String) (tool : Tool) (call : ToolCall)
    (assessment : RiskAssessment) (approvals : Option ApprovalStore) :
    Except Error Permission × Option ApprovalStore :=
  let level := assessment.level.value
  let policyName := manager.policy.name
  let shortId := externals.identities.shortId
  match approvals with
  | none =>
      (.ok (manager.permissions.decide taskId call false
        ("tool " ++ Text.repr tool.name ++
          " requires human approval, but no approval store is configured")), none)
  | some store =>
      let store := surroundings.before externals.identities .finding store
      let (store, valid) := store.findValid externals.identities
        (surroundings.clock .finding) taskId tool.name call.arguments policyName
      match valid with
      | some place =>
          let permission := manager.permissions.decide taskId call true
            ("human-approved action " ++ shortId place ++ " (" ++ level ++ " risk)")
          (.ok { permission with approvalId := some place }, some store)
      | none =>
          let store := surroundings.before externals.identities .requesting store
          let (store, requested) := store.request externals.identities
            (surroundings.clock .requesting) taskId tool.name call.arguments level
            (level ++ " risk: " ++ Text.join "; " assessment.factors) policyName
            (some manager.policy.approvalTtl)
          match requested with
          | .error error => (.error error, some store)
          | .ok place =>
              let permission := manager.permissions.decide taskId call false
                ("waiting for human approval " ++ shortId place ++ " (" ++ level ++
                  " risk)")
              (.ok { permission with decision := .pending, approvalId := some place },
                some store)

/-- `_decide`: the known tool and the permission. -/
def decide (taskId : String) (tool : Tool) (call : ToolCall) (agentId : String)
    (approvals : Option ApprovalStore) :
    Except Error (Tool × Permission) × Option ApprovalStore :=
  match manager.registry.get tool.name with
  | none =>
      (.ok (tool, manager.permissions.decide taskId call false
        ("unknown tool " ++ Text.repr tool.name)), approvals)
  | some known =>
      if call.taskId != taskId then
        (.ok (known, manager.permissions.decide taskId call false
          "task_id mismatch between call and request"), approvals)
      else
        match checkArguments externals.schemaErrors known call.arguments with
        | .error error => (.error error, approvals)
        | .ok (problem :: problems) =>
            (.error (.domainValidation (Text.join "; " (problem :: problems))), approvals)
        | .ok [] =>
            let agent := manager.effectiveAgent agentId
            let assessment := manager.assessment externals taskId agentId known call
            let (granted, reason) :=
              manager.policyEngine.evaluate assessment known.name agent
            if manager.policy.hardDenied agent known.name assessment.level then
              (.ok (known, manager.permissions.decide taskId call false reason), approvals)
            else if manager.needsApproval known assessment.level then
              let (gate, approvals) := manager.approvalGate externals surroundings taskId
                known call assessment approvals
              (gate.map fun permission => (known, permission), approvals)
            else
              (.ok (known, manager.permissions.decide taskId call granted reason),
                approvals)

def authorize (taskId : String) (tool : Tool) (call : ToolCall)
    (approvals : Option ApprovalStore) :
    Except Error Permission × Option ApprovalStore :=
  let (decided, approvals) := manager.decide externals surroundings taskId tool call
    manager.context.agentId approvals
  (decided.map (·.2), approvals)

/-! ## Waiting for a human -/

/-- The loop of `await_approval`, with the polls that are left. -/
def awaitPolls (permission : Permission) (place : Nat) :
    (remaining index : Nat) → ApprovalStore → Permission × ApprovalStore
  | 0, _, store =>
      ({ permission with
          decision := .denied
          reason := permission.reason ++ " (approval wait timed out)" }, store)
  | remaining + 1, index, store =>
      if surroundings.cancelled (.poll index) then
        ({ permission with
            decision := .denied
            reason := permission.reason ++ " (task cancelled while awaiting approval)" },
          store)
      else
        let store := (surroundings.before externals.identities (.poll index)
          store).sweepExpired (surroundings.clock (.poll index))
        let shortId := externals.identities.shortId place
        match store.get place with
        | none =>
            ({ permission with
                decision := .denied
                reason := permission.reason ++ " (approval wait timed out)" }, store)
        | some request =>
            match request.status with
            | .approved =>
                ({ permission with
                    decision := .granted
                    reason := "human approved action " ++ shortId }, store)
            | .pending => awaitPolls permission place remaining (index + 1) store
            | status =>
                ({ permission with
                    decision := .denied
                    reason := "human " ++ externals.platform.lower status.value ++
                      " action " ++ shortId }, store)

def awaitApproval (permission : Permission) (approvals : Option ApprovalStore) :
    Permission × Option ApprovalStore :=
  if permission.decision != .pending then (permission, approvals)
  else
    match approvals, permission.approvalId with
    | some store, some place =>
        let (permission, store) := awaitPolls externals surroundings permission place
          surroundings.polls 0 store
        (permission, some store)
    | _, _ =>
        ({ permission with
            decision := .denied
            reason := permission.reason ++ " (no approval store to wait on)" }, approvals)

/-- The approval is of exactly this tool, these arguments and this policy. -/
def checkApproval (permission : Permission) (tool : Tool) (call : ToolCall)
    (approvals : Option ApprovalStore) : Bool × Option ApprovalStore :=
  match permission.approvalId, approvals with
  | some place, some store =>
      let (store, verified) := (surroundings.before externals.identities .checking
        store).verify externals.identities (surroundings.clock .checking) place tool.name
        call.arguments manager.policy.name
      (verified, some store)
  | _, _ => (false, approvals)

end AuthorizationManager

end Raphael.Security
