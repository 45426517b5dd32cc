import Raphael.Security.RiskEngine

/-! # Policy and permission

The policy decides which assessed risks are granted without a human, and which
tools are out of the question for an agent. -/

namespace Raphael.Security

open Core

structure Policy where
  name : String := "default"
  autoGrantUpTo : RiskLevel := .medium
  /-- CRITICAL is approval-gated by default, not hard-denied. -/
  denyCritical : Bool := false
  deniedTools : List String := []
  agentScopes : List (String × List String) := []
  strictAgentScopes : Bool := false
  approvalRequiredFrom : Option RiskLevel := none
  /-- The lifetime of an approval request, in microseconds. -/
  approvalTtl : Int := 900000000

namespace Policy

/-- The tools an agent is scoped to. -/
def scope (policy : Policy) (agentId : String) : Option (List String) :=
  (policy.agentScopes.find? (·.1 == agentId)).map (·.2)

/-- The agent has a scope and the tool is not in it. -/
def outsideScope (policy : Policy) (agentId toolName : String) : Bool :=
  match policy.scope agentId with
  | some tools => !tools.contains toolName
  | none => false

/-- Scopes are strict and the agent has none. -/
def lacksScope (policy : Policy) (agentId : String) : Bool :=
  policy.strictAgentScopes && !policy.agentScopes.isEmpty &&
    (policy.scope agentId).isNone

/-- The denials that dominate every approval. -/
def hardDenied (policy : Policy) (agentId toolName : String) (level : RiskLevel) : Bool :=
  policy.deniedTools.contains toolName || policy.lacksScope agentId ||
    policy.outsideScope agentId toolName ||
    (policy.denyCritical && level == .critical)

end Policy

structure PolicyEngine where
  policy : Policy := {}

/-- Whether the tool is granted, and the reason. -/
def PolicyEngine.evaluate (engine : PolicyEngine) (assessment : RiskAssessment)
    (toolName agentId : String) : Bool × String :=
  let policy := engine.policy
  if policy.deniedTools.contains toolName then
    (false, "tool " ++ Text.repr toolName ++ " is denied by policy " ++
      Text.repr policy.name)
  else if policy.outsideScope agentId toolName then
    (false, "tool " ++ Text.repr toolName ++ " is outside agent " ++
      Text.repr agentId ++ " scope")
  else if policy.lacksScope agentId then
    (false, "agent " ++ Text.repr agentId ++ " has no scope under strict policy " ++
      Text.repr policy.name)
  else if policy.denyCritical && assessment.level == .critical then
    (false, "CRITICAL risk denied: " ++ Text.join "; " assessment.factors)
  else if levelOrder assessment.level ≤ levelOrder policy.autoGrantUpTo then
    (true, "risk " ++ assessment.level.value ++ " within " ++ Text.repr policy.name ++
      " grant band")
  else
    (false, "risk " ++ assessment.level.value ++ " requires approval under " ++
      Text.repr policy.name)

/-- A tool is granted only inside the grant band. -/
theorem PolicyEngine.evaluate_granted {engine : PolicyEngine}
    {assessment : RiskAssessment} {toolName agentId : String}
    (granted : (engine.evaluate assessment toolName agentId).1 = true) :
    levelOrder assessment.level ≤ levelOrder engine.policy.autoGrantUpTo := by
  simp only [evaluate] at granted
  split_ifs at granted with denied outside unscoped critical within
  exact within

structure PermissionEngine where
  policyName : String := "default"

def PermissionEngine.decide (engine : PermissionEngine) (taskId : String) (call : ToolCall)
    (granted : Bool) (reason : String) : Permission where
  taskId := taskId
  toolCallId := some call.id
  decision := if granted then .granted else .denied
  reason := reason
  policy := engine.policyName

@[simp] theorem PermissionEngine.decide_granted {engine : PermissionEngine}
    {taskId reason : String} {call : ToolCall} {granted : Bool} :
    (engine.decide taskId call granted reason).decision = .granted ↔ granted = true := by
  cases granted <;> simp [decide]

end Raphael.Security
