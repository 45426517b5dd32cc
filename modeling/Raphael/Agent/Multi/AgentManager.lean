import Raphael.Persistence.SnapshotTable
import Raphael.Tools.ToolRunner

/-! # The agent manager

Agents share one runtime and one tool registry. What differs is the scope of the
authorization: the runner of an agent decides under a policy of its own. -/

namespace Raphael.Agent.Multi

open Core
open Persistence
open Security
open Tools

/-- Lifecycle of an agent, or of a task that an agent owns. -/
inductive AgentStatus
  | created
  | ready
  | running
  | waiting
  | completed
  | failed
  | cancelled
  deriving DecidableEq, Repr

/-- A specialized agent: its tools and its risk ceiling. -/
structure AgentDefinition where
  id : String
  updatedAt : Int := 0
  name : String := ""
  role : String := "general"
  allowedTools : List String := []
  riskProfile : RiskLevel := .medium
  status : AgentStatus := .created

instance : Entity AgentDefinition where
  id definition := definition.id
  updatedAt definition := definition.updatedAt
  touch now definition := { definition with updatedAt := now }
  id_touch _ _ := rfl

/-- Persisted agent definitions. -/
abbrev AgentRegistry := SnapshotTable AgentDefinition

namespace AgentRegistry

def lookup (agents : AgentRegistry) (agentId : String) : Option AgentDefinition :=
  agents.get agentId

/-- `set_status`; `none` where there is no such agent. -/
def setStatus (now : Int) (agentId : String) (status : AgentStatus)
    (agents : AgentRegistry) : Option AgentRegistry :=
  (agents.get agentId).map fun definition =>
    (agents.update now { definition with status := status, updatedAt := now }).1

end AgentRegistry

structure AgentManager where
  agents : AgentRegistry
  tools : ToolRegistry
  /-- An approval store was given. -/
  keepsApprovals : Bool := false
  /-- The sandbox that a runner makes when it is given none. -/
  localSandbox : Tool → ToolHandler → ToolHandler := fun _ handler => handler

namespace AgentManager

variable (manager : AgentManager)

/-- The policy that confines an agent to its definition. -/
def scopedPolicy (agentId : String) (definition : AgentDefinition) : Policy where
  name := "agent:" ++ agentId
  autoGrantUpTo := definition.riskProfile
  agentScopes := [(agentId, definition.allowedTools)]
  strictAgentScopes := true
  approvalRequiredFrom := if manager.keepsApprovals then some .high else none

/-- The runner and the authorizer of a definition that was found. -/
def runnerFor (agentId : String) (definition : AgentDefinition) : ToolRunner where
  registry := manager.tools
  authorizer := {
    registry := manager.tools
    policyEngine := { policy := manager.scopedPolicy agentId definition }
    context := { agentId } }
  sandbox := manager.localSandbox

/-- `scoped_runner`. -/
def scopedRunner (agentId : String) : Except Error ToolRunner :=
  match manager.agents.lookup agentId with
  | none => .error (.other ("AgentDefinition " ++ Text.repr agentId ++ " not found"))
  | some definition => .ok (manager.runnerFor agentId definition)

end AgentManager

end Raphael.Agent.Multi
