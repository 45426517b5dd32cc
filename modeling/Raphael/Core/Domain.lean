import Raphael.Core.Enums
import Raphael.Core.Json

/-! # Domain models

The fields of each model that modelled code reads or writes, with the source's
defaults. -/

namespace Raphael.Core

/-- A dict of keyword arguments, in insertion order. -/
abbrev Arguments := List (String × Json)

structure Tool where
  name : String := ""
  inputSchema : Json := .obj []
  riskLevel : RiskLevel := .low
  /-- The deadline, given by the `repr` of the float. -/
  timeoutS : String := "60.0"
  capabilities : List String := []
  /-- Trusted registry metadata: keeps the replay identity across reconnects. -/
  actionIdentity : String := ""
  requiresSandbox : Bool := false
  sandboxProfile : String := "default"
  requiresApproval : Bool := false
  networkAccess : Bool := false
  secretsAccess : Bool := false

structure ToolCall where
  id : String
  taskId : String := ""
  tool : String := ""
  arguments : Arguments := []
  status : ToolCallStatus := .requested

/-- Times are given by the texts they are written with. -/
structure ToolResult where
  id : String := ""
  createdAt : String := ""
  updatedAt : String := ""
  taskId : String := ""
  toolCallId : String := ""
  success : Bool := false
  output : Json := .null
  error : Option String := none
  exitCode : Option Int := none
  rollback : Option (List (String × Json)) := none

/-- One structured step of a plan. -/
structure PlanStep where
  id : String
  createdAt : String := ""
  updatedAt : String := ""
  description : String := ""
  dependencies : List String := []
  tools : List String := []
  risk : RiskLevel := .low
  verification : String := ""
  arguments : Arguments := []
  completionCriteria : String := ""

structure Plan where
  id : String
  createdAt : String := ""
  updatedAt : String := ""
  goal : String := ""
  steps : List PlanStep := []
  finalVerification : String := ""

/-- An authorization decision for one tool call. -/
structure Permission where
  taskId : String := ""
  toolCallId : Option String := none
  decision : PermissionDecision := .pending
  reason : String := ""
  policy : String := "default"
  /-- Set when the grant came from a human approval. -/
  approvalId : Option Nat := none

structure RiskAssessment where
  taskId : String := ""
  toolCallId : Option String := none
  level : RiskLevel := .low
  factors : List String := []
  rationale : String := ""

structure VerificationResult where
  taskId : String := ""
  stepId : String := ""
  status : VerificationStatus := .pending
  strategy : String := ""
  checks : List String := []
  evidence : List String := []
  reason : String := ""

end Raphael.Core
