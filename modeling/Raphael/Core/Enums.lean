import Mathlib.Data.List.Basic

/-! # Shared enumerations

The status and level vocabularies of the domain models, with the text each value
is stored and reported under. -/

namespace Raphael.Core

inductive TaskState
  | created
  | understanding
  | awareness
  | researching
  | planning
  | waitingPermission
  | executing
  | verifying
  | recovering
  | completed
  | failed
  | cancelled
  deriving DecidableEq, Repr

namespace TaskState

def value : TaskState → String
  | .created => "CREATED"
  | .understanding => "UNDERSTANDING"
  | .awareness => "AWARENESS"
  | .researching => "RESEARCHING"
  | .planning => "PLANNING"
  | .waitingPermission => "WAITING_PERMISSION"
  | .executing => "EXECUTING"
  | .verifying => "VERIFYING"
  | .recovering => "RECOVERING"
  | .completed => "COMPLETED"
  | .failed => "FAILED"
  | .cancelled => "CANCELLED"

end TaskState

inductive RiskLevel
  | low
  | medium
  | high
  | critical
  deriving DecidableEq, Repr

def RiskLevel.value : RiskLevel → String
  | .low => "LOW"
  | .medium => "MEDIUM"
  | .high => "HIGH"
  | .critical => "CRITICAL"

inductive ToolCallStatus
  | requested
  | validated
  | riskCheck
  | permissionCheck
  | execute
  | observe
  | verify
  | completed
  | failed
  | denied
  deriving DecidableEq, Repr

inductive PermissionDecision
  | pending
  | granted
  | denied
  deriving DecidableEq, Repr

def PermissionDecision.value : PermissionDecision → String
  | .pending => "PENDING"
  | .granted => "GRANTED"
  | .denied => "DENIED"

inductive ApprovalStatus
  | pending
  | approved
  | denied
  | expired
  deriving DecidableEq, Repr

def ApprovalStatus.value : ApprovalStatus → String
  | .pending => "PENDING"
  | .approved => "APPROVED"
  | .denied => "DENIED"
  | .expired => "EXPIRED"

inductive VerificationStatus
  | pending
  | passed
  | failed
  | inconclusive
  | error
  deriving DecidableEq, Repr

def VerificationStatus.value : VerificationStatus → String
  | .pending => "PENDING"
  | .passed => "PASSED"
  | .failed => "FAILED"
  | .inconclusive => "INCONCLUSIVE"
  | .error => "ERROR"

/-- Runtime execution states of one graph node. -/
inductive StepState
  | pending
  | ready
  | running
  | succeeded
  | failed
  | cancelled
  | skipped
  | timedOut
  deriving DecidableEq, Repr

def StepState.value : StepState → String
  | .pending => "PENDING"
  | .ready => "READY"
  | .running => "RUNNING"
  | .succeeded => "SUCCEEDED"
  | .failed => "FAILED"
  | .cancelled => "CANCELLED"
  | .skipped => "SKIPPED"
  | .timedOut => "TIMED_OUT"

end Raphael.Core
