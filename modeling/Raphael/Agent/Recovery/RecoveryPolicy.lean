import Raphael.Core.Domain
import Raphael.Core.Errors

/-! # The recovery policy

Bounded retries and an explicit action for each failure class. -/

/-! ## Failure classification

Observed failures are mapped to a failure class. Only well-understood transient
classes are ever retryable. -/

namespace Raphael.Agent.Recovery

open Core

inductive FailureClass
  | transient
  | timeout
  | toolFailure
  | permissionFailure
  | modelFailure
  | dependencyFailure
  | verificationFailure
  | logicalFailure
  | unknown
  deriving DecidableEq, Repr

def FailureClass.value : FailureClass → String
  | .transient => "TRANSIENT"
  | .timeout => "TIMEOUT"
  | .toolFailure => "TOOL_FAILURE"
  | .permissionFailure => "PERMISSION_FAILURE"
  | .modelFailure => "MODEL_FAILURE"
  | .dependencyFailure => "DEPENDENCY_FAILURE"
  | .verificationFailure => "VERIFICATION_FAILURE"
  | .logicalFailure => "LOGICAL_FAILURE"
  | .unknown => "UNKNOWN"

structure Classification where
  failureClass : FailureClass
  detail : String := ""
  source : String := ""

def transientMarkers : List String :=
  ["transient", "temporary", "try again", "connection reset", "connection refused",
    "unavailable"]

namespace FailureClassifier

/-- A failed tool result, by its error text; `lower` is `text.lower()`. -/
def classifyToolResult (lower : String → String) (result : ToolResult) : Classification :=
  let text := result.error.getD ""
  let error := lower text
  if Text.contains "denied" error then ⟨.permissionFailure, text, "tool_result"⟩
  else if Text.contains "timed out" error then ⟨.timeout, text, "tool_result"⟩
  else if transientMarkers.any fun marker => Text.contains marker error then
    ⟨.transient, text, "tool_result"⟩
  else ⟨.toolFailure, if text == "" then "tool failed" else text, "tool_result"⟩

/-- A verification that did not pass. -/
def classifyVerification (result : VerificationResult) : Classification :=
  if result.status = .failed then ⟨.verificationFailure, result.reason, "verification"⟩
  else
    ⟨.unknown, "verification ended " ++ result.status.value ++ ": " ++ result.reason,
      "verification"⟩

def classifyException (error : Error) : Classification :=
  match error with
  | .authorizationDenied .. => ⟨.permissionFailure, error.text, "exception"⟩
  | .toolTimeout _ => ⟨.timeout, error.text, "exception"⟩
  | .model _ => ⟨.modelFailure, error.text, "exception"⟩
  | .planValidation _ => ⟨.logicalFailure, error.text, "exception"⟩
  | _ => ⟨.unknown, error.text, "exception"⟩

end FailureClassifier

end Raphael.Agent.Recovery

namespace Raphael.Agent.Recovery

inductive RecoveryAction
  | retry
  | replan
  | skip
  | escalate
  | fail
  deriving DecidableEq, Repr

def RecoveryAction.value : RecoveryAction → String
  | .retry => "RETRY"
  | .replan => "REPLAN"
  | .skip => "SKIP"
  | .escalate => "ESCALATE"
  | .fail => "FAIL"

structure RetryPolicy where
  maxAttempts : Nat := 3

/-- The classes that may be retried. -/
def FailureClass.retryable (failureClass : FailureClass) : Bool :=
  [FailureClass.timeout, .transient, .toolFailure, .modelFailure].contains failureClass

def RetryPolicy.shouldRetry (policy : RetryPolicy) (classification : Classification)
    (retriesUsed : Nat) : Bool :=
  if classification.failureClass = .permissionFailure then false
  else if classification.failureClass.retryable then retriesUsed < policy.maxAttempts
  else false

structure RecoveryPolicy where
  retries : RetryPolicy := {}
  maxReplans : Nat := 1
  overrides : FailureClass → Option RecoveryAction := fun _ => none

/-- The single next action for a classified failure. -/
def RecoveryPolicy.actionFor (policy : RecoveryPolicy) (classification : Classification)
    (retriesUsed replansUsed : Nat) : RecoveryAction :=
  let kind := classification.failureClass
  match policy.overrides kind with
  | some action => action
  | none =>
      if kind = .permissionFailure then .escalate
      else if kind.retryable then
        if policy.retries.shouldRetry classification retriesUsed then .retry else .escalate
      else if kind = .verificationFailure then
        if replansUsed < policy.maxReplans then .replan else .escalate
      else .fail

end Raphael.Agent.Recovery
