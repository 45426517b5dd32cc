import Raphael.Core.Text

/-! # The error hierarchy

The exceptions that modelled code raises, tells apart or reports. -/

namespace Raphael.Core

inductive Error
  | domainValidation (message : String)
  /-- A domain validation error as well. -/
  | planValidation (message : String)
  | authorizationDenied (taskId tool reason : String)
  | toolExecution (message : String)
  | toolTimeout (message : String)
  | model (message : String)
  /-- Operator cancellation observed at a phase boundary. -/
  | cancelled (message : String)
  /-- Any other exception. -/
  | other (message : String)
  deriving DecidableEq, Repr

/-- `str(exc)`. -/
def Error.text : Error → String
  | .authorizationDenied taskId tool reason =>
      "denied " ++ Text.repr tool ++ " for task " ++ Text.repr taskId ++ ": " ++ reason
  | .domainValidation message => message
  | .planValidation message => message
  | .toolExecution message => message
  | .toolTimeout message => message
  | .model message => message
  | .cancelled message => message
  | .other message => message

/-- `ToolTimeoutError(tool, timeout_s)`, the timeout given by its `repr`. -/
def Error.timedOut (tool timeoutS : String) : Error :=
  .toolTimeout ("tool " ++ Text.repr tool ++ " failed: timed out after " ++ timeoutS ++ "s")

end Raphael.Core
