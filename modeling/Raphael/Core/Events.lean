import Raphael.Core.Json

/-! # Events

What modelled code publishes on the event bus. Delivery is isolated from the
publisher, so that publishing an event is appending it to the published ones. -/

namespace Raphael.Core

inductive EventType
  | taskCreated
  | planCreated
  | agentStarted
  | agentCompleted
  | toolRequested
  | toolStarted
  | toolCompleted
  | toolFailed
  | permissionRequested
  | permissionGranted
  | permissionDenied
  | approvalRequested
  | approvalDecided
  | verificationStarted
  | verificationPassed
  | verificationFailed
  | verificationInconclusive
  | verificationError
  | recoveryDecided
  | recoveryExhausted
  | researchStarted
  | sourceCollected
  | sourceRejected
  | evidenceExtracted
  | researchCompleted
  | researchFailed
  | memoryCreated
  | systemAwarenessRequested
  | systemSnapshotCreated
  | capabilityDetected
  | resourcePressureDetected
  | learningProposalCreated
  | proposalAdopted
  | proposalRejected
  | skillSelected
  | skillInvoked
  | skillCompleted
  | skillFailed
  | skillDisabled
  | skillProposalCreated
  | agentRegistered
  | agentMessageSent
  | agentMessageReceived
  | agentMessageRejected
  | agentHandoff
  | agentTaskRequested
  | agentTaskResult
  | syncStarted
  | syncObjectUploaded
  | syncObjectDownloaded
  | syncConflict
  | syncSkipped
  | syncFailed
  | syncCompleted
  | pcOnline
  | pcOffline
  | pcExpired
  | workspaceUpdated
  | proactiveTriggered
  | proactiveExecuted
  | devicePaired
  | deviceRevoked
  | phoneDecision
  | memoryCandidateCreated
  | memoryUpdated
  | memoryArchived
  | memoryDeleted
  | memoryRecalled
  | personalityUpdated
  | preferenceUpdated
  | personalizationApplied
  | understandingCompleted
  | awarenessCompleted
  | recoveryStarted
  | taskCompleted
  | taskFailed
  | skillCreated
  | skillUpdated
  | graphStarted
  | graphCompleted
  | stepReady
  | stepStarted
  | stepCompleted
  | stepFailed
  | stepTimedOut
  | stepCancelled
  | stepSkipped
  deriving DecidableEq, Repr

/-- An event without a task has an empty task id. -/
structure Event where
  eventType : EventType
  taskId : String
  payload : List (String × Json) := []
  createdAt : Int := 0

end Raphael.Core
