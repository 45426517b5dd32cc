import Raphael.Agent.Executor.SnapshotRoundTrip
import Raphael.Agent.Multi.AgentConfinement
import Raphael.Agent.Multi.BusAtomicity
import Raphael.Agent.Multi.FaithfulStatus
import Raphael.Agent.Multi.SingleExecution
import Raphael.Agent.Orchestrator.Resume
import Raphael.Agent.Recovery.LedgerRecovery
import Raphael.Cloud.ResolveRemote
import Raphael.Cloud.SecretScanners
import Raphael.Cloud.SilentOverwrite
import Raphael.Cloud.SyncResumption
import Raphael.Cloud.TwoDevices
import Raphael.Core.ProbeRelease
import Raphael.Core.Sanitization
import Raphael.Interface.EffectiveCancellation
import Raphael.Interface.EventPolling
import Raphael.Interface.Replay
import Raphael.Interface.RuntimeLog
import Raphael.Interface.TaskSubmission
import Raphael.Persistence.BlockIsolation
import Raphael.Scheduler.AttemptBound
import Raphael.Scheduler.StoreInvariant
import Raphael.Security.ApprovalHistory
import Raphael.Security.ApprovalRace
import Raphael.Security.AuditChain
import Raphael.Security.AuditRotation
import Raphael.Tools.OutputReport
import Raphael.Tools.ReplayBoundary
import Raphael.Interface.DeviceRevocation
import Raphael.Interface.NonceReplay
import Raphael.Tools.MCPLifecycle
import Raphael.Packaging.SelectiveRestore
import Raphael.Learning.Reversal
import Raphael.Scheduler.TickRace
import Raphael.Agent.Multi.SupervisedReports
import Raphael.Agent.Multi.ExactFanIn
import Raphael.Agent.Orchestrator.RecoveredReport
import Raphael.Security.RiskMonotonicity
import Raphael.Agent.Proactive.RunsOnce
import Raphael.Agent.Proactive.ProactiveLimits
import Raphael.Personalization.Retrieval
import Raphael.Learning.Governance
import Raphael.Cloud.RetrySync
import Raphael.Agent.Recovery.ReplanLoops
import Raphael.Agent.Planner.ContractAgreement
import Raphael.Intelligence.ConflictDetection
import Raphael.Intelligence.JsonExtraction
import Raphael.Interface.SimulatedDevice
import Raphael.Interface.GatewayCleanup
import Raphael.Interface.WorkspaceStructure
import Raphael.Interface.InertContent
import Raphael.Interface.Visibility
import Raphael.Personalization.Consolidation
import Raphael.Skills.VersionOrder
import Raphael.Skills.WorkflowRoundTrip
import Raphael.Agent.Executor.CancellationToken
import Raphael.Packaging.ArchiveNames
import Raphael.Packaging.Versions
import Raphael.Cloud.Routing
import Raphael.Cloud.ExternalJobs
import Raphael.Cloud.PresenceRace
import Raphael.Skills.VersionBump
import Raphael.Personalization.ReceiptBinding
import Raphael.Agent.Executor.ValidatedPlans
import Raphael.Intelligence.ModelRouter
