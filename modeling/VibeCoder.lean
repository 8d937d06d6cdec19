import VibeCoder.Lib.Run
import VibeCoder.Lib.RelyGuarantee
import VibeCoder.Lib.Trace
import VibeCoder.Domain
import VibeCoder.Routing
import VibeCoder.RouteResolution
import VibeCoder.TaskMachine
import VibeCoder.TaskRuns
import VibeCoder.Core.Operations
import VibeCoder.Core.State
import VibeCoder.Core.Transcript
import VibeCoder.Core.Programs
import VibeCoder.Core.Turns
import VibeCoder.Core.BackendTask
import VibeCoder.Core.Alone
import VibeCoder.Core.ConversationTurn
import VibeCoder.Core.Recovery
import VibeCoder.Core.PendingTurn
import VibeCoder.Core.ActionTurn
import VibeCoder.Core.ExplicitLoop
import VibeCoder.Conversation
import VibeCoder.CommandPolicy
import VibeCoder.CommandPolicyRuns
import VibeCoder.Permission
import VibeCoder.PermissionRuns
import VibeCoder.Jcode.PermissionWire
import VibeCoder.Jcode.SessionRuns
import VibeCoder.Checkpoint.Consistency
import VibeCoder.Checkpoint.CreationErrors
import VibeCoder.Workspace.Files
import VibeCoder.Build.EvidenceBlock
import VibeCoder.Build.LineSelection
import VibeCoder.Build.Redaction
import VibeCoder.Build.Cancellation
import VibeCoder.Build.GuardedRepair
import VibeCoder.Process.EventStream
import VibeCoder.Process.RegistryRuns
import VibeCoder.Core.ProjectSession
import VibeCoder.Core.SessionCreation
import VibeCoder.Core.SessionCreationLaw
import VibeCoder.Process.Paths
import VibeCoder.Core.TurnCapacity
import VibeCoder.Core.LoopResponse
import VibeCoder.Core.ModelContext
import VibeCoder.Core.ModelContextRuns
import VibeCoder.Core.ModelTurn
import VibeCoder.Core.EncodedSize
import VibeCoder.Core.ModelTurnRuns
import VibeCoder.Core.ModelTurnStop
import VibeCoder.Lib.JsonText
import VibeCoder.Gateway.ChatRequest
import VibeCoder.Gateway.BaseUrlLaw
import VibeCoder.Gateway.Catalog
import VibeCoder.Core.ToolTranscript
import VibeCoder.Build.WebsitePipelineRuns
import VibeCoder.Process.Termination
import VibeCoder.Workspace.PatchRuns
import VibeCoder.Workspace.SearchRuns
import VibeCoder.Workspace.TextMatch
import VibeCoder.Core.ProjectLifecycleRuns
import VibeCoder.Host.ChatStopRuns
import VibeCoder.Host.GatewayServiceRuns
import VibeCoder.Install.InstallerRuns
import VibeCoder.Install.DotFiles
import VibeCoder.Host.RuntimeTree
import VibeCoder.Lib.NodeTree
import VibeCoder.Host.RuntimeDirectory
import VibeCoder.Host.RuntimeDirectoryLaw
import VibeCoder.Host.LaunchAgreement
import VibeCoder.CommandPolicyErrors
import VibeCoder.Lib.Utf8
import VibeCoder.Packaging.VersionRequirement
import VibeCoder.Packaging.VersionGrammar
import VibeCoder.Packaging.VersionLaw
import VibeCoder.Packaging.ElfInspection
import VibeCoder.Packaging.ElfLaw
import VibeCoder.Packaging.Readiness
import VibeCoder.Packaging.ReadinessLaw
import VibeCoder.Lib.JsonTree
import VibeCoder.Config.Backend
import VibeCoder.Config.Loader
import VibeCoder.Lib.Encoding
import VibeCoder.Build.Fingerprint
import VibeCoder.Persistence.Directory
import VibeCoder.Persistence.Names
import VibeCoder.Persistence.Store
import VibeCoder.Persistence.SaveLaw
import VibeCoder.Persistence.WriteErrors
import VibeCoder.Persistence.LastSaved
import VibeCoder.Persistence.CompareAndSwap
import VibeCoder.Persistence.StoreIsolation
import VibeCoder.Persistence.RecordSize
import VibeCoder.Process.Capture
import VibeCoder.Checkpoint.DigestLaw
import VibeCoder.Host.ChatReport
