/-
  What the core asks its surroundings to do (`VibeCoderCore`, `vibecoder-core`).

  A public method of the core is a program (`CoreM`) over the operations below: it awaits the
  agent, the gateway, the workspace, the stores and the process runtime, and between two of
  these it touches the shared parts of the core itself, the lifecycle gate and the command
  policy.  Each operation is one indivisible step; everything else can happen between two.

  * `Query`  — operations that only read, or whose effect is outside the model;
  * `Op`     — all operations; `Op.Val` is what each answers when it does not fail;
  * `Op.suspends` — the operations a future awaits, so that it can be dropped there.

  A turn of the agent is two operations, `beginTurn` when `run_turn` is first polled and
  `endTurn` when it resolves, since other calls run while it is in progress.  A `ProjectRef` is
  its `ProjectId`; the root path is derived from the id and never stored.
-/
import VibeCoder.CommandPolicy
import VibeCoder.Contracts
import VibeCoder.Lib.WeakestPre

namespace VibeCoder

open Resume

/-- The parts of a `VibeCoderCore` that never change: which adapters are attached, what the
    agent reports about itself, and the command policy. -/
structure CoreConfig where
  runtimeId : String
  bridge : Option ModelGatewayBridgeIdentity
  commandPolicy : CommandPolicyConfig
  processRuntime : Bool
  projectStateStore : Bool
  conversationStore : Bool
  checkpointStore : Bool
  deriving DecidableEq, Repr

/-- A direct mutation of a project tree: `atomic_write_file`, `edit_text_file` or
    `apply_text_patch`, each all or nothing. -/
inductive Mutation where
  | atomicWrite (relative contents : String)
  | textEdit (relative expected replacement : String)
  | textPatch (relative : String) (hunks : List (String × String))
  deriving DecidableEq, Repr

/-- An `Arc<AtomicBool>` shared between a turn or a loop and its canceller. -/
abbrev Flag := Nat

/-- Operations that change nothing the model holds. -/
inductive Query where
  | openProject (project : ProjectId)
  | verifyProject (project : ProjectId)
  | activeForProject (project : ProjectId)
  | ensureReady
  | resumeSession (project : ProjectId) (session : SessionId)
  | verifySessionProjectBinding (project : ProjectId) (session : SessionId)
  | ensureWorkspaceQuiescent (project : ProjectId)
  | refreshSessionAfterWorkspaceReplacement (project : ProjectId) (session : SessionId)
  | listModels (session : SessionId)
  | corroborateModelIdentity (session : SessionId) (model : ModelRef)
  | executionProfile
  | listGatewayModels
  | chatCompletion (request : GatewayChatRequest)
  | loadProjectState (project : ProjectId)
  | listConversationIds (project : ProjectId)
  | loadConversation (project : ProjectId) (conversation : ConversationId)
  | newUuid
  | timeout
  deriving DecidableEq

/-- What a query answers. -/
abbrev Query.Val : Query → Type
  | .openProject _ | .verifyProject _ | .resumeSession _ _ | .verifySessionProjectBinding _ _
  | .ensureWorkspaceQuiescent _ | .refreshSessionAfterWorkspaceReplacement _ _ => Unit
  | .activeForProject _ => Nat
  | .ensureReady => RuntimeCapabilities
  | .listModels _ | .listGatewayModels => List ModelRef
  | .corroborateModelIdentity _ _ => ModelRef
  | .executionProfile => GatewayExecutionProfile
  | .chatCompletion _ => GatewayChatResponse
  | .loadProjectState _ => Option PersistedProjectState
  | .listConversationIds _ => List ConversationId
  | .loadConversation _ _ => Option PersistedConversation
  | .newUuid => BitVec 128
  | .timeout => Bool

/-- The operations of the core. -/
inductive Op where
  | query (q : Query)
  /-- `ProjectLifecycleGate::try_acquire`, and the drop of its permit. -/
  | acquire (project : ProjectId)
  | release (project : ProjectId)
  | updateConversation (expected : Nat) (conversation : PersistedConversation)
  | createCheckpoint (project : ProjectId) (reason : CheckpointReason)
  | removeCheckpoint (project : ProjectId) (checkpoint : CheckpointId)
  /-- `CheckpointStore::rollback_project`; `recovery` marks the failure rollback of a turn. -/
  | rollbackProject (project : ProjectId) (checkpoint : CheckpointId) (recovery : Bool)
  | mutate (project : ProjectId) (mutation : Mutation)
  | beginTurn (project : ProjectId) (session : SessionId) (prompt : String)
      (model : Option ModelRef)
  | endTurn (project : ProjectId) (session : SessionId)
  /-- `invalidate_project_authorizations`; `cancel` marks the one of a cancel request. -/
  | invalidateAuthorizations (project : ProjectId) (cancel : Bool)
  | requestCommand (session : SessionId) (project : ProjectId) (command : CommandSpec)
  | decide (session : SessionId) (project : ProjectId) (approval : CommandApprovalRequest)
      (decision : CommandApprovalDecision)
  /-- The caller hands over an envelope it was given: the `slot`-th one ever issued. -/
  | takeEnvelope (slot : Nat)
  | validateExecutionEnvelope (slot : Nat) (envelope : CommandExecutionEnvelope)
  | startProcess (project : ProjectId) (slot : Nat) (envelope : CommandExecutionEnvelope)
  | isRequested (flag : Flag)
  | request (flag : Flag)
  /-- `ExplicitAgentLoopGuard::begin_once` on the `guard`-th guard. -/
  | beginOnce (guard : Nat)
  deriving DecidableEq

/-- What an operation answers when it does not fail. -/
abbrev Op.Val : Op → Type
  | .query q => q.Val
  | .acquire _ | .release _ | .removeCheckpoint _ _ | .mutate _ _ | .beginTurn _ _ _ _
  | .invalidateAuthorizations _ _ | .validateExecutionEnvelope _ _ | .startProcess _ _ _
  | .request _ | .beginOnce _ => Unit
  | .updateConversation _ _ => PersistedConversation
  | .createCheckpoint _ _ => CheckpointMetadata
  | .rollbackProject _ _ _ => RollbackResult
  | .endTurn _ _ => List AgentEvent × Result TurnResult
  | .requestCommand _ _ _ => CommandRequestOutcome
  | .decide _ _ _ _ => CommandDecisionOutcome
  | .takeEnvelope _ => CommandExecutionEnvelope
  | .isRequested _ => Bool

/-- The operations that are awaited; the others run to their end once reached. -/
def Op.suspends : Op → Bool
  | .query (.activeForProject _) | .query .newUuid => false
  | .query _ | .updateConversation _ _ | .createCheckpoint _ _ | .removeCheckpoint _ _
  | .rollbackProject _ _ _ | .mutate _ _ | .endTurn _ _ => true
  | .acquire _ | .release _ | .beginTurn _ _ _ _ | .invalidateAuthorizations _ _
  | .requestCommand _ _ _ | .decide _ _ _ _ | .takeEnvelope _
  | .validateExecutionEnvelope _ _ | .startProcess _ _ _ | .isRequested _ | .request _
  | .beginOnce _ => false

/-- A method of the core. -/
abbrev CoreM : Type → Type := Prog VibeCoderError Op Op.Val

/-- `if c { return Err(e) }`. -/
def failIf (c : Bool) (e : VibeCoderError) : CoreM Unit := resume (if c then .error e else .ok ())

/-- `.ok_or(e)?`. -/
def orFail {α : Type} (a : Option α) (e : VibeCoderError) : CoreM α :=
  resume (match a with
    | some a => .ok a
    | none => .error e)

/-- `.map_err(|_| e)?`. -/
def mapError {α : Type} (p : CoreM α) (e : VibeCoderError) : CoreM α := do
  match ← settle p with
  | .ok a => pure a
  | .error _ => throw e

end VibeCoder
