/-
  The methods of the core that hold the lifecycle gate for their whole length
  (`VibeCoderCore`, `vibecoder-core`): checkpoints and rollback, the backend task, commands and
  processes, direct mutations, the build repair turn, cancellation.

  A body under the gate is wrapped in `withLifecycle`, which drops the permit on every exit.  The
  backend task's unbounded `loop` takes its number of rounds as an argument.

  Left out: the website and build-job wrappers, which only delegate, session and project
  management, and the events handed to the presentation callback, which cannot influence a call.
-/
import VibeCoder.Core.State
import VibeCoder.Core.Transcript
import VibeCoder.TaskMachine

namespace VibeCoder

open Resume

/-- Await a query. -/
def ask (q : Query) : CoreM q.Val := attempt (Op.query q)

/-- Perform an operation. -/
def act (o : Op) : CoreM o.Val := attempt o

/-- `let _lifecycle = self.project_lifecycle_gate.try_acquire(project.id)?;` before a body. -/
def withLifecycle {α : Type} (project : ProjectId) (body : CoreM α) : CoreM α := do
  act (.acquire project)
  let result ← settle body
  act (.release project)
  resume result

variable (config : CoreConfig)

/-- `conversation_store()?`. -/
def conversationStore : CoreM Unit :=
  failIf (!config.conversationStore)
    (.missingCapability "conversation store" "multi_chat_persistence")

/-- `checkpoint_store()?`. -/
def checkpointStore : CoreM Unit :=
  failIf (!config.checkpointStore)
    (.missingCapability "checkpoint store" "project_checkpoint_rollback")

/-- `ensure_no_active_project_process`. -/
def ensureNoActiveProjectProcess (project : ProjectId) : CoreM Unit :=
  if config.processRuntime then do
    let active ← ask (.activeForProject project)
    failIf (active != 0) (.process "project_process_active")
  else pure ()

/-! ## Checkpoints -/

/-- `create_project_checkpoint`. -/
def createProjectCheckpoint (project : ProjectId) (reason : CheckpointReason) :
    CoreM CheckpointMetadata :=
  withLifecycle project do
    ask (.verifyProject project)
    ensureNoActiveProjectProcess config project
    ask (.ensureWorkspaceQuiescent project)
    checkpointStore config
    act (.createCheckpoint project reason)

/-- `remove_project_checkpoint`; it takes no permit. -/
def removeProjectCheckpoint (project : ProjectId) (checkpoint : CheckpointId) : CoreM Unit := do
  ask (.openProject project)
  ensureNoActiveProjectProcess config project
  checkpointStore config
  act (.removeCheckpoint project checkpoint)

/-- `self.remove_project_checkpoint(..).await.is_ok()`. -/
def tryRemoveProjectCheckpoint (project : ProjectId) (checkpoint : CheckpointId) : CoreM Bool := do
  let removed ← settle (removeProjectCheckpoint config project checkpoint)
  pure removed.isOk

/-! ## Rollback -/

/-- The session a project state contributes to the refresh after a rollback. -/
def rollbackProjectSession : Option PersistedProjectState → Result (Option SessionId)
  | none => .ok none
  | some state =>
    if state.sessionCreationPending then
      .error (checkpointError "checkpoint_rollback_session_creation_pending")
    else
      match state.agentSession with
      | none => .ok none
      | some session =>
        if session.runtimeId ≠ config.runtimeId then
          .error (checkpointError "checkpoint_rollback_session_runtime_mismatch")
        else .ok (some session.sessionId)

/-- What the loop over the conversations has seen so far. -/
structure RollbackScan where
  sessions : List SessionId
  permittedPendingSeen : Bool

/-- One conversation of that loop.  A pending one is let through at most once, and only when it
    is the permitted one with the permitted session. -/
def scanConversation (permitted : Option (ConversationId × SessionId)) (scan : RollbackScan) :
    Option PersistedConversation → Result RollbackScan
  | none => .error (checkpointError "checkpoint_rollback_conversation_disappeared")
  | some conversation =>
    if conversation.sessionCreationPending then
      .error (checkpointError "checkpoint_rollback_conversation_session_creation_pending")
    else
      match conversation.agentSession with
      | none => .error (checkpointError "checkpoint_rollback_conversation_session_missing")
      | some session =>
        if session.runtimeId ≠ config.runtimeId then
          .error (checkpointError "checkpoint_rollback_conversation_runtime_mismatch")
        else if conversation.turnPending && (scan.permittedPendingSeen ||
            permitted != some (conversation.conversationId, session.sessionId)) then
          .error (checkpointError "checkpoint_rollback_conversation_turn_pending")
        else if session.sessionId ∈ scan.sessions then
          .error (checkpointError "checkpoint_rollback_conversation_session_duplicate")
        else .ok {
          sessions := scan.sessions ++ [session.sessionId]
          permittedPendingSeen := scan.permittedPendingSeen || conversation.turnPending }

/-- The loop over the conversations of a project. -/
def scanConversations (project : ProjectId) (permitted : Option (ConversationId × SessionId))
    (scan : RollbackScan) : List ConversationId → CoreM RollbackScan
  | [] => pure scan
  | id :: rest => do
    let conversation ← ask (.loadConversation project id)
    let scan ← resume (scanConversation config permitted scan conversation)
    scanConversations project permitted scan rest

/-- The sessions of a project's conversations, none of which may have a turn in flight except
    the permitted one. -/
def persistedConversationSessions (project : ProjectId)
    (permitted : Option (ConversationId × SessionId)) : CoreM (List SessionId) :=
  if config.conversationStore then do
    let ids ← ask (.listConversationIds project)
    let scan ← scanConversations config project permitted
      { sessions := [], permittedPendingSeen := false } ids
    failIf (permitted.isSome && !scan.permittedPendingSeen)
      (checkpointError "checkpoint_rollback_permitted_pending_conversation_missing")
    pure scan.sessions
  else do
    failIf permitted.isSome
      (checkpointError "checkpoint_rollback_pending_conversation_store_missing")
    pure []

/-- The session of the project state, when that store is attached. -/
def persistedProjectSession (project : ProjectId) : CoreM (Option SessionId) :=
  if config.projectStateStore then do
    let state ← ask (.loadProjectState project)
    resume (rollbackProjectSession config state)
  else pure none

/-- Refresh one session against the replaced tree, reporting a failure under its own code. -/
def refreshSession (project : ProjectId) (session : SessionId) (code : String) : CoreM Unit :=
  mapError (ask (.refreshSessionAfterWorkspaceReplacement project session)) (checkpointError code)

/-- The refresh loop over the conversation sessions. -/
def refreshSessions (project : ProjectId) : List SessionId → CoreM Unit
  | [] => pure ()
  | session :: rest => do
    refreshSession project session "checkpoint_rollback_committed_conversation_refresh_failed"
    refreshSessions project rest

/-- The checks of a rollback before anything is replaced, and the sessions to refresh after. -/
def prepareRollback (project : ProjectId) (permitted : Option (ConversationId × SessionId)) :
    CoreM (Option SessionId × List SessionId) := do
  let projectSession ← persistedProjectSession config project
  let sessions ← persistedConversationSessions config project permitted
  checkpointStore config
  pure (projectSession, sessions)

/-- The refreshes after a rollback has committed. -/
def finishRollback (project : ProjectId) (sessions : Option SessionId × List SessionId) :
    CoreM Unit := do
  ask (.openProject project)
  ask (.verifyProject project)
  match sessions.1 with
  | some session =>
    refreshSession project session "checkpoint_rollback_committed_agent_refresh_failed"
  | none => pure ()
  refreshSessions project sessions.2

/-- `rollback_project_checkpoint_internal`. -/
def rollbackProjectCheckpointInternal (project : ProjectId) (checkpoint : CheckpointId)
    (permitted : Option (ConversationId × SessionId)) : CoreM RollbackResult :=
  withLifecycle project do
    ask (.verifyProject project)
    ensureNoActiveProjectProcess config project
    ask (.ensureWorkspaceQuiescent project)
    act (.invalidateAuthorizations project false)
    let sessions ← prepareRollback config project permitted
    let result ← act (.rollbackProject project checkpoint permitted.isSome)
    act (.invalidateAuthorizations project false)
    finishRollback project sessions
    pure result

/-- `rollback_project_checkpoint`. -/
def rollbackProjectCheckpoint (project : ProjectId) (checkpoint : CheckpointId) :
    CoreM RollbackResult :=
  rollbackProjectCheckpointInternal config project checkpoint none

/-- `rollback_project_checkpoint_for_pending_conversation`. -/
def rollbackProjectCheckpointForPendingConversation (project : ProjectId)
    (checkpoint : CheckpointId) (conversation : ConversationId) (session : SessionId) :
    CoreM RollbackResult :=
  rollbackProjectCheckpointInternal config project checkpoint (some (conversation, session))

/-! ## The backend task -/

/-- What one round of the loop of `run_backend_task` ends with: another round, or the outcome.
    The events of all rounds so far come along, for the caller's handler has seen them. -/
inductive AttemptStep where
  | retry (task : BackendTaskStateMachine) (cells : Progress) (seen : List AgentEvent)
  | done (outcome : BackendTaskOutcome) (seen : List AgentEvent)

/-- `match task.decide_failure(failure)?`: go round again, or stop with `error`. -/
def retryOrStop (task : BackendTaskStateMachine) (cells : Progress) (seen : List AgentEvent)
    (failure : RouteFailureClass) (error : VibeCoderError) : Result AttemptStep :=
  match task.decideFailure cells failure with
  | (.error e, _) => .error e
  | (.ok .retryConfiguredFallback, task) => .ok (.retry task cells seen)
  | (.ok (.stop _), _) => .error error

/-- The agent turn of a round, between its two authorization boundaries, and what follows from
    its result. -/
def backendInference (project : ProjectId) (session : SessionId) (prompt : String)
    (model : ModelRef) (task : BackendTaskStateMachine) (cells : Progress) (observer : Nat)
    (seen : List AgentEvent) : CoreM AttemptStep := do
  act (.invalidateAuthorizations project false)
  act (.beginTurn project session prompt (some model))
  let ended ← act (.endTurn project session)
  act (.invalidateAuthorizations project false)
  let cells := cells.modify observer (fun cell => ended.1.foldl AttemptProgress.observe cell)
  match ended.2 with
  | .ok turn =>
    let outcome ← resume (task.complete turn)
    pure (.done outcome (seen ++ ended.1))
  | .error error =>
    resume (retryOrStop task cells (seen ++ ended.1) (classifyAgentFailure error) error)

/-- A round on a corroborated catalog. -/
def backendActiveModel (project : ProjectId) (session : SessionId) (prompt : String)
    (task : BackendTaskStateMachine) (cells : Progress) (seen : List AgentEvent) :
    CoreM AttemptStep := do
  let model := task.selectedModel
  match ← settle (ask (.corroborateModelIdentity session model)) with
  | .error error =>
    let _ ← resume (task.decideFailure cells (classifyAgentFailure error)).1
    throw error
  | .ok active =>
    let checked := task.corroborateActiveModel active
    resume checked.1
    let begun := checked.2.beginInference cells
    let observer ← resume begun.1
    backendInference project session prompt model begun.2.1 begun.2.2 observer seen

/-- The catalog step of the machine, by bridge or directly. -/
def corroborateCatalog (task : BackendTaskStateMachine) (catalog : List ModelRef) :
    Result Bool × BackendTaskStateMachine :=
  match config.bridge with
  | some bridge => task.corroborateBridgedAgentCatalog catalog bridge.transportProvider
  | none => task.corroborateAgentCatalog catalog

/-- One round of the loop of `run_backend_task`. -/
def backendAttempt (project : ProjectId) (session : SessionId) (prompt : String)
    (task : BackendTaskStateMachine) (cells : Progress) (seen : List AgentEvent) :
    CoreM AttemptStep := do
  let catalog ← ask (.listModels session)
  let corroborated := corroborateCatalog config task catalog
  if ← resume corroborated.1 then
    backendActiveModel project session prompt corroborated.2 cells seen
  else
    resume (retryOrStop corroborated.2 cells seen .modelUnavailable
      (routingError "agent_model_unavailable_without_safe_fallback"))

/-- The loop of `run_backend_task`.  The last line is never reached with as many rounds as there
    are routes. -/
def backendAttempts (project : ProjectId) (session : SessionId) (prompt : String) :
    Nat → BackendTaskStateMachine → Progress → List AgentEvent →
      CoreM (BackendTaskOutcome × List AgentEvent)
  | rounds + 1, task, cells, seen => do
    match ← backendAttempt config project session prompt task cells seen with
    | .done outcome seen => pure (outcome, seen)
    | .retry task cells seen => backendAttempts project session prompt rounds task cells seen
  | 0, _, _, _ => throw (routingError "backend_task_rounds_exhausted")

/-- The checks of `run_backend_task` before it asks the gateway for its catalog. -/
def checkBackendTask (project : ProjectId) (session : SessionId) : CoreM Unit := do
  ask (.verifyProject project)
  ensureNoActiveProjectProcess config project
  ask (.ensureWorkspaceQuiescent project)
  ask (.verifySessionProjectBinding project session)
  let capabilities ← ask .ensureReady
  failIf (!capabilities.sessions || !capabilities.streamingEvents || !capabilities.fileTools)
    (.missingCapability "agent runtime" "backend_task_execution")
  let profile ← ask .executionProfile
  resume (requireDeterministicGatewayProfile profile)
  resume (match config.bridge with
    | some bridge => requireAgentGatewayBridgeMatchesProfile bridge profile
    | none => .ok ())

/-- `run_backend_task` before its loop. -/
def prepareBackendTask (project : ProjectId) (session : SessionId)
    (policy : ModelRoutePolicyConfig) (prompt : String) : CoreM BackendTaskStateMachine := do
  checkBackendTask config project session
  let gatewayCatalog ← ask .listGatewayModels
  let resolved ← resume (ResolvedModelRoutePolicy.resolve policy gatewayCatalog)
  let taskId ← ask .newUuid
  resume (BackendTaskStateMachine.prepare ⟨taskId⟩ project session prompt resolved)

/-- `run_backend_task` with a bound on its rounds: the outcome, and the events the caller's
    handler was given. -/
def runBackendTaskWithin (rounds : Nat) (project : ProjectId) (session : SessionId)
    (policy : ModelRoutePolicyConfig) (prompt : String) :
    CoreM (BackendTaskOutcome × List AgentEvent) :=
  withLifecycle project do
    let task ← prepareBackendTask config project session policy prompt
    backendAttempts config project session prompt rounds task [] []

/-- `run_backend_task`.  No policy has more than `maxRouteTargets` routes. -/
def runBackendTask (project : ProjectId) (session : SessionId)
    (policy : ModelRoutePolicyConfig) (prompt : String) :
    CoreM (BackendTaskOutcome × List AgentEvent) :=
  runBackendTaskWithin config maxRouteTargets project session policy prompt

/-! ## Commands and processes -/

/-- `request_project_command`. -/
def requestProjectCommand (project : ProjectId) (session : SessionId) (command : CommandSpec) :
    CoreM CommandRequestOutcome := do
  ask (.verifyProject project)
  ask (.verifySessionProjectBinding project session)
  act (.requestCommand session project command)

/-- `decide_project_command`. -/
def decideProjectCommand (project : ProjectId) (session : SessionId)
    (approval : CommandApprovalRequest) (decision : CommandApprovalDecision) :
    CoreM CommandDecisionOutcome := do
  if decision = .allowOnce then
    ask (.verifyProject project)
    ask (.verifySessionProjectBinding project session)
  act (.decide session project approval decision)

/-- `start_authorized_project_command_with_lifecycle_held`. -/
def startAuthorizedProjectCommandWithLifecycleHeld (project : ProjectId) (session : SessionId)
    (slot : Nat) (envelope : CommandExecutionEnvelope) : CoreM Unit := do
  failIf (envelope.projectId != project || envelope.sessionId != session)
    (.process "process_authorization_scope_mismatch")
  ask (.verifyProject project)
  ask (.verifySessionProjectBinding project session)
  failIf (!config.processRuntime) (.missingCapability "process runtime" "local execution")
  act (.validateExecutionEnvelope slot envelope)
  act (.startProcess project slot envelope)

/-- `start_authorized_project_command`, called with the envelope in `slot`. -/
def startAuthorizedProjectCommand (project : ProjectId) (session : SessionId) (slot : Nat) :
    CoreM Unit := do
  let envelope ← act (.takeEnvelope slot)
  withLifecycle project
    (startAuthorizedProjectCommandWithLifecycleHeld config project session slot envelope)

/-! ## Direct mutations -/

/-- The three direct mutations: one workspace call under the gate. -/
def mutateProject (project : ProjectId) (mutation : Mutation) : CoreM Unit :=
  withLifecycle project (act (.mutate project mutation))

/-- `atomic_write_project_file`. -/
def atomicWriteProjectFile (project : ProjectId) (relative contents : String) : CoreM Unit :=
  mutateProject project (.atomicWrite relative contents)

/-- `edit_project_text_file`. -/
def editProjectTextFile (project : ProjectId) (relative expected replacement : String) :
    CoreM Unit :=
  mutateProject project (.textEdit relative expected replacement)

/-- `apply_project_text_patch`. -/
def applyProjectTextPatch (project : ProjectId) (relative : String)
    (hunks : List (String × String)) : CoreM Unit :=
  mutateProject project (.textPatch relative hunks)

/-! ## Build repair -/

/-- `BuildRepairPlan`: the project of the failed build and the prompt made from its evidence. -/
structure BuildRepairPlan where
  projectId : ProjectId
  prompt : String
  deriving DecidableEq, Repr

/-- The part of `run_first_build_repair_turn` under the gate. -/
def firstBuildRepairTurn (project : ProjectId) (session : SessionId) (plan : BuildRepairPlan)
    (model : Option ModelRef) : CoreM (CheckpointMetadata × TurnResult) := do
  ask (.verifyProject project)
  ensureNoActiveProjectProcess config project
  ask (.ensureWorkspaceQuiescent project)
  ask (.verifySessionProjectBinding project session)
  act (.invalidateAuthorizations project false)
  checkpointStore config
  let checkpoint ← act (.createCheckpoint project .beforeBuildRepair)
  act (.beginTurn project session plan.prompt model)
  let ended ← act (.endTurn project session)
  act (.invalidateAuthorizations project false)
  let turn ← resume ended.2
  pure (checkpoint, turn)

/-- `run_first_build_repair_turn`; `plan` is `BuildRepairPlan::from_failed_build`. -/
def runFirstBuildRepairTurn (project : ProjectId) (session : SessionId)
    (plan : Result BuildRepairPlan) (model : Option ModelRef) :
    CoreM (CheckpointMetadata × TurnResult) := do
  let plan ← resume plan
  failIf (plan.projectId != project) (.build "build_repair_project_scope_mismatch")
  withLifecycle project (firstBuildRepairTurn config project session plan model)

/-! ## Cancellation -/

/-- `ConversationModelTurnCancellation::request`. -/
def requestModelTurnCancel (flag : Flag) : CoreM Unit := act (.request flag)

/-- `request_build_repair_loop_cancel` and `request_explicit_agent_loop_cancel`: the guard's flag,
    then the approvals of its project. -/
def requestLoopCancel (project : ProjectId) (flag : Flag) : CoreM Unit := do
  act (.request flag)
  act (.invalidateAuthorizations project true)

end VibeCoder
