/-
  The persisted turns (`VibeCoderCore`, `vibecoder-core`): the conversation turn, the direct model
  turn with its cancellation, the action turn and the explicit loop.

  Each commits the user message together with the pending marker before anything else happens,
  and clears the marker in its last update.  The conversation, action and loop turns release the
  lifecycle gate in between; the model turn holds it throughout.

  Three stretches of code occur twice in the source and are one definition here: the checks on a
  loaded record, the opening of an action or loop turn, and their recovery.
-/
import VibeCoder.Core.Programs

namespace VibeCoder

open Resume

variable (config : CoreConfig)

/-! ## Opening and closing a turn -/

/-- The checks every turn makes on the record it loads. -/
def runnableConversation :
    Option PersistedConversation → Result (PersistedConversation × PersistedAgentSession)
  | none => .error (persistenceError "conversation_not_found")
  | some conversation =>
    if conversation.sessionCreationPending then
      .error (persistenceError "conversation_session_creation_incomplete")
    else if conversation.turnPending then
      .error (persistenceError "conversation_turn_recovery_required")
    else
      match conversation.agentSession with
      | none => .error (persistenceError "conversation_session_not_persisted")
      | some session =>
        if session.runtimeId ≠ config.runtimeId then
          .error (persistenceError "conversation_session_runtime_mismatch")
        else .ok (conversation, session)

/-- Commit the user message and the pending marker. -/
def commitUserMessage (conversation : PersistedConversation) (prompt : String) :
    CoreM PersistedConversation := do
  let asked ← resume (conversation.appendMessage .user prompt)
  act (.updateConversation conversation.revision (asked.withPending true))

/-- The last update of a failed conversation or model turn, which reports its own failure under
    `code`. -/
def clearAfterFailure {α : Type} (conversation : PersistedConversation) (code : String)
    (error : VibeCoderError) : CoreM α := do
  let _ ← mapError (act (.updateConversation conversation.revision
    (conversation.withPending false))) (persistenceError code)
  throw error

/-! ## The conversation turn -/

/-- The part of `run_persisted_conversation_turn` under the gate. -/
def openConversationTurn (project : ProjectId) (id : ConversationId) (prompt : String) :
    CoreM (SessionId × PersistedConversation) :=
  withLifecycle project do
    ask (.openProject project)
    let loaded ← ask (.loadConversation project id)
    let runnable ← resume (runnableConversation config loaded)
    ask (.resumeSession project runnable.2.sessionId)
    let conversation ← commitUserMessage runnable.1 prompt
    pure (runnable.2.sessionId, conversation)

/-- The record that ends an answered turn; an empty answer is not appended. -/
def answeredConversation (conversation : PersistedConversation) (text : String) :
    Result PersistedConversation :=
  if text.isEmpty then .ok (conversation.withPending false)
  else (conversation.withPending false).appendMessage .assistant text

/-- The `match` on the backend result. -/
def closeConversationTurn (conversation : PersistedConversation)
    (result : Result (BackendTaskOutcome × List AgentEvent)) : CoreM BackendTaskOutcome :=
  match result with
  | .ok (outcome, _) => do
    let answered ← resume (answeredConversation conversation outcome.turn.text)
    let _ ← act (.updateConversation conversation.revision answered)
    pure outcome
  | .error error =>
    clearAfterFailure conversation "conversation_turn_failure_cleanup_failed" error

/-- `run_persisted_conversation_turn`. -/
def runPersistedConversationTurn (project : ProjectId) (id : ConversationId)
    (policy : ModelRoutePolicyConfig) (prompt : String) : CoreM BackendTaskOutcome := do
  failIf (blank prompt) (.invalidRequest "conversation_prompt_empty")
  conversationStore config
  let opened ← openConversationTurn config project id prompt
  let result ← settle (runBackendTask config project opened.1 policy prompt)
  closeConversationTurn opened.2 result

/-! ## The model turn -/

/-- `ConversationModelTurnOutcome`. -/
structure ConversationModelTurnOutcome where
  model : ModelRef
  observedModelId : Option String
  finishReason : Option String
  usage : Option TokenUsage
  assistantText : String
  contextMessagesSent : Nat
  contextBytesSent : Nat
  deriving DecidableEq, Repr

/-- What the inference future resolves to. -/
structure ModelInference where
  model : ModelRef
  response : GatewayChatResponse
  contextMessagesSent : Nat
  contextBytesSent : Nat

/-- `inference_future`: exactly one gateway inference call. -/
def conversationModelInference (conversation : PersistedConversation)
    (requestedModelId : String) (maxOutputTokens : Nat) : CoreM ModelInference := do
  let profile ← ask .executionProfile
  resume (requireDeterministicGatewayProfile profile)
  let catalog ← ask .listGatewayModels
  let model ← resume (selectExactGatewayModel catalog requestedModelId)
  let context ← resume (buildGatewayConversationContext conversation)
  let response ← ask (.chatCompletion {
    model := model
    messages := context.1
    maxOutputTokens := maxOutputTokens })
  resume (validateConversationModelResponse model response)
  pure {
    model := model
    response := response
    contextMessagesSent := context.1.length
    contextBytesSent := context.2 }

/-- A future polled under `timeout`: while it waits for an operation the flag may be read, and a
    set flag drops the future.  Several readings of a clear flag in one wait are as good as
    one. -/
def pollOrCancel {α : Type} (flag : Flag) :
    Proc Op (fun o => Result o.Val) (Result α) → Proc Op (fun o => Result o.Val) (Result α)
  | .ret r => .ret r
  | .call o k =>
    .call (.query .timeout) (fun timedOut =>
      match timedOut with
      | .ok true => .call (.isRequested flag) (fun requested =>
        match requested with
        | .ok true => .ret (.error .cancelled)
        | .ok false | .error _ => .call o (fun answer => pollOrCancel flag (k answer)))
      | .ok false | .error _ => .call o (fun answer => pollOrCancel flag (k answer)))

/-- `await_conversation_model_inference_or_cancel`: the flag is read before the first poll. -/
def awaitConversationModelInferenceOrCancel {α : Type} (inference : CoreM α) (flag : Flag) :
    CoreM α := do
  let requested ← act (.isRequested flag)
  failIf requested .cancelled
  ExceptT.mk (pollOrCancel flag inference.run)

/-- The inference of a model turn, with the last reading of the flag after it. -/
def inferenceOrCancel {α : Type} (inference : CoreM α) :
    Option Flag → CoreM (Result α)
  | none => settle inference
  | some flag => do
    let result ← settle (awaitConversationModelInferenceOrCancel inference flag)
    let requested ← act (.isRequested flag)
    pure (if requested then .error .cancelled else result)

/-- The `match` on the inference. -/
def closeModelTurn (conversation : PersistedConversation) (result : Result ModelInference) :
    CoreM ConversationModelTurnOutcome :=
  match result with
  | .ok inference => do
    let answered ← resume
      ((conversation.withPending false).appendMessage .assistant inference.response.text)
    let _ ← act (.updateConversation conversation.revision answered)
    pure {
      model := inference.model
      observedModelId := inference.response.observedModelId
      finishReason := inference.response.finishReason
      usage := inference.response.usage
      assistantText := inference.response.text
      contextMessagesSent := inference.contextMessagesSent
      contextBytesSent := inference.contextBytesSent }
  | .error error =>
    clearAfterFailure conversation "conversation_model_turn_failure_cleanup_failed" error

/-- The start of a model turn, up to the committed user message. -/
def openModelTurn (project : ProjectId) (id : ConversationId) (prompt : String) :
    CoreM PersistedConversation := do
  conversationStore config
  ask (.openProject project)
  ask (.verifyProject project)
  let loaded ← ask (.loadConversation project id)
  let runnable ← resume (runnableConversation config loaded)
  resume (ensureConversationModelTurnCapacity runnable.1 prompt)
  commitUserMessage runnable.1 prompt

/-- `run_persisted_model_conversation_turn_inner`. -/
def runPersistedModelConversationTurnInner (project : ProjectId) (id : ConversationId)
    (requestedModelId : String) (maxOutputTokens : Nat) (prompt : String)
    (cancellation : Option Flag) : CoreM ConversationModelTurnOutcome := do
  resume (validateConversationModelId requestedModelId)
  resume (validateConversationModelPrompt prompt)
  failIf (maxOutputTokens = 0 ∨ maxOutputTokens > maxConversationModelOutputTokens)
    (.invalidRequest "conversation_model_output_tokens_invalid")
  withLifecycle project do
    let conversation ← openModelTurn config project id prompt
    let result ← inferenceOrCancel
      (conversationModelInference conversation requestedModelId maxOutputTokens) cancellation
    closeModelTurn conversation result

/-- `run_persisted_model_conversation_turn`. -/
def runPersistedModelConversationTurn (project : ProjectId) (id : ConversationId)
    (requestedModelId : String) (maxOutputTokens : Nat) (prompt : String) :
    CoreM ConversationModelTurnOutcome :=
  runPersistedModelConversationTurnInner config project id requestedModelId maxOutputTokens prompt
    none

/-- `run_persisted_model_conversation_turn_cancellable`. -/
def runPersistedModelConversationTurnCancellable (project : ProjectId) (id : ConversationId)
    (requestedModelId : String) (maxOutputTokens : Nat) (prompt : String)
    (cancellation : Flag) : CoreM ConversationModelTurnOutcome :=
  runPersistedModelConversationTurnInner config project id requestedModelId maxOutputTokens prompt
    (some cancellation)

/-! ## Action turns: opening and recovery -/

/-- What an action turn or a loop demands of the agent before it starts. -/
def requireAgentActionRuntime (commandToolsCode bridgeCode : String) : CoreM Unit := do
  let capabilities ← ask .ensureReady
  failIf (!capabilities.fileTools) (.missingCapability "agent runtime" "file_tools")
  failIf capabilities.commandTools (.invalidRequest commandToolsCode)
  let bridge ← orFail config.bridge (.missingCapability "agent runtime" "model_gateway_bridge")
  failIf (!bridge.exactModelIdPassthrough) (.gateway bridgeCode)

/-- What an opened action turn or loop goes on with. -/
structure OpenedAction where
  session : SessionId
  conversation : PersistedConversation
  checkpoint : CheckpointMetadata

/-- The part of an action turn or a loop under the gate: the baseline checkpoint, then the user
    message.  When the store refuses the message the checkpoint is removed again. -/
def openAgentActionTurn (project : ProjectId) (id : ConversationId) (prompt : String) :
    CoreM OpenedAction :=
  withLifecycle project do
    ask (.openProject project)
    ask (.verifyProject project)
    let loaded ← ask (.loadConversation project id)
    let runnable ← resume (runnableConversation config loaded)
    resume (ensureConversationAgentActionCapacity runnable.1 prompt)
    ask (.resumeSession project runnable.2.sessionId)
    ensureNoActiveProjectProcess config project
    ask (.ensureWorkspaceQuiescent project)
    checkpointStore config
    let checkpoint ← act (.createCheckpoint project .beforeAgentChange)
    let asked ← resume (runnable.1.appendMessage .user prompt)
    match ← settle (act (.updateConversation runnable.1.revision (asked.withPending true))) with
    | .ok conversation => pure {
        session := runnable.2.sessionId
        conversation := conversation
        checkpoint := checkpoint }
    | .error error => do
      let _ ← settle (act (.removeCheckpoint project checkpoint.checkpointId))
      throw error

/-- Remove a verification checkpoint, if there is one. -/
def tryRemoveVerification (project : ProjectId) : Option CheckpointId → CoreM Bool
  | some checkpoint => tryRemoveProjectCheckpoint config project checkpoint
  | none => pure true

/-- The recovery of a failed action turn or loop: the workspace first, then the marker, then the
    checkpoints.  The marker stays while the workspace has not been restored. -/
def recoverPendingTurn (project : ProjectId) (conversation : PersistedConversation)
    (session : SessionId) (baseline : CheckpointId) (verification : Option CheckpointId)
    (rollbackCode cleanupCode : String) : CoreM Unit := do
  let _ ← mapError (rollbackProjectCheckpointForPendingConversation config project baseline
    conversation.conversationId session) (checkpointError rollbackCode)
  let _ ← mapError (act (.updateConversation conversation.revision
    (conversation.withPending false))) (persistenceError cleanupCode)
  let _ ← tryRemoveVerification config project verification
  let _ ← tryRemoveProjectCheckpoint config project baseline

/-- `recover_failed_persisted_agent_action`. -/
def recoverFailedPersistedAgentAction (project : ProjectId)
    (conversation : PersistedConversation) (preActionCheckpoint : CheckpointId)
    (postActionCheckpoint : Option CheckpointId) : CoreM Unit := do
  let session ← orFail conversation.agentSession
    (persistenceError "conversation_agent_action_recovery_session_missing")
  recoverPendingTurn config project conversation session.sessionId preActionCheckpoint
    postActionCheckpoint "conversation_agent_action_rollback_failed_pending_preserved"
    "conversation_agent_action_failure_cleanup_failed_pending_preserved"

/-- `recover_failed_persisted_explicit_agent_loop`. -/
def recoverFailedPersistedExplicitAgentLoop (project : ProjectId)
    (conversation : PersistedConversation) (session : SessionId)
    (baselineCheckpoint : CheckpointId) (verificationCheckpoint : Option CheckpointId) :
    CoreM Unit :=
  recoverPendingTurn config project conversation session baselineCheckpoint
    verificationCheckpoint "explicit_agent_loop_rollback_failed_pending_preserved"
    "explicit_agent_loop_failure_cleanup_failed_pending_preserved"

/-! ## The action turn -/

/-- `PersistedAgentActionTurnOutcome`. -/
structure PersistedAgentActionTurnOutcome where
  backend : BackendTaskOutcome
  observedToolCalls : Nat
  successfulFileToolCalls : Nat
  successfulMutationToolCalls : Nat
  preActionTreeSha256 : String
  postActionTreeSha256 : String
  checkpointCleanupComplete : Bool
  deriving DecidableEq, Repr

/-- Recover, then return `error`. -/
def failAgentAction {α : Type} (project : ProjectId) (opened : OpenedAction)
    (verification : Option CheckpointId) (error : VibeCoderError) : CoreM α := do
  recoverFailedPersistedAgentAction config project opened.conversation
    opened.checkpoint.checkpointId verification
  throw error

/-- Commit the answer of an action turn, and drop both checkpoints. -/
def commitAgentAction (project : ProjectId) (opened : OpenedAction)
    (outcome : BackendTaskOutcome) (counts : ToolCounts) (post : CheckpointMetadata) :
    CoreM PersistedAgentActionTurnOutcome :=
  match (opened.conversation.withPending false).appendMessage .assistant outcome.turn.text with
  | .error error => failAgentAction config project opened (some post.checkpointId) error
  | .ok completed => do
    match ← settle (act (.updateConversation opened.conversation.revision completed)) with
    | .error error => failAgentAction config project opened (some post.checkpointId) error
    | .ok _ => do
      let postRemoved ← tryRemoveProjectCheckpoint config project post.checkpointId
      let preRemoved ← tryRemoveProjectCheckpoint config project opened.checkpoint.checkpointId
      pure {
        backend := outcome
        observedToolCalls := counts.observed
        successfulFileToolCalls := counts.fileTools
        successfulMutationToolCalls := counts.mutations
        preActionTreeSha256 := opened.checkpoint.treeSha256
        postActionTreeSha256 := post.treeSha256
        checkpointCleanupComplete := postRemoved && preRemoved }

/-- The `match` on the backend result: transcript, verification checkpoint, commit. -/
def closeAgentActionTurn (project : ProjectId) (opened : OpenedAction)
    (action : Result (BackendTaskOutcome × List AgentEvent)) :
    CoreM PersistedAgentActionTurnOutcome :=
  match action with
  | .error error => failAgentAction config project opened none error
  | .ok (outcome, events) =>
    match validateAgentActionTurn outcome.turn (.ofEvents events) with
    | .error error => failAgentAction config project opened none error
    | .ok counts => do
      match ← settle (createProjectCheckpoint config project .agentChangeVerification) with
      | .error error => failAgentAction config project opened none error
      | .ok post =>
        if post.treeSha256 = opened.checkpoint.treeSha256 then
          failAgentAction config project opened (some post.checkpointId)
            (agentError "agent_action_workspace_unchanged")
        else commitAgentAction config project opened outcome counts post

/-- `run_persisted_agent_action_turn`. -/
def runPersistedAgentActionTurn (project : ProjectId) (id : ConversationId)
    (policy : ModelRoutePolicyConfig) (prompt : String) :
    CoreM PersistedAgentActionTurnOutcome := do
  resume (validateConversationModelPrompt prompt)
  requireAgentActionRuntime config "agent_action_command_tools_must_remain_disabled"
    "agent_action_exact_model_bridge_required"
  conversationStore config
  let opened ← openAgentActionTurn config project id prompt
  let action ← settle (runBackendTask config project opened.session policy prompt)
  closeAgentActionTurn config project opened action

/-! ## The explicit loop -/

/-- `a.saturating_add(b)` in a type whose largest value is `max`. -/
def saturatingAdd (max a b : Nat) : Nat := if a + b ≤ max then a + b else max

def u8Max : Nat := 255

/-- `usize::MAX` on a 64-bit target. -/
def usizeMax : Nat := 2 ^ 64 - 1

/-- `ExplicitAgentLoopGuard`: its scope, its policy, its cancellation flag, and its `started`
    cell. -/
structure ExplicitAgentLoopGuard where
  projectId : ProjectId
  conversationId : ConversationId
  policy : ExplicitAgentLoopPolicy
  cancellation : Flag
  started : Nat

/-- `PersistedExplicitAgentLoopOutcome`. -/
structure PersistedExplicitAgentLoopOutcome where
  stopReason : ExplicitAgentLoopStopReason
  turnsCompleted : Nat
  totalToolCalls : Nat
  totalSuccessfulMutations : Nat
  baselineTreeSha256 : String
  finalTreeSha256 : String
  workspaceCommitted : Bool
  rollbackPerformed : Bool
  checkpointCleanupComplete : Bool
  assistantText : String
  deriving DecidableEq, Repr

/-- What the loop carries from one iteration to the next. -/
structure LoopProgress where
  previousTreeSha256 : String
  workspaceOccurrences : String → Nat
  turnsCompleted : Nat
  totalToolCalls : Nat
  totalSuccessfulMutations : Nat

/-- One iteration ends with another one, or with the outcome. -/
inductive LoopStep where
  | again (progress : LoopProgress)
  | finished (outcome : PersistedExplicitAgentLoopOutcome)

variable (guard : ExplicitAgentLoopGuard) (opened : OpenedAction)

/-- Recover, then return `error`. -/
def failExplicitLoop {α : Type} (verification : Option CheckpointId) (error : VibeCoderError) :
    CoreM α := do
  recoverFailedPersistedExplicitAgentLoop config guard.projectId opened.conversation
    opened.session opened.checkpoint.checkpointId verification
  throw error

/-- `finish_persisted_explicit_agent_loop_non_success`. -/
def finishPersistedExplicitAgentLoopNonSuccess (verification : Option CheckpointId)
    (stopReason : ExplicitAgentLoopStopReason) (progress : LoopProgress) : CoreM LoopStep := do
  failIf (stopReason == .completed)
    (.invalidRequest "explicit_agent_loop_completed_cannot_use_rollback_finish")
  let _ ← mapError (rollbackProjectCheckpointForPendingConversation config guard.projectId
      opened.checkpoint.checkpointId opened.conversation.conversationId opened.session)
    (checkpointError "explicit_agent_loop_terminal_rollback_failed_pending_preserved")
  let completed ← resume ((opened.conversation.withPending false).appendMessage .assistant
    (explicitAgentLoopStopMessage stopReason))
  let _ ← mapError (act (.updateConversation opened.conversation.revision completed))
    (persistenceError "explicit_agent_loop_terminal_persistence_failed_pending_preserved")
  let verificationRemoved ← tryRemoveVerification config guard.projectId verification
  let baselineRemoved ← tryRemoveProjectCheckpoint config guard.projectId
    opened.checkpoint.checkpointId
  pure (.finished {
    stopReason := stopReason
    turnsCompleted := progress.turnsCompleted
    totalToolCalls := progress.totalToolCalls
    totalSuccessfulMutations := progress.totalSuccessfulMutations
    baselineTreeSha256 := opened.checkpoint.treeSha256
    finalTreeSha256 := opened.checkpoint.treeSha256
    workspaceCommitted := false
    rollbackPerformed := true
    checkpointCleanupComplete := verificationRemoved && baselineRemoved
    assistantText := explicitAgentLoopStopMessage stopReason })

/-- The `Complete` branch: commit the answer, and drop both checkpoints. -/
def completeExplicitLoop (progress : LoopProgress) (verification : CheckpointMetadata)
    (body : String) : CoreM LoopStep :=
  match (opened.conversation.withPending false).appendMessage .assistant body with
  | .error error => failExplicitLoop config guard opened (some verification.checkpointId) error
  | .ok completed => do
    match ← settle (act (.updateConversation opened.conversation.revision completed)) with
    | .error error => failExplicitLoop config guard opened (some verification.checkpointId) error
    | .ok _ => do
      let verifyRemoved ← tryRemoveProjectCheckpoint config guard.projectId
        verification.checkpointId
      let baselineRemoved ← tryRemoveProjectCheckpoint config guard.projectId
        opened.checkpoint.checkpointId
      pure (.finished {
        stopReason := .completed
        turnsCompleted := progress.turnsCompleted
        totalToolCalls := progress.totalToolCalls
        totalSuccessfulMutations := progress.totalSuccessfulMutations
        baselineTreeSha256 := opened.checkpoint.treeSha256
        finalTreeSha256 := verification.treeSha256
        workspaceCommitted := true
        rollbackPerformed := false
        checkpointCleanupComplete := verifyRemoved && baselineRemoved
        assistantText := body })

/-- The progress after a tree has been seen once more. -/
def LoopProgress.visit (progress : LoopProgress) (tree : String) : LoopProgress :=
  { progress with
    previousTreeSha256 := tree
    workspaceOccurrences := Function.update progress.workspaceOccurrences tree
      (saturatingAdd u8Max (progress.workspaceOccurrences tree) 1) }

/-- The `Continue` branch: a real change, not a tree seen too often, and not the last turn. -/
def continueExplicitLoop (iteration : Nat) (progress : LoopProgress)
    (verification : CheckpointMetadata) (mutations : Nat) : CoreM LoopStep :=
  let tree := verification.treeSha256
  if mutations = 0 ∨ tree = progress.previousTreeSha256 then
    failExplicitLoop config guard opened (some verification.checkpointId)
      (agentError "explicit_agent_loop_continue_without_workspace_progress")
  else
    let visited := progress.visit tree
    if visited.workspaceOccurrences tree ≥ guard.policy.maxSameWorkspaceOccurrences then
      finishPersistedExplicitAgentLoopNonSuccess config guard opened
        (some verification.checkpointId) .repeatedWorkspaceState progress
    else do
      let _ ← tryRemoveProjectCheckpoint config guard.projectId verification.checkpointId
      if iteration = guard.policy.maxTurns then
        finishPersistedExplicitAgentLoopNonSuccess config guard opened none .turnBudgetExhausted
          progress
      else pure (.again visited)

/-- After a verified transcript: the verification checkpoint, the budgets, the decision. -/
def verifyExplicitLoopTurn (iteration : Nat) (progress : LoopProgress)
    (response : ExplicitAgentLoopDecision × String) (counts : ToolCounts) : CoreM LoopStep := do
  match ← settle (createProjectCheckpoint config guard.projectId .agentChangeVerification) with
  | .error error => failExplicitLoop config guard opened none error
  | .ok verification =>
    if progress.totalToolCalls > guard.policy.maxTotalToolCalls then
      finishPersistedExplicitAgentLoopNonSuccess config guard opened
        (some verification.checkpointId) .toolBudgetExhausted progress
    else do
      if ← act (.isRequested guard.cancellation) then
        finishPersistedExplicitAgentLoopNonSuccess config guard opened
          (some verification.checkpointId) .cancelled progress
      else
        match response.1 with
        | .continue =>
          continueExplicitLoop config guard opened iteration progress verification counts.mutations
        | .complete => completeExplicitLoop config guard opened progress verification response.2

/-- After a completed inner turn: cancellation, the status marker, the transcript. -/
def judgeExplicitLoopTurn (iteration : Nat) (progress : LoopProgress)
    (outcome : BackendTaskOutcome) (events : List AgentEvent) : CoreM LoopStep := do
  let progress := { progress with
    turnsCompleted := saturatingAdd u8Max progress.turnsCompleted 1 }
  if ← act (.isRequested guard.cancellation) then
    finishPersistedExplicitAgentLoopNonSuccess config guard opened none .cancelled progress
  else
    match parseExplicitAgentLoopResponse outcome.turn.text with
    | .error error => failExplicitLoop config guard opened none error
    | .ok response =>
      match validateAgentLoopIterationTurn outcome.turn (.ofEvents events) with
      | .error error => failExplicitLoop config guard opened none error
      | .ok counts =>
        verifyExplicitLoopTurn config guard opened iteration
          { progress with
            totalToolCalls := saturatingAdd usizeMax progress.totalToolCalls counts.observed
            totalSuccessfulMutations :=
              saturatingAdd usizeMax progress.totalSuccessfulMutations counts.mutations }
          response counts

/-- A cancelled inner turn is a cancelled loop only if the loop's own flag is set. -/
def judgeExplicitLoopFailure (progress : LoopProgress) (error : VibeCoderError) :
    CoreM LoopStep :=
  if error = .cancelled then do
    if ← act (.isRequested guard.cancellation) then
      finishPersistedExplicitAgentLoopNonSuccess config guard opened none .cancelled progress
    else failExplicitLoop config guard opened none error
  else failExplicitLoop config guard opened none error

/-- One iteration of the loop. -/
def explicitLoopIteration (routePolicy : ModelRoutePolicyConfig) (prompt : String)
    (iteration : Nat) (progress : LoopProgress) : CoreM LoopStep := do
  if ← act (.isRequested guard.cancellation) then
    finishPersistedExplicitAgentLoopNonSuccess config guard opened none .cancelled progress
  else
    match buildExplicitAgentLoopIterationPrompt prompt iteration guard.policy.maxTurns with
    | .error error => failExplicitLoop config guard opened none error
    | .ok iterationPrompt => do
      match ← settle (runBackendTask config guard.projectId opened.session routePolicy
          iterationPrompt) with
      | .ok (outcome, events) =>
        judgeExplicitLoopTurn config guard opened iteration progress outcome events
      | .error error => judgeExplicitLoopFailure config guard opened progress error

/-- `for iteration in 1..=max_turns`, with the number of iterations that remain, and `terminal` for
    the statement after the loop. -/
def explicitLoopIterations (terminal : VibeCoderError) (routePolicy : ModelRoutePolicyConfig)
    (prompt : String) : Nat → LoopProgress → CoreM PersistedExplicitAgentLoopOutcome
  | 0, _ => throw terminal
  | remaining + 1, progress => do
    match ← explicitLoopIteration config guard opened routePolicy prompt
        (guard.policy.maxTurns - remaining) progress with
    | .again progress => explicitLoopIterations terminal routePolicy prompt remaining progress
    | .finished outcome => pure outcome

/-- The progress before the first iteration: the baseline tree has been seen once. -/
def LoopProgress.start (baseline : CheckpointMetadata) : LoopProgress where
  previousTreeSha256 := baseline.treeSha256
  workspaceOccurrences := Function.update (fun _ => 0) baseline.treeSha256 1
  turnsCompleted := 0
  totalToolCalls := 0
  totalSuccessfulMutations := 0

/-- The checks of `run_persisted_explicit_agent_loop` before it opens its turn. -/
def prepareExplicitLoop (prompt : String) : CoreM Unit := do
  resume (validateConversationModelPrompt prompt)
  act (.beginOnce guard.started)
  let requested ← act (.isRequested guard.cancellation)
  failIf requested .cancelled
  requireAgentActionRuntime config "explicit_agent_loop_command_tools_must_remain_disabled"
    "explicit_agent_loop_exact_model_bridge_required"
  conversationStore config

/-- `run_persisted_explicit_agent_loop` before its loop. -/
def openExplicitLoop (prompt : String) : CoreM OpenedAction := do
  prepareExplicitLoop config guard prompt
  openAgentActionTurn config guard.projectId guard.conversationId prompt

/-- `run_persisted_explicit_agent_loop`, with `terminal` for the statement after its loop. -/
def runExplicitLoopEnding (terminal : VibeCoderError) (routePolicy : ModelRoutePolicyConfig)
    (prompt : String) : CoreM PersistedExplicitAgentLoopOutcome := do
  let opened ← openExplicitLoop config guard prompt
  explicitLoopIterations config guard opened terminal routePolicy prompt guard.policy.maxTurns
    (.start opened.checkpoint)

/-- `run_persisted_explicit_agent_loop`. -/
def runPersistedExplicitAgentLoop (routePolicy : ModelRoutePolicyConfig) (prompt : String) :
    CoreM PersistedExplicitAgentLoopOutcome :=
  runExplicitLoopEnding config guard
    (agentError "explicit_agent_loop_unreachable_terminal_state") routePolicy prompt

end VibeCoder
