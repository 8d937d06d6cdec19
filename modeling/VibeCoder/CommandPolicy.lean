/-
  The command approval policy (`vibecoder-command-policy`): requests wait for an allow-once
  decision, a decision issues one execution envelope stamped with the project's authorization
  epoch, and advancing the epoch makes every envelope issued before stale.

  The two `HashMap`s: the pending requests are a list searched by request id (ids come from
  `Uuid::new_v4`, and a collision is refused), the epochs a function that is zero where the map
  has no entry.  A path is its UTF-8 text; the poisoned-lock errors are left out, no critical
  section can panic.
-/
import VibeCoder.Conversation

namespace VibeCoder

def maxArguments : Nat := 64
def maxArgumentBytes : Nat := 4096
def maxTotalArgumentBytes : Nat := 32 * 1024
def maxRelativePathBytes : Nat := 4096
def maxPathComponentBytes : Nat := 255
def maxRuntimeToolIdBytes : Nat := 64
def maxCommandSessionIdBytes : Nat := 256
def maxPendingCommands : Nat := 64
def maxPendingPerSession : Nat := 8

/-- `INTERNAL_TEMP_PREFIX`. -/
def internalTempPrefix : String := ".vibecoder-tmp-"

/-- `command_error`. -/
def commandError (code : String) : VibeCoderError := .command code

/-- `CommandProgram`. -/
inductive CommandProgram where
  | runtimeTool (toolId : String)
  | workspaceExecutable (relativePath : String)
  deriving DecidableEq, Repr

/-- `CommandSpec`. -/
structure CommandSpec where
  program : CommandProgram
  args : List String
  workingDir : String
  deriving DecidableEq, Repr

/-- `CommandApprovalDecision`. -/
inductive CommandApprovalDecision where
  | allowOnce
  | deny
  deriving DecidableEq, Repr

/-- `CommandApprovalRequest`. -/
structure CommandApprovalRequest where
  requestId : String
  sessionId : SessionId
  projectId : ProjectId
  command : CommandSpec
  deriving DecidableEq, Repr

/-- `CommandRequestOutcome`. -/
inductive CommandRequestOutcome where
  | approvalRequired (approval : CommandApprovalRequest)
  | denied (code : String)
  deriving DecidableEq, Repr

/-- `CommandExecutionEnvelope`: only `decide` issues one. -/
structure CommandExecutionEnvelope where
  requestId : String
  sessionId : SessionId
  projectId : ProjectId
  command : CommandSpec
  projectEpoch : Nat
  deriving DecidableEq, Repr

/-- `CommandDecisionOutcome`. -/
inductive CommandDecisionOutcome where
  | authorized (envelope : CommandExecutionEnvelope)
  | denied (code : String)
  deriving DecidableEq, Repr

/-- `CommandPolicyConfig`. -/
structure CommandPolicyConfig where
  allowedRuntimeTools : List String
  allowWorkspaceExecutables : Bool
  deriving DecidableEq, Repr

/-! ## Validation of a command -/

/-- `has_forbidden_display_char`: control and bidirectional formatting characters. -/
def hasForbiddenDisplayChar (value : String) : Bool :=
  value.toList.any (fun ch =>
    isControl ch || ch.toNat == 0x061C || ch.toNat == 0x200E || ch.toNat == 0x200F ||
      (0x202A ≤ ch.toNat && ch.toNat ≤ 0x202E) || (0x2066 ≤ ch.toNat && ch.toNat ≤ 0x2069))

/-- The loop of `validate_command_spec` over the arguments. -/
def validateArgs (total : Nat) : List String → Result Unit
  | [] => .ok ()
  | arg :: rest =>
    if decide (len arg > maxArgumentBytes) || hasForbiddenDisplayChar arg then
      .error (commandError "command_argument_invalid")
    else if total + len arg > maxTotalArgumentBytes then
      .error (commandError "command_argument_bytes_exceeded")
    else validateArgs (total + len arg) rest

/-- The shells `validate_runtime_tool_id` forbids, in lower case. -/
def shellTools : List String :=
  ["sh", "bash", "dash", "zsh", "fish", "cmd", "cmd.exe", "powershell", "powershell.exe", "pwsh",
    "pwsh.exe"]

/-- `validate_runtime_tool_id`. -/
def validateRuntimeToolId (toolId : String) : Result String :=
  if toolId.isEmpty || decide (len toolId > maxRuntimeToolIdBytes) ||
      !toolId.toList.all (fun c => c.isAlphanum || c == '.' || c == '_' || c == '-') then
    .error (commandError "command_runtime_tool_id_invalid")
  else if String.ofList (toolId.toList.map Char.toLower) ∈ shellTools then
    .error (commandError "command_runtime_shell_tool_forbidden")
  else .ok toolId

/-- The text between the slashes of a path, empty pieces included. -/
def splitSlash : List Char → List (List Char)
  | [] => [[]]
  | c :: rest =>
    if c == '/' then [] :: splitSlash rest
    else
      match splitSlash rest with
      | [] => [[c]]
      | piece :: pieces => (c :: piece) :: pieces

/-- The loop of `normalize_project_relative` over `path.components()`: repeated slashes and `.`
    vanish, `..` is refused. -/
def normalizeComponents : List (List Char) → Result (List String)
  | [] => .ok []
  | piece :: rest => do
    let value := String.ofList piece
    if piece.isEmpty || value == "." then normalizeComponents rest
    else if value == ".." then throw (commandError "command_path_parent_forbidden")
    else if decide (len value > maxPathComponentBytes) ||
        internalTempPrefix.toList.isPrefixOf piece then
      throw (commandError "command_path_component_invalid")
    else
      let components ← normalizeComponents rest
      pure (value :: components)

/-- `normalize_project_relative`. -/
def normalizeProjectRelative (path : String) (allowRoot : Bool) : Result String :=
  if path.toList.head? = some '/' then
    .error (commandError "command_path_must_be_project_relative")
  else if decide (len path > maxRelativePathBytes) || path.toList.contains '\\' ||
      hasForbiddenDisplayChar path then
    .error (commandError "command_path_invalid")
  else
    match normalizeComponents (splitSlash path.toList) with
    | .error e => .error e
    | .ok [] =>
      if allowRoot then .ok "." else .error (commandError "command_executable_path_empty")
    | .ok components => .ok ("/".intercalate components)

/-- `validate_command_spec`. -/
def validateCommandSpec (command : CommandSpec) : Result CommandSpec := do
  if command.args.length > maxArguments then
    throw (commandError "command_argument_count_exceeded")
  validateArgs 0 command.args
  let workingDir ← normalizeProjectRelative command.workingDir true
  let program ← match command.program with
    | .runtimeTool toolId => do
      let toolId ← validateRuntimeToolId toolId
      pure (CommandProgram.runtimeTool toolId)
    | .workspaceExecutable relativePath => do
      let relativePath ← normalizeProjectRelative relativePath false
      pure (CommandProgram.workspaceExecutable relativePath)
  pure { program := program, args := command.args, workingDir := workingDir }

/-- `validate_session_scope`. -/
def validateSessionScope (sessionId : SessionId) : Result Unit :=
  if blank sessionId.value || !trimmed sessionId.value ||
      decide (len sessionId.value > maxCommandSessionIdBytes) ||
      hasForbiddenDisplayChar sessionId.value then
    .error (commandError "command_session_id_invalid")
  else .ok ()

/-- `validate_request_id`: the text is the hyphenated form of a UUID. -/
def validateApprovalRequestId (requestId : String) : Result Unit :=
  let chars := requestId.toList
  let wellFormed := (List.range 36).all (fun i =>
    match chars[i]? with
    | none => false
    | some c =>
      if i == 8 || i == 13 || i == 18 || i == 23 then c == '-'
      else c.isDigit || ('a' ≤ c && c ≤ 'f'))
  if chars.length == 36 && wellFormed then .ok ()
  else .error (commandError "command_request_id_invalid")

/-! ## The engine -/

/-- `PendingCommand`, with the id it is registered under. -/
structure PendingCommand where
  requestId : String
  sessionId : SessionId
  projectId : ProjectId
  command : CommandSpec
  deriving DecidableEq, Repr

/-- `CommandPolicyState`. -/
structure CommandPolicyState where
  pending : List PendingCommand
  projectEpochs : ProjectId → Nat

namespace CommandPolicyState

/-- `CommandPolicyState::default()`. -/
def empty : CommandPolicyState := { pending := [], projectEpochs := fun _ => 0 }

/-- `policy_denial`. -/
def policyDenial (config : CommandPolicyConfig) (command : CommandSpec) : Option String :=
  match command.program with
  | .runtimeTool toolId =>
    if toolId ∈ config.allowedRuntimeTools then none
    else some "command_runtime_tool_not_allowed"
  | .workspaceExecutable _ =>
    if config.allowWorkspaceExecutables then none
    else some "command_workspace_executable_not_allowed"

/-- `request_command`; `uuid` is the fresh `Uuid::new_v4()`. -/
def requestCommand (s : CommandPolicyState) (config : CommandPolicyConfig) (uuid : BitVec 128)
    (sessionId : SessionId) (projectId : ProjectId) (command : CommandSpec) :
    Result CommandRequestOutcome × CommandPolicyState :=
  match validateSessionScope sessionId, validateCommandSpec command with
  | .error e, _ => (.error e, s)
  | .ok (), .error e => (.error e, s)
  | .ok (), .ok command =>
    match policyDenial config command with
    | some code => (.ok (.denied code), s)
    | none =>
      if s.pending.length ≥ maxPendingCommands then
        (.error (commandError "command_pending_global_limit"), s)
      else if (s.pending.filter (fun p => p.sessionId == sessionId)).length ≥
          maxPendingPerSession then
        (.error (commandError "command_pending_session_limit"), s)
      else if s.pending.any (fun p =>
          p.sessionId == sessionId && p.projectId == projectId && p.command == command) then
        (.error (commandError "command_request_duplicate_pending"), s)
      else
        let requestId := hyphenated uuid
        if s.pending.any (fun p => p.requestId == requestId) then
          (.error (commandError "command_request_id_collision"), s)
        else
          (.ok (.approvalRequired {
              requestId := requestId
              sessionId := sessionId
              projectId := projectId
              command := command }),
            { s with
              pending := s.pending ++ [{
                requestId := requestId
                sessionId := sessionId
                projectId := projectId
                command := command }] })

/-- The checks of `decide` up to the pending request it removes. -/
def checkDecision (s : CommandPolicyState) (sessionId : SessionId) (projectId : ProjectId)
    (approval : CommandApprovalRequest) (decision : CommandApprovalDecision) :
    Result PendingCommand := do
  validateSessionScope sessionId
  validateSessionScope approval.sessionId
  validateApprovalRequestId approval.requestId
  if approval.sessionId ≠ sessionId ∨ approval.projectId ≠ projectId then
    throw (commandError "command_approval_context_mismatch")
  match s.pending.find? (fun p => p.requestId == approval.requestId) with
  | none => throw (commandError "command_request_not_pending")
  | some pending =>
    if pending.sessionId ≠ sessionId ∨ pending.projectId ≠ projectId then
      throw (commandError "command_request_scope_mismatch")
    if decision = .allowOnce ∧ pending.command ≠ approval.command then
      throw (commandError "command_approval_payload_mismatch")
    pure pending

/-- `decide`: an allowed command gets an envelope of the current epoch. -/
def decide (s : CommandPolicyState) (sessionId : SessionId) (projectId : ProjectId)
    (approval : CommandApprovalRequest) (decision : CommandApprovalDecision) :
    Result CommandDecisionOutcome × CommandPolicyState :=
  match s.checkDecision sessionId projectId approval decision with
  | .error e => (.error e, s)
  | .ok pending =>
    let s := { s with
      pending := s.pending.filter (fun p => p.requestId != approval.requestId) }
    match decision with
    | .deny => (.ok (.denied "command_denied_by_user"), s)
    | .allowOnce =>
      (.ok (.authorized {
        requestId := approval.requestId
        sessionId := pending.sessionId
        projectId := pending.projectId
        command := pending.command
        projectEpoch := s.projectEpochs pending.projectId }), s)

/-- `revoke_pending_for_session`: how many requests it dropped. -/
def revokePendingForSession (s : CommandPolicyState) (sessionId : SessionId) :
    Result Nat × CommandPolicyState :=
  match validateSessionScope sessionId with
  | .error e => (.error e, s)
  | .ok () =>
    let pending := s.pending.filter (fun p => p.sessionId != sessionId)
    (.ok (s.pending.length - pending.length), { s with pending := pending })

/-- `invalidate_project_authorizations`: the pending requests of the project go even when the
    epoch cannot advance. -/
def invalidateProjectAuthorizations (s : CommandPolicyState) (projectId : ProjectId) :
    Result Unit × CommandPolicyState :=
  let s := { s with pending := s.pending.filter (fun p => p.projectId != projectId) }
  if s.projectEpochs projectId ≥ u64Max then
    (.error (commandError "command_project_epoch_overflow"), s)
  else
    (.ok (), { s with
      projectEpochs := fun p =>
        if p = projectId then s.projectEpochs projectId + 1 else s.projectEpochs p })

/-- `validate_execution_envelope`. -/
def validateExecutionEnvelope (s : CommandPolicyState) (envelope : CommandExecutionEnvelope) :
    Result Unit :=
  if envelope.projectEpoch ≠ s.projectEpochs envelope.projectId then
    .error (commandError "command_execution_envelope_stale_project_epoch")
  else .ok ()

/-! ## What the operations do to the epochs -/

/-- A request leaves the epochs alone. -/
theorem requestCommand_epochs (s : CommandPolicyState) (config : CommandPolicyConfig)
    (uuid : BitVec 128) (sessionId : SessionId) (projectId : ProjectId) (command : CommandSpec) :
    (s.requestCommand config uuid sessionId projectId command).2.projectEpochs =
      s.projectEpochs := by
  rw [requestCommand]
  split
  · rfl
  · rfl
  · split
    · rfl
    · split
      · rfl
      · split
        · rfl
        · split
          · rfl
          · dsimp only
            split
            · rfl
            · rfl

/-- A decision leaves the epochs alone, and an envelope it issues carries the current one. -/
theorem decide_epochs (s : CommandPolicyState) (sessionId : SessionId) (projectId : ProjectId)
    (approval : CommandApprovalRequest) (decision : CommandApprovalDecision) :
    (s.decide sessionId projectId approval decision).2.projectEpochs = s.projectEpochs ∧
    ∀ envelope, (s.decide sessionId projectId approval decision).1 = .ok (.authorized envelope) →
      envelope.projectEpoch = s.projectEpochs envelope.projectId := by
  rw [decide]
  cases s.checkDecision sessionId projectId approval decision with
  | error e => exact ⟨rfl, fun envelope h => by cases h⟩
  | ok pending =>
    cases decision with
    | deny => exact ⟨rfl, fun envelope h => by cases h⟩
    | allowOnce =>
      refine ⟨rfl, fun envelope h => ?_⟩
      cases h
      rfl

/-- Invalidation never lowers an epoch, and below `u64::MAX` it advances the project's. -/
theorem invalidate_epochs (s : CommandPolicyState) (projectId : ProjectId) :
    (∀ p, s.projectEpochs p ≤ (s.invalidateProjectAuthorizations projectId).2.projectEpochs p) ∧
    (s.projectEpochs projectId < u64Max →
      (s.invalidateProjectAuthorizations projectId).1 = .ok () ∧
      s.projectEpochs projectId <
        (s.invalidateProjectAuthorizations projectId).2.projectEpochs projectId) := by
  rw [invalidateProjectAuthorizations]
  dsimp only
  by_cases hmax : s.projectEpochs projectId ≥ u64Max
  · rw [if_pos hmax]
    exact ⟨fun p => Nat.le_refl _, fun hlt => absurd hlt (Nat.not_lt.mpr hmax)⟩
  · rw [if_neg hmax]
    dsimp only
    refine ⟨fun p => ?_, fun _ => ⟨rfl, ?_⟩⟩
    · by_cases hp : p = projectId
      · rw [if_pos hp, hp]; omega
      · exact Nat.le_of_eq (if_neg hp).symm
    · rw [if_pos rfl]; omega

end CommandPolicyState

end VibeCoder
