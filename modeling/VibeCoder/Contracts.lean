/-
  The contracts the core is written against (`vibecoder-agent-contract`,
  `vibecoder-gateway-contract`, `vibecoder-checkpoint-contract`), and the checks the core makes
  on what comes back through them.

  Left out: `GatewayHealth`, `GatewayConfig`, the capability records, and the file and byte
  counts of checkpoint metadata, which no modelled function reads.  A `GatewayCredential` is
  handed through untouched and has no counterpart here.
-/
import VibeCoder.Conversation

namespace VibeCoder

/-! ## Agent and gateway -/

/-- `ModelGatewayBridgeIdentity`. -/
structure ModelGatewayBridgeIdentity where
  gatewayId : String
  transportProvider : String
  exactModelIdPassthrough : Bool
  deriving DecidableEq, Repr

/-- `GatewayExecutionProfile`. -/
structure GatewayExecutionProfile where
  gatewayId : String
  upstreamVersion : String
  profileId : String
  profileSha256 : String
  exactModelOnly : Bool
  hiddenModelReroutesDisabled : Bool
  deriving DecidableEq, Repr

/-- `permits_exact_model_execution`. -/
def GatewayExecutionProfile.permitsExactModelExecution (profile : GatewayExecutionProfile) : Bool :=
  profile.exactModelOnly && profile.hiddenModelReroutesDisabled

/-- `GatewayChatRole`. -/
inductive GatewayChatRole where
  | system
  | user
  | assistant
  deriving DecidableEq, Repr

/-- `GatewayChatMessage`. -/
structure GatewayChatMessage where
  role : GatewayChatRole
  content : String
  deriving DecidableEq, Repr

/-- `GatewayChatRequest`. -/
structure GatewayChatRequest where
  model : ModelRef
  messages : List GatewayChatMessage
  maxOutputTokens : Nat
  deriving DecidableEq, Repr

/-- `GatewayChatResponse`. -/
structure GatewayChatResponse where
  requestedModelId : String
  observedModelId : Option String
  text : String
  finishReason : Option String
  usage : Option TokenUsage
  deriving DecidableEq, Repr

/-! ## Checkpoints -/

def maxCheckpointsPerProject : Nat := 64

/-- `checkpoint_error`. -/
def checkpointError (code : String) : VibeCoderError := .checkpoint code

/-- `CheckpointId`.  The store draws a fresh UUID and refuses one already in use; here the ids it
    hands out are numbered. -/
structure CheckpointId where
  serial : Nat
  deriving DecidableEq, Repr

/-- `CheckpointReason`. -/
inductive CheckpointReason where
  | manual
  | beforeAgentChange
  | agentChangeVerification
  | beforeBuildRepair
  | beforeRollback
  deriving DecidableEq, Repr

/-- `CheckpointMetadata`. -/
structure CheckpointMetadata where
  checkpointId : CheckpointId
  projectId : ProjectId
  reason : CheckpointReason
  treeSha256 : String
  deriving DecidableEq, Repr

/-- `RollbackResult`. -/
structure RollbackResult where
  projectId : ProjectId
  checkpointId : CheckpointId
  treeSha256 : String
  deriving DecidableEq, Repr

/-! ## What the core requires of the gateway -/

def maxConversationModelMessages : Nat := 64
def maxConversationModelMessageBytes : Nat := 128 * 1024
def maxConversationModelContextBytes : Nat := 256 * 1024
def maxConversationModelOutputTokens : Nat := 8192
def maxConversationModelIdBytes : Nat := 512

/-- `require_deterministic_gateway_profile`. -/
def requireDeterministicGatewayProfile (profile : GatewayExecutionProfile) : Result Unit :=
  if profile.gatewayId.isEmpty || profile.upstreamVersion.isEmpty || profile.profileId.isEmpty ||
      len profile.profileSha256 != 64 ||
      !profile.profileSha256.toList.all (fun c => c.isDigit || ('a' ≤ c && c ≤ 'f')) ||
      !profile.permitsExactModelExecution then
    .error (.gateway "deterministic_gateway_runtime_profile_required")
  else .ok ()

/-- `require_agent_gateway_bridge_matches_profile`. -/
def requireAgentGatewayBridgeMatchesProfile (bridge : ModelGatewayBridgeIdentity)
    (profile : GatewayExecutionProfile) : Result Unit :=
  if bridge.gatewayId != profile.gatewayId || bridge.transportProvider.isEmpty ||
      !trimmed bridge.transportProvider || hasControl bridge.transportProvider ||
      !bridge.exactModelIdPassthrough then
    .error (.gateway "agent_model_gateway_bridge_profile_mismatch")
  else .ok ()

/-- `validate_conversation_model_id`: graphic ASCII. -/
def validateConversationModelId (value : String) : Result Unit :=
  if value.isEmpty || decide (len value > maxConversationModelIdBytes) || !trimmed value ||
      !value.toList.all (fun c => 0x21 ≤ c.toNat && c.toNat ≤ 0x7E) then
    .error (.invalidRequest "conversation_model_id_invalid")
  else .ok ()

/-- `validate_conversation_model_prompt`. -/
def validateConversationModelPrompt (value : String) : Result Unit :=
  if blank value || decide (len value > maxConversationModelMessageBytes) || hasNul value then
    .error (.invalidRequest "conversation_model_prompt_invalid")
  else .ok ()

/-- `select_exact_gateway_model`: exactly one entry of the catalog has the id. -/
def selectExactGatewayModel (catalog : List ModelRef) (requestedModelId : String) :
    Result ModelRef :=
  match catalog.filter (fun candidate => candidate.id == requestedModelId) with
  | [] => .error (.gateway "conversation_model_not_in_catalog")
  | [model] => .ok model
  | _ :: _ :: _ => .error (.gateway "conversation_model_catalog_ambiguous")

/-- `validate_conversation_model_response`. -/
def validateConversationModelResponse (model : ModelRef) (response : GatewayChatResponse) :
    Result Unit := do
  if response.requestedModelId ≠ model.id then
    throw (.gateway "conversation_model_response_request_mismatch")
  if response.observedModelId.any (fun observed => observed != model.id) then
    throw (.gateway "conversation_model_response_identity_mismatch")
  if messageTextInvalid response.text then
    throw (.gateway "conversation_model_response_text_invalid")

/-- The role a stored message is sent under. -/
def chatRole : ConversationRole → GatewayChatRole
  | .user => .user
  | .assistant => .assistant

/-- The loop of `build_gateway_conversation_context` over the messages, latest first: how many
    are taken so far, their bytes, and the ones taken from here on, oldest first. -/
def takeContext (count total : Nat) :
    List PersistedConversationMessage → List GatewayChatMessage × Nat
  | [] => ([], total)
  | message :: older =>
    if count = maxConversationModelMessages ∨
        len message.text > maxConversationModelMessageBytes then ([], total)
    else if total + len message.text > maxConversationModelContextBytes then ([], total)
    else
      let taken := takeContext (count + 1) (total + len message.text) older
      (taken.1 ++ [{ role := chatRole message.role, content := message.text }], taken.2)

/-- A context does not start with an answer: a leading one is removed, with its bytes. -/
def dropLeadingAnswer (taken : List GatewayChatMessage × Nat) : List GatewayChatMessage × Nat :=
  match taken.1 with
  | [] => taken
  | first :: rest =>
    if first.role = .assistant then (rest, taken.2 - len first.content) else taken

/-- `build_gateway_conversation_context`. -/
def buildGatewayConversationContext (conversation : PersistedConversation) :
    Result (List GatewayChatMessage × Nat) :=
  let taken := takeContext 0 0 conversation.messages.reverse
  if taken.1.isEmpty then .error (.invalidRequest "conversation_model_context_empty")
  else
    let context := dropLeadingAnswer taken
    if context.1.getLast?.map GatewayChatMessage.role = some .user then .ok context
    else .error (persistenceError "conversation_model_context_latest_user_missing")

/-! ## Room for an answer -/

/-- The message-count and text-size test of the two capacity checks: a user message and the
    longest answer still fit. -/
def roomForTurn (conversation : PersistedConversation) (prompt : String)
    (countCode textCode : String) : Result Unit :=
  if conversation.messages.length > maxConversationMessages - 2 then
    .error (persistenceError countCode)
  else if textBytes conversation.messages + len prompt + maxConversationMessageBytes >
      maxConversationTextBytes then
    .error (persistenceError textCode)
  else .ok ()

/-- `ensure_conversation_model_turn_capacity`. -/
def ensureConversationModelTurnCapacity (conversation : PersistedConversation)
    (prompt : String) : Result Unit :=
  roomForTurn conversation prompt "conversation_model_turn_message_capacity_exhausted"
    "conversation_model_turn_text_capacity_exhausted"

/-- `ensure_conversation_agent_action_capacity`. -/
def ensureConversationAgentActionCapacity (conversation : PersistedConversation)
    (prompt : String) : Result Unit :=
  roomForTurn conversation prompt "conversation_agent_action_message_capacity_exhausted"
    "conversation_agent_action_text_capacity_exhausted"

/-- A conversation that passed a capacity check takes the prompt and then any valid answer. -/
theorem roomForTurn_append {conversation asked : PersistedConversation} {prompt text : String}
    {countCode textCode : String}
    (hroom : roomForTurn conversation prompt countCode textCode = .ok ())
    (hasked : conversation.appendMessage .user prompt = .ok asked)
    (htext : messageTextInvalid text = false) (pending : Bool) :
    ∃ answered, (asked.withPending pending).appendMessage .assistant text = .ok answered := by
  obtain ⟨-, -, -, rfl⟩ := PersistedConversation.appendMessage_ok hasked
  rw [roomForTurn] at hroom
  split at hroom
  · cases hroom
  · rename_i hcount
    split at hroom
    · cases hroom
    · rename_i hbytes
      have hlen : len text ≤ maxConversationMessageBytes := by
        rw [messageTextInvalid, Bool.or_eq_false_iff, Bool.or_eq_false_iff] at htext
        have h := htext.1.2
        rw [decide_eq_false_iff_not] at h
        omega
      have hmax : maxConversationMessages = 4096 := rfl
      have hfew : ¬ conversation.messages.length + 1 ≥ maxConversationMessages := by omega
      have hfits : ¬ textBytes conversation.messages + len prompt + len text >
          maxConversationTextBytes := by omega
      simp [PersistedConversation.appendMessage, PersistedConversation.withPending, textBytes,
        htext] at hfew hfits ⊢
      rw [if_neg (by omega), if_neg (by omega)]
      exact ⟨_, rfl⟩

end VibeCoder
