/-
  Persisted state (`vibecoder-persistence-contract`, and the encoding of
  `vibecoder-persistence-local`): the project state, the conversation record with its limits, and
  the number of bytes a record takes on disk.

  A record is stored as compact JSON (`serde_json::to_vec`) and refused when that exceeds
  `maxPersistedConversationBytes`, so the encoder is part of what a store can refuse.  It writes
  the fields in declaration order, `null` for an absent option, and escapes `"`, `\` and the
  characters below U+0020.
-/
import Mathlib.Algebra.GroupWithZero.Nat
import VibeCoder.Routing

namespace VibeCoder

def projectStateSchemaV1 : Nat := 1
def conversationStateSchemaV1 : Nat := 1
def maxPersistedConversationsPerProject : Nat := 512
def maxPersistedStateBytes : Nat := 256 * 1024
def maxPersistedConversationBytes : Nat := 16 * 1024 * 1024
def maxConversationMessages : Nat := 4096
def maxConversationMessageBytes : Nat := 256 * 1024
def maxConversationTextBytes : Nat := 12 * 1024 * 1024
def maxConversationTitleBytes : Nat := 200
def maxRuntimeIdBytes : Nat := 64
def maxPersistedSessionIdBytes : Nat := 128

/-- `u64::MAX`. -/
def u64Max : Nat := 2 ^ 64 - 1

/-- `persistence_error`. -/
def persistenceError (code : String) : VibeCoderError := .persistence code

/-! ## Records -/

/-- `PersistedAgentSession`. -/
structure PersistedAgentSession where
  runtimeId : String
  sessionId : SessionId
  preferredModel : Option ModelRouteTargetConfig
  deriving DecidableEq, Repr

/-- `PersistedProjectState`. -/
structure PersistedProjectState where
  schema : Nat
  revision : Nat
  projectId : ProjectId
  sessionCreationPending : Bool
  agentSession : Option PersistedAgentSession
  routePolicy : Option ModelRoutePolicyConfig
  deriving DecidableEq, Repr

/-- `ConversationRole`. -/
inductive ConversationRole where
  | user
  | assistant
  deriving DecidableEq, Repr

/-- `PersistedConversationMessage`. -/
structure PersistedConversationMessage where
  sequence : Nat
  role : ConversationRole
  text : String
  deriving DecidableEq, Repr

/-- `PersistedConversation`. -/
structure PersistedConversation where
  schema : Nat
  revision : Nat
  conversationId : ConversationId
  projectId : ProjectId
  sessionCreationPending : Bool
  agentSession : Option PersistedAgentSession
  turnPending : Bool
  title : Option String
  messages : List PersistedConversationMessage
  deriving DecidableEq, Repr

/-! ## Validation -/

/-- `validate_runtime_id`: lower-case ASCII letters, digits, `-`, `_` and `.`. -/
def validateRuntimeId (value : String) : Result Unit :=
  if value.isEmpty || decide (len value > maxRuntimeIdBytes) ||
      !value.toList.all (fun c => c.isLower || c.isDigit || c == '-' || c == '_' || c == '.') then
    .error (persistenceError "project_state_runtime_id_invalid")
  else .ok ()

/-- `validate_session_id`: ASCII letters, digits, `-` and `_`. -/
def validateSessionId (value : SessionId) : Result Unit :=
  if value.value.isEmpty || decide (len value.value > maxPersistedSessionIdBytes) ||
      !value.value.toList.all (fun c => c.isAlphanum || c == '-' || c == '_') then
    .error (persistenceError "project_state_session_id_invalid")
  else .ok ()

/-- `PersistedAgentSession::validate`. -/
def PersistedAgentSession.validate (session : PersistedAgentSession) : Result Unit := do
  validateRuntimeId session.runtimeId
  validateSessionId session.sessionId
  match session.preferredModel with
  | some model => validateTarget model
  | none => pure ()

/-- `PersistedProjectState::validate`. -/
def PersistedProjectState.validate (state : PersistedProjectState) : Result Unit := do
  if state.schema ≠ projectStateSchemaV1 then
    throw (persistenceError "project_state_schema_unsupported")
  if state.sessionCreationPending && state.agentSession.isSome then
    throw (persistenceError "project_state_session_pending_conflict")
  match state.agentSession with
  | some session => session.validate
  | none => pure ()
  match state.routePolicy with
  | some policy => policy.validate
  | none => pure ()

/-- The number of text bytes in a list of messages. -/
def textBytes (messages : List PersistedConversationMessage) : Nat :=
  (messages.map (fun message => len message.text)).sum

/-- A text no message may carry: empty, too long, or with a NUL. -/
def messageTextInvalid (text : String) : Bool :=
  text.isEmpty || decide (len text > maxConversationMessageBytes) || hasNul text

/-- The loop of `validate` over the messages, with its running index and byte total. -/
def validateMessages (index total : Nat) : List PersistedConversationMessage → Result Unit
  | [] => .ok ()
  | message :: rest =>
    if message.sequence ≠ index then
      .error (persistenceError "conversation_message_sequence_invalid")
    else if messageTextInvalid message.text then
      .error (persistenceError "conversation_message_invalid")
    else if total + len message.text > maxConversationTextBytes then
      .error (persistenceError "conversation_text_too_large")
    else validateMessages (index + 1) (total + len message.text) rest

namespace PersistedConversation

/-- The title check of `validate`. -/
def titleInvalid (title : String) : Bool :=
  title.isEmpty || decide (len title > maxConversationTitleBytes) || !trimmed title ||
    hasControl title

/-- The checks of `validate` before the messages. -/
def validateHeader (c : PersistedConversation) : Result Unit := do
  if c.schema ≠ conversationStateSchemaV1 then
    throw (persistenceError "conversation_state_schema_unsupported")
  if c.sessionCreationPending = c.agentSession.isSome then
    throw (persistenceError "conversation_session_state_invalid")
  match c.agentSession with
  | some session => session.validate
  | none => pure ()
  if c.sessionCreationPending && (c.turnPending || !c.messages.isEmpty) then
    throw (persistenceError "conversation_creation_pending_payload_invalid")
  match c.title with
  | some title => if titleInvalid title then throw (persistenceError "conversation_title_invalid")
  | none => pure ()

/-- The role of the last message. -/
def lastRole (c : PersistedConversation) : Option ConversationRole :=
  c.messages.getLast?.map PersistedConversationMessage.role

/-- `PersistedConversation::validate`. -/
def validate (c : PersistedConversation) : Result Unit := do
  c.validateHeader
  if c.messages.length > maxConversationMessages then
    throw (persistenceError "conversation_message_limit_exceeded")
  validateMessages 0 0 c.messages
  if c.turnPending && c.lastRole != some .user then
    throw (persistenceError "conversation_pending_turn_invalid")

/-- `append_message`. -/
def appendMessage (c : PersistedConversation) (role : ConversationRole) (text : String) :
    Result PersistedConversation :=
  if messageTextInvalid text then
    .error (persistenceError "conversation_message_invalid")
  else if c.messages.length ≥ maxConversationMessages then
    .error (persistenceError "conversation_message_limit_exceeded")
  else if textBytes c.messages + len text > maxConversationTextBytes then
    .error (persistenceError "conversation_text_too_large")
  else
    .ok { c with
      messages := c.messages ++
        [{ sequence := c.messages.length, role := role, text := text }] }

/-- The record with its pending marker set or cleared. -/
def withPending (c : PersistedConversation) (pending : Bool) : PersistedConversation :=
  { c with turnPending := pending }

end PersistedConversation

/-! ## The stored size -/

/-- One lower-case hexadecimal digit. -/
def hexDigit (n : Nat) : Char :=
  if n < 10 then Char.ofNat (48 + n) else Char.ofNat (87 + n)

/-- The `count` low nibbles of `n`, most significant first. -/
def hexDigits (count n : Nat) : List Char :=
  (List.range count).map (fun i => hexDigit (n >>> (4 * (count - 1 - i)) % 16))

/-- `Uuid::hyphenated`: groups of 8, 4, 4, 4 and 12 digits. -/
def hyphenated (uuid : BitVec 128) : String :=
  let digits := hexDigits 32 uuid.toNat
  String.ofList (digits.take 8 ++ '-' :: (digits.drop 8).take 4 ++ '-' :: (digits.drop 12).take 4 ++
    '-' :: (digits.drop 16).take 4 ++ '-' :: digits.drop 20)

namespace Json

/-- The bytes one character takes inside a JSON string. -/
def charBytes (c : Char) : Nat :=
  if c == '"' || c == '\\' then 2
  else if c.toNat < 0x20 then
    if c.toNat == 8 || c.toNat == 9 || c.toNat == 10 || c.toNat == 12 || c.toNat == 13 then 2
    else 6
  else c.utf8Size

/-- A JSON string: the escaped characters between two quotes. -/
def stringBytes (value : String) : Nat := 2 + (value.toList.map charBytes).sum

/-- An unsigned integer. -/
def natBytes (n : Nat) : Nat := (Nat.toDigits 10 n).length

/-- `true` or `false`. -/
def boolBytes (b : Bool) : Nat := if b then 4 else 5

/-- `null`, or the value. -/
def optionBytes {α : Type} (bytes : α → Nat) : Option α → Nat
  | none => 4
  | some a => bytes a

/-- One object member: the quoted name, a colon, the value. -/
def memberBytes (name : String) (value : Nat) : Nat := stringBytes name + 1 + value

/-- Values between brackets or braces, separated by commas. -/
def groupBytes (values : List Nat) : Nat := 2 + values.sum + (values.length - 1)

/-- `ModelRouteTargetConfig`. -/
def targetBytes (target : ModelRouteTargetConfig) : Nat :=
  groupBytes [memberBytes "model_id" (stringBytes target.modelId),
    memberBytes "provider" (optionBytes stringBytes target.provider)]

/-- `PersistedAgentSession`. -/
def sessionBytes (session : PersistedAgentSession) : Nat :=
  groupBytes [memberBytes "runtime_id" (stringBytes session.runtimeId),
    memberBytes "session_id" (stringBytes session.sessionId.value),
    memberBytes "preferred_model" (optionBytes targetBytes session.preferredModel)]

/-- `FallbackTrigger`, in snake case. -/
def triggerBytes : FallbackTrigger → Nat
  | .rateLimited => stringBytes "rate_limited"
  | .timeout => stringBytes "timeout"
  | .providerUnavailable => stringBytes "provider_unavailable"
  | .modelUnavailable => stringBytes "model_unavailable"

/-- `FallbackBoundary`, in snake case. -/
def boundaryBytes : FallbackBoundary → Nat
  | .beforeResponseOnly => stringBytes "before_response_only"

/-- `ModelRoutePolicyConfig`. -/
def policyBytes (policy : ModelRoutePolicyConfig) : Nat :=
  groupBytes [memberBytes "primary" (targetBytes policy.primary),
    memberBytes "fallbacks" (groupBytes (policy.fallbacks.map targetBytes)),
    memberBytes "fallback_on" (groupBytes (policy.fallbackOn.map triggerBytes)),
    memberBytes "fallback_boundary" (boundaryBytes policy.fallbackBoundary)]

/-- `ConversationRole`, in snake case. -/
def roleBytes : ConversationRole → Nat
  | .user => stringBytes "user"
  | .assistant => stringBytes "assistant"

/-- `PersistedConversationMessage`. -/
def messageBytes (message : PersistedConversationMessage) : Nat :=
  groupBytes [memberBytes "sequence" (natBytes message.sequence),
    memberBytes "role" (roleBytes message.role),
    memberBytes "text" (stringBytes message.text)]

end Json

open Json in
/-- The length of `serde_json::to_vec(state)`. -/
def PersistedProjectState.encodedBytes (state : PersistedProjectState) : Nat :=
  groupBytes [
    memberBytes "schema" (natBytes state.schema),
    memberBytes "revision" (natBytes state.revision),
    memberBytes "project_id" (stringBytes (hyphenated state.projectId.uuid)),
    memberBytes "session_creation_pending" (boolBytes state.sessionCreationPending),
    memberBytes "agent_session" (optionBytes sessionBytes state.agentSession),
    memberBytes "route_policy" (optionBytes policyBytes state.routePolicy)]

open Json in
/-- The length of `serde_json::to_vec(conversation)`. -/
def PersistedConversation.encodedBytes (c : PersistedConversation) : Nat :=
  groupBytes [
    memberBytes "schema" (natBytes c.schema),
    memberBytes "revision" (natBytes c.revision),
    memberBytes "conversation_id" (stringBytes (hyphenated c.conversationId.uuid)),
    memberBytes "project_id" (stringBytes (hyphenated c.projectId.uuid)),
    memberBytes "session_creation_pending" (boolBytes c.sessionCreationPending),
    memberBytes "agent_session" (optionBytes sessionBytes c.agentSession),
    memberBytes "turn_pending" (boolBytes c.turnPending),
    memberBytes "title" (optionBytes stringBytes c.title),
    memberBytes "messages" (groupBytes (c.messages.map messageBytes))]

/-! ## What appending and clearing preserve -/

namespace PersistedConversation

/-- What an accepted message looked like, and the record it left. -/
theorem appendMessage_ok {c c' : PersistedConversation} {role : ConversationRole} {text : String}
    (h : c.appendMessage role text = .ok c') :
    messageTextInvalid text = false ∧ c.messages.length < maxConversationMessages ∧
      textBytes c.messages + len text ≤ maxConversationTextBytes ∧
      c' = { c with
        messages := c.messages ++
          [{ sequence := c.messages.length, role := role, text := text }] } := by
  rw [appendMessage] at h
  split at h
  · cases h
  · rename_i htext
    split at h
    · cases h
    · rename_i hcount
      split at h
      · cases h
      · rename_i hbytes
        cases h
        exact ⟨by simpa using htext, by omega, by omega, rfl⟩

/-- The loop over the messages accepts one more message at the end under exactly the conditions
    `append_message` checks. -/
theorem validateMessages_append (message : PersistedConversationMessage) :
    ∀ (messages : List PersistedConversationMessage) (index total : Nat),
      validateMessages index total messages = .ok () →
      message.sequence = index + messages.length → messageTextInvalid message.text = false →
      total + textBytes messages + len message.text ≤ maxConversationTextBytes →
      validateMessages index total (messages ++ [message]) = .ok ()
  | [], index, total, _, hseq, htext, hbytes => by
    have hb : ¬ (total + len message.text > maxConversationTextBytes) := by
      simp only [textBytes, List.map_nil, List.sum_nil] at hbytes
      omega
    simp only [List.nil_append, validateMessages]
    rw [if_neg (by rw [hseq]; simp), htext, if_neg hb]
    rfl
  | first :: rest, index, total, hok, hseq, htext, hbytes => by
    rw [validateMessages] at hok
    rw [List.cons_append, validateMessages]
    split at hok
    · cases hok
    · rename_i h1
      split at hok
      · cases hok
      · rename_i h2
        split at hok
        · cases hok
        · rename_i h3
          rw [if_neg h1, if_neg h2, if_neg h3]
          refine validateMessages_append message rest (index + 1) (total + len first.text) hok
            ?_ htext ?_
          · rw [hseq, List.length_cons]; omega
          · simp only [textBytes, List.map_cons, List.sum_cons] at hbytes ⊢
            omega

theorem appendMessage_eq {c : PersistedConversation} (role : ConversationRole) {text : String}
    (htext : messageTextInvalid text = false)
    (hcount : c.messages.length < maxConversationMessages)
    (hbytes : textBytes c.messages + len text ≤ maxConversationTextBytes) :
    c.appendMessage role text = .ok { c with
      messages := c.messages ++
        [{ sequence := c.messages.length, role := role, text := text }] } := by
  rw [appendMessage, htext, if_neg Bool.false_ne_true, if_neg (Nat.not_le.mpr hcount),
    if_neg (Nat.not_lt.mpr hbytes)]

/-- What an accepted record looks like. -/
theorem validate_ok {c : PersistedConversation} (h : c.validate = .ok ()) :
    c.validateHeader = .ok () ∧ c.messages.length ≤ maxConversationMessages ∧
      validateMessages 0 0 c.messages = .ok () ∧
      (c.turnPending = true → c.lastRole = some .user) := by
  rw [validate] at h
  cases hheader : c.validateHeader with
  | error e => rw [hheader] at h; cases h
  | ok u =>
    rw [hheader] at h
    by_cases hcount : c.messages.length > maxConversationMessages
    · simp only [bind, Except.bind, if_pos hcount] at h
      cases h
    · cases hmessages : validateMessages 0 0 c.messages with
      | error e => simp [bind, Except.bind, if_neg hcount, hmessages] at h
      | ok v =>
        refine ⟨rfl, Nat.not_lt.mp hcount, rfl, fun hpending => ?_⟩
        by_contra hrole
        simp [bind, Except.bind, if_neg hcount, hmessages, hpending, bne_iff_ne, hrole, throw,
          throwThe, MonadExceptOf.throw] at h

theorem validate_eq {c : PersistedConversation} (hheader : c.validateHeader = .ok ())
    (hcount : c.messages.length ≤ maxConversationMessages)
    (hmessages : validateMessages 0 0 c.messages = .ok ()) (hpending : c.turnPending = false) :
    c.validate = .ok () := by
  simp [validate, hheader, hmessages, hpending, Nat.not_lt.mpr hcount, bind, Except.bind, pure,
    Except.pure]

/-- The header check sees the marker and the messages only while a session is being created. -/
theorem validateHeader_settled {c : PersistedConversation} (h : c.validateHeader = .ok ())
    (hcreation : c.sessionCreationPending = false) (pending : Bool)
    (messages : List PersistedConversationMessage) :
    { c with turnPending := pending, messages := messages }.validateHeader = .ok () := by
  rw [← h]
  simp [validateHeader, hcreation]

/-- Clearing the marker keeps a record valid. -/
theorem validate_cleared {c : PersistedConversation} (h : c.validate = .ok ())
    (hcreation : c.sessionCreationPending = false) :
    (c.withPending false).validate = .ok () := by
  obtain ⟨hheader, hcount, hmessages, -⟩ := validate_ok h
  exact validate_eq (validateHeader_settled hheader hcreation false c.messages) hcount hmessages
    rfl

/-- Appending an answer and clearing the marker keeps a record valid. -/
theorem validate_answered {c c' : PersistedConversation} {text : String} (h : c.validate = .ok ())
    (hcreation : c.sessionCreationPending = false)
    (hanswer : (c.withPending false).appendMessage .assistant text = .ok c') :
    c'.validate = .ok () := by
  obtain ⟨hheader, hcount, hmessages, -⟩ := validate_ok h
  obtain ⟨htext, hroom, hbytes, rfl⟩ := appendMessage_ok hanswer
  refine validate_eq (validateHeader_settled hheader hcreation false _) ?_ ?_ rfl
  · have hlength : c.messages.length < maxConversationMessages := hroom
    simp only [withPending, List.length_append, List.length_cons, List.length_nil]
    omega
  · refine validateMessages_append _ _ 0 0 hmessages ?_ htext ?_
    · simp [withPending]
    · have hsum : textBytes c.messages + len text ≤ maxConversationTextBytes := hbytes
      rw [Nat.zero_add]
      exact hsum

end PersistedConversation

end VibeCoder
