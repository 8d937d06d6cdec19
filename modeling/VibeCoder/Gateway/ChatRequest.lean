/-
  The chat completion request of the gateway adapter (`chat.rs`, `client.rs`).

  A request is validated, encoded as JSON, and sent if its body is within the limit of the transport.
  `Core` bounds the texts it sends, the transport the encoded body.

  1. **Validation** — `validateRequest_iff`: what the adapter accepts.
  2. **The body** — `size_body`: its exact size, from the escaped texts.
  3. **From a conversation** — `core_request_sent_iff`: a request that `Core` builds from a stored
     conversation can be sent exactly when the provider is an identity of graphic characters and the
     texts, as they are escaped, leave room for the frame.
-/
import VibeCoder.Core.EncodedSize
import VibeCoder.Core.ModelContext
import VibeCoder.Core.TurnCapacity
import VibeCoder.Lib.JsonText
import VibeCoder.RouteResolution

namespace VibeCoder.Gateway

/-- An early return with an error. -/
def refuse (c : Prop) [Decidable c] (e : VibeCoderError) : Result Unit :=
  if c then .error e else .ok ()

@[simp] theorem refuse_iff {c : Prop} [Decidable c] {e : VibeCoderError} :
    refuse c e = .ok () ↔ ¬ c := by
  rw [refuse]
  split
  · rename_i hc
    exact ⟨(fun h => by cases h), fun hnot => absurd hc hnot⟩
  · rename_i hnot
    exact ⟨fun _ => hnot, fun _ => rfl⟩

end VibeCoder.Gateway

namespace VibeCoder.Gateway.Chat

/-! ## Validation -/

def maxModelIdBytes : Nat := 512
def maxProviderBytes : Nat := 256
def maxMessages : Nat := 64
def maxMessageBytes : Nat := 128 * 1024
def maxTotalMessageBytes : Nat := 256 * 1024
def maxOutputTokens : Nat := 8192

/-- `gateway_error`. -/
def gatewayError (code : String) : VibeCoderError := .gateway code

/-- An early return with a gateway error. -/
def refuseIf (c : Prop) [Decidable c] (code : String) : Result Unit := refuse c (gatewayError code)

/-- A check of a field that may be missing. -/
def ifSome (check : String → Result Unit) : Option String → Result Unit
  | some value => check value
  | none => .ok ()

/-- `value.bytes().all(|byte| byte.is_ascii_graphic())`. -/
def asciiGraphic (value : String) : Bool :=
  value.toList.all (fun c => 0x21 ≤ c.toNat && c.toNat ≤ 0x7E)

/-- The check of a bounded text that the validators share: neither empty, too long nor padded, and none
    of the bad ones. -/
def boundedText (bad : String → Bool) (value : String) (maxBytes : Nat) (code : String) :
    Result Unit :=
  if value.isEmpty || decide (len value > maxBytes) || !trimmed value || bad value then
    .error (gatewayError code)
  else .ok ()

/-- `validate_bounded_text`. -/
def validateBoundedText (value : String) (maxBytes : Nat) (code : String) : Result Unit :=
  boundedText (fun value => !asciiGraphic value) value maxBytes code

/-- The loop of `validate_request` over the messages: the bytes so far. -/
def validateContents (total : Nat) : List GatewayChatMessage → Result Unit
  | [] => .ok ()
  | message :: rest =>
    if message.content.isEmpty || decide (len message.content > maxMessageBytes) ||
        hasNul message.content then
      .error (gatewayError "invalid_inference_message_content")
    else if total + len message.content > maxTotalMessageBytes then
      .error (gatewayError "inference_request_too_large")
    else validateContents (total + len message.content) rest

/-- `validate_request`. -/
def validateRequest (request : GatewayChatRequest) : Result Unit := do
  validateBoundedText request.model.id maxModelIdBytes "invalid_inference_model_id"
  ifSome (validateBoundedText · maxProviderBytes "invalid_inference_model_provider")
    request.model.provider
  refuseIf (request.messages = [] ∨ request.messages.length > maxMessages)
    "invalid_inference_message_count"
  refuseIf (request.maxOutputTokens = 0 ∨ request.maxOutputTokens > maxOutputTokens)
    "invalid_inference_max_output_tokens"
  validateContents 0 request.messages
  refuseIf (¬ ∃ message ∈ request.messages, message.role = .user) "inference_user_message_required"

/-! ## The body -/

/-- `OpenAiChatMessage`. -/
structure OpenAiChatMessage where
  role : String
  content : String

/-- `OpenAiChatRequest`. -/
structure OpenAiChatRequest where
  model : String
  messages : List OpenAiChatMessage
  stream : Bool
  maxTokens : Nat

/-- The name a role is sent under. -/
def roleText : GatewayChatRole → String
  | .system => "system"
  | .user => "user"
  | .assistant => "assistant"

/-- `build_wire_request`. -/
def buildWireRequest (request : GatewayChatRequest) : OpenAiChatRequest where
  model := request.model.id
  messages := request.messages.map (fun message =>
    { role := roleText message.role, content := message.content })
  stream := false
  maxTokens := request.maxOutputTokens

open JsonText in
/-- A message as JSON, in the order of its fields. -/
def OpenAiChatMessage.json (message : OpenAiChatMessage) : List Char :=
  object [member "role" (string message.role), member "content" (string message.content)]

open JsonText in
/-- `serde_json::to_vec(&wire)`. -/
def OpenAiChatRequest.json (wire : OpenAiChatRequest) : List Char :=
  object [member "model" (string wire.model),
    member "messages" (array (wire.messages.map OpenAiChatMessage.json)),
    member "stream" (boolean wire.stream), member "max_tokens" (number wire.maxTokens)]

/-- `MAX_REQUEST_BYTES`. -/
def maxRequestBytes : Nat := 512 * 1024

/-- The size test of `send_bounded_json_post`. -/
def checkBody (body : List Char) : Result Unit :=
  refuseIf (JsonText.size body = 0 ∨ JsonText.size body > maxRequestBytes)
    "request_body_size_invalid"

/-- `execute_chat_completion` up to the network. -/
def prepareChatCompletion (request : GatewayChatRequest) : Result (List Char) := do
  validateRequest request
  let body := (buildWireRequest request).json
  checkBody body
  pure body

/-! ## What validation accepts -/

@[simp] theorem refuseIf_iff {c : Prop} [Decidable c] {code : String} :
    refuseIf c code = .ok () ↔ ¬ c := refuse_iff

theorem ifSome_iff {check : String → Result Unit} {field : Option String} :
    ifSome check field = .ok () ↔ ∀ value ∈ field, check value = .ok () := by
  cases field with
  | none => exact ⟨(fun _ _ hnone => by cases hnone), fun _ => rfl⟩
  | some value =>
    constructor
    · rintro h _ ⟨⟩
      exact h
    · intro h
      exact h value rfl

/-- What `validate_bounded_text` lets through. -/
structure GraphicIdentity (maxBytes : Nat) (value : String) : Prop where
  nonempty : value ≠ ""
  bounded : len value ≤ maxBytes
  trimmed : trimmed value = true
  graphic : asciiGraphic value = true

theorem boundedText_iff {bad : String → Bool} {value : String} {maxBytes : Nat} {code : String} :
    boundedText bad value maxBytes code = .ok () ↔
      value ≠ "" ∧ len value ≤ maxBytes ∧ trimmed value = true ∧ bad value = false := by
  rw [boundedText]
  split
  · rename_i hbad
    constructor
    · intro h
      cases h
    · rintro ⟨hne, hlen, htrim, hgood⟩
      have hlen' : ¬ len value > maxBytes := by omega
      simp [hne, hlen', htrim, hgood] at hbad
  · rename_i hgood
    simp only [Bool.or_eq_true, not_or, Bool.not_eq_true, decide_eq_false_iff_not,
      Bool.not_eq_false', String.isEmpty_eq_false_iff] at hgood
    obtain ⟨⟨⟨hne, hlen⟩, htrim⟩, hgood⟩ := hgood
    constructor
    · intro _
      exact ⟨hne, by omega, htrim, hgood⟩
    · intro _
      rfl

theorem validateBoundedText_iff {value : String} {maxBytes : Nat} {code : String} :
    validateBoundedText value maxBytes code = .ok () ↔ GraphicIdentity maxBytes value := by
  rw [validateBoundedText, boundedText_iff, Bool.not_eq_false']
  constructor
  · rintro ⟨hne, hlen, htrim, hgraphic⟩
    exact ⟨hne, hlen, htrim, hgraphic⟩
  · rintro ⟨hne, hlen, htrim, hgraphic⟩
    exact ⟨hne, hlen, htrim, hgraphic⟩

/-- The id check of `Core` is the same one, under another message. -/
theorem graphicIdentity_of_modelId {value : String} (h : validateConversationModelId value = .ok ()) :
    GraphicIdentity maxModelIdBytes value := by
  suffices hbounded : validateBoundedText value maxModelIdBytes "invalid_inference_model_id" = .ok () from
    validateBoundedText_iff.mp hbounded
  rw [validateConversationModelId] at h
  rw [validateBoundedText, boundedText]
  split at h
  · cases h
  · rename_i hgood
    exact if_neg hgood

/-- A text the adapter sends as a message. -/
structure Content (text : String) : Prop where
  nonempty : text.isEmpty = false
  bounded : len text ≤ maxMessageBytes
  plain : hasNul text = false

theorem validateContents_iff {messages : List GatewayChatMessage} :
    ∀ {total : Nat}, total ≤ maxTotalMessageBytes →
      (validateContents total messages = .ok () ↔
        (∀ message ∈ messages, Content message.content) ∧
          total + (messages.map (fun message => len message.content)).sum ≤
            maxTotalMessageBytes) := by
  induction messages with
  | nil =>
    intro total htotal
    simp [validateContents, htotal]
  | cons message rest ih =>
    intro total htotal
    rw [validateContents, List.forall_mem_cons, List.map_cons, List.sum_cons]
    split
    · rename_i hbad
      constructor
      · intro h
        cases h
      · rintro ⟨⟨⟨hne, hlen, hplain⟩, -⟩, -⟩
        have hlen' : ¬ len message.content > maxMessageBytes := by omega
        simp [hne, hlen', hplain] at hbad
    · rename_i hgood
      simp only [Bool.or_eq_true, not_or, Bool.not_eq_true, decide_eq_false_iff_not] at hgood
      obtain ⟨⟨hne, hlen⟩, hplain⟩ := hgood
      have hcontent : Content message.content := ⟨hne, by omega, hplain⟩
      split
      · constructor
        · intro h
          cases h
        · rintro ⟨-, hsum⟩
          omega
      · rename_i hsmall
        rw [ih (by omega), ← Nat.add_assoc]
        constructor
        · rintro ⟨hrest, hsum⟩
          exact ⟨⟨hcontent, hrest⟩, hsum⟩
        · rintro ⟨⟨-, hrest⟩, hsum⟩
          exact ⟨hrest, hsum⟩

/-- What `validate_request` lets through. -/
structure Accepted (request : GatewayChatRequest) : Prop where
  id : GraphicIdentity maxModelIdBytes request.model.id
  provider : ∀ provider ∈ request.model.provider, GraphicIdentity maxProviderBytes provider
  some : request.messages ≠ []
  few : request.messages.length ≤ maxMessages
  tokens : 0 < request.maxOutputTokens ∧ request.maxOutputTokens ≤ maxOutputTokens
  contents : ∀ message ∈ request.messages, Content message.content
  total : (request.messages.map (fun message => len message.content)).sum ≤ maxTotalMessageBytes
  asked : ∃ message ∈ request.messages, message.role = .user

/-- **Validation.** -/
theorem validateRequest_iff {request : GatewayChatRequest} :
    validateRequest request = .ok () ↔ Accepted request := by
  have hcontents := @validateContents_iff request.messages 0 (Nat.zero_le _)
  rw [Nat.zero_add] at hcontents
  rw [validateRequest, Result.check_eq_ok, Result.check_eq_ok, Result.check_eq_ok,
    Result.check_eq_ok, Result.check_eq_ok, validateBoundedText_iff, ifSome_iff, refuseIf_iff,
    refuseIf_iff, refuseIf_iff, hcontents, not_not]
  simp only [validateBoundedText_iff]
  constructor
  · rintro ⟨hid, hprovider, hcount, htokens, ⟨hcontent, htotal⟩, hasked⟩
    exact ⟨hid, hprovider, fun hnil => hcount (.inl hnil), by omega, by omega, hcontent, htotal,
      hasked⟩
  · rintro ⟨hid, hprovider, hsome, hfew, htokens, hcontent, htotal, hasked⟩
    refine ⟨hid, hprovider, ?_, by omega, ⟨hcontent, htotal⟩, hasked⟩
    rintro (hnil | hmany)
    · exact hsome hnil
    · omega

/-! ## The size of the body -/

open JsonText in
/-- A message takes 24 bytes, its role and its escaped text. -/
def messageSize (message : GatewayChatMessage) : Nat :=
  24 + len (roleText message.role) + escapedSize message.content

open JsonText in
/-- A request takes 55 bytes, its escaped id, the digits of its token limit, and its messages with a
    comma between any two. -/
def requestSize (request : GatewayChatRequest) : Nat :=
  55 + escapedSize request.model.id + (Nat.toDigits 10 request.maxOutputTokens).length +
    (request.messages.map messageSize).sum + (request.messages.length - 1)

open JsonText in
theorem size_message (message : GatewayChatMessage) :
    size (OpenAiChatMessage.json { role := roleText message.role, content := message.content }) =
      messageSize message := by
  have hrole : escapedSize (roleText message.role) = len (roleText message.role) := by
    cases message.role <;> decide
  have hroleName : escapedSize "role" = 4 := by decide
  have hcontentName : escapedSize "content" = 7 := by decide
  rw [OpenAiChatMessage.json, size_object, messageSize]
  simp only [List.map_cons, List.map_nil, List.sum_cons, List.sum_nil, List.length_cons,
    List.length_nil, size_member, size_string, hrole, hroleName, hcontentName]
  omega

open JsonText in
/-- **The size of the body.** -/
theorem size_body (request : GatewayChatRequest) :
    size (buildWireRequest request).json = requestSize request := by
  have hmessages : ((buildWireRequest request).messages.map OpenAiChatMessage.json).map size =
      request.messages.map messageSize := by
    rw [buildWireRequest, List.map_map, List.map_map]
    exact List.map_congr_left (fun message _ => size_message message)
  have hlength : ((buildWireRequest request).messages.map OpenAiChatMessage.json).length =
      request.messages.length := by
    rw [buildWireRequest, List.length_map, List.length_map]
  have hstream : size (boolean (buildWireRequest request).stream) = 5 := by
    show size (boolean false) = 5
    decide
  have hnames : escapedSize "model" = 5 ∧ escapedSize "messages" = 8 ∧ escapedSize "stream" = 6 ∧
      escapedSize "max_tokens" = 10 := by decide
  rw [OpenAiChatRequest.json, size_object, requestSize]
  simp only [List.map_cons, List.map_nil, List.sum_cons, List.sum_nil, List.length_cons,
    List.length_nil, size_member, size_string, size_array, size_number, hmessages, hlength, hstream,
    hnames.1, hnames.2.1, hnames.2.2.1, hnames.2.2.2]
  show _ + (5 + 2 + 1 + (2 + escapedSize request.model.id) + _) + _ = _
  have htokens : (buildWireRequest request).maxTokens = request.maxOutputTokens := rfl
  rw [htokens]
  omega

theorem checkBody_iff {request : GatewayChatRequest} :
    checkBody (buildWireRequest request).json = .ok () ↔ requestSize request ≤ maxRequestBytes := by
  have hpos : 55 ≤ requestSize request := by
    rw [requestSize]
    omega
  rw [checkBody, refuseIf_iff, size_body]
  omega

/-- A request reaches the network when it is accepted and its body fits. -/
theorem prepareChatCompletion_iff {request : GatewayChatRequest} :
    (∃ body, prepareChatCompletion request = .ok body) ↔
      Accepted request ∧ requestSize request ≤ maxRequestBytes := by
  rw [← validateRequest_iff, ← checkBody_iff]
  constructor
  · rintro ⟨body, h⟩
    rw [prepareChatCompletion, Result.check_eq_ok] at h
    obtain ⟨hvalid, hrest⟩ := h
    exact ⟨hvalid, (Result.check_eq_ok.mp hrest).1⟩
  · rintro ⟨hvalid, hbody⟩
    refine ⟨(buildWireRequest request).json, ?_⟩
    rw [prepareChatCompletion, Result.check_eq_ok]
    exact ⟨hvalid, Result.check_eq_ok.mpr ⟨hbody, rfl⟩⟩

/-! ## Requests of `Core` -/

variable {c : PersistedConversation} {context : List GatewayChatMessage × Nat} {model : ModelRef}
variable {n : Nat}

/-- What `Core` has checked about the messages it sends. -/
theorem context_bounded (h : buildGatewayConversationContext c = .ok context) :
    context.1 ≠ [] ∧ context.1.length ≤ maxMessages ∧
      (∀ message ∈ context.1, len message.content ≤ maxMessageBytes) ∧
      (context.1.map (fun message => len message.content)).sum = context.2 ∧
      context.2 ≤ maxTotalMessageBytes ∧ ∃ message ∈ context.1, message.role = .user := by
  obtain ⟨messages, -, hsend, hlast, rfl⟩ := buildGatewayConversationContext_ok h
  obtain ⟨prompt, hprompt, huser⟩ := Option.map_eq_some_iff.mp hlast
  have hmem : prompt ∈ messages := List.mem_of_getLast? hprompt
  have hfew : messages.length ≤ 64 := hsend.few
  refine ⟨?_, ?_, fun message hmessage => ?_, ?_, hsend.small, prompt.chat,
    List.mem_map_of_mem hmem, ?_⟩
  · intro hnil
    rw [List.map_eq_nil_iff.mp hnil] at hmem
    cases hmem
  · rw [List.length_map]
    exact hfew
  · obtain ⟨stored, hstored, rfl⟩ := List.mem_map.mp hmessage
    exact hsend.short stored hstored
  · rw [List.map_map]
    rfl
  · show chatRole prompt.role = .user
    rw [huser]
    rfl

/-- A context of `Core` is accepted when the provider and the texts are. -/
theorem context_accepted (hcontext : buildGatewayConversationContext c = .ok context)
    (hmodel : validateConversationModelId model.id = .ok ())
    (htokens : 0 < n ∧ n ≤ maxConversationModelOutputTokens)
    (hprovider : ∀ provider ∈ model.provider, GraphicIdentity maxProviderBytes provider)
    (htexts : ∀ message ∈ context.1,
      message.content.isEmpty = false ∧ hasNul message.content = false) :
    Accepted { model := model, messages := context.1, maxOutputTokens := n } := by
  obtain ⟨hsome, hfew, hshort, htotal, hsmall, hasked⟩ := context_bounded hcontext
  refine ⟨graphicIdentity_of_modelId hmodel, hprovider, hsome, hfew, htokens,
    fun message hmem => ?_, ?_, hasked⟩
  · obtain ⟨hne, hplain⟩ := htexts message hmem
    exact ⟨hne, hshort message hmem, hplain⟩
  · rw [htotal]
    exact hsmall

/-- **What `Core` sends.**  For every conversation with a context, every token limit and every model id
    that `Core` accepts: the request can be sent exactly when the provider, if any, is an identity of
    graphic characters, no text is empty or has a NUL, and the escaped request fits. -/
theorem core_request_sent_iff (hcontext : buildGatewayConversationContext c = .ok context)
    (hmodel : validateConversationModelId model.id = .ok ())
    (htokens : 0 < n ∧ n ≤ maxConversationModelOutputTokens) :
    (∃ body, prepareChatCompletion { model := model, messages := context.1, maxOutputTokens := n } =
        .ok body) ↔
      (∀ provider ∈ model.provider, GraphicIdentity maxProviderBytes provider) ∧
        (∀ message ∈ context.1, message.content.isEmpty = false ∧ hasNul message.content = false) ∧
        requestSize { model := model, messages := context.1, maxOutputTokens := n } ≤
          maxRequestBytes := by
  rw [prepareChatCompletion_iff]
  constructor
  · rintro ⟨h, hfits⟩
    exact ⟨h.provider, fun message hmem =>
      ⟨(h.contents message hmem).nonempty, (h.contents message hmem).plain⟩, hfits⟩
  · rintro ⟨hprovider, htexts, hfits⟩
    exact ⟨context_accepted hcontext hmodel htokens hprovider htexts, hfits⟩

/-- A message of a valid record is neither empty nor has a NUL. -/
theorem stored_texts {messages : List PersistedConversationMessage} : ∀ {index total : Nat},
    VibeCoder.validateMessages index total messages = .ok () →
      ∀ message ∈ messages, message.text.isEmpty = false ∧ hasNul message.text = false := by
  induction messages with
  | nil =>
    intro _ _ _ _ hmem
    cases hmem
  | cons first rest ih =>
    intro index total h
    rw [VibeCoder.validateMessages] at h
    split at h
    · cases h
    split at h
    · cases h
    rename_i htext
    split at h
    · cases h
    rw [Bool.not_eq_true, messageTextInvalid, Bool.or_eq_false_iff, Bool.or_eq_false_iff] at htext
    intro message hmem
    rcases List.mem_cons.mp hmem with rfl | hmem
    · exact ⟨htext.1.1, htext.2⟩
    · exact ih h message hmem

theorem context_texts (hvalid : c.validate = .ok ())
    (hcontext : buildGatewayConversationContext c = .ok context) :
    ∀ message ∈ context.1, message.content.isEmpty = false ∧ hasNul message.content = false := by
  obtain ⟨messages, hending, -, -, rfl⟩ := buildGatewayConversationContext_ok hcontext
  obtain ⟨-, -, hmessages, -⟩ := PersistedConversation.validate_ok hvalid
  intro message hmem
  obtain ⟨stored, hstored, rfl⟩ := List.mem_map.mp hmem
  exact stored_texts hmessages stored (hending.subset hstored)

/-- A stored conversation whose context is at most 84 KiB can be sent, whatever its texts are. -/
theorem core_request_sent_of_small (hvalid : c.validate = .ok ())
    (hcontext : buildGatewayConversationContext c = .ok context)
    (hmodel : validateConversationModelId model.id = .ok ())
    (hprovider : ∀ provider ∈ model.provider, GraphicIdentity maxProviderBytes provider)
    (htokens : 0 < n ∧ n ≤ maxConversationModelOutputTokens) (hsmall : context.2 ≤ 84 * 1024) :
    ∃ body, prepareChatCompletion { model := model, messages := context.1, maxOutputTokens := n } =
      .ok body := by
  have haccepted := context_accepted hcontext hmodel htokens hprovider
    (context_texts hvalid hcontext)
  refine prepareChatCompletion_iff.mpr ⟨haccepted, ?_⟩
  obtain ⟨-, hfew, -, htotal, -, -⟩ := context_bounded hcontext
  have hid : JsonText.escapedSize model.id ≤ 6 * len model.id := JsonText.escapedSize_le model.id
  have hidShort : len model.id ≤ 512 := (graphicIdentity_of_modelId hmodel).bounded
  have hmessages : ∀ messages : List GatewayChatMessage, (messages.map messageSize).sum ≤
      33 * messages.length + 6 * (messages.map (fun message => len message.content)).sum := by
    intro messages
    induction messages with
    | nil => exact Nat.le_refl _
    | cons message rest ih =>
      have hrole : len (roleText message.role) ≤ 9 := by cases message.role <;> decide
      have htext : JsonText.escapedSize message.content ≤ 6 * len message.content :=
        JsonText.escapedSize_le message.content
      simp only [List.map_cons, List.sum_cons, List.length_cons, messageSize]
      omega
  have hdigits : (Nat.toDigits 10 n).length ≤ 4 := by
    have hmax : maxConversationModelOutputTokens = 8192 := rfl
    exact (Nat.length_toDigits_le_iff (by decide) (by decide)).mpr (by omega)
  have hall := hmessages context.1
  have hcount : context.1.length ≤ 64 := hfew
  rw [requestSize, maxRequestBytes]
  rw [htotal] at hall
  show 55 + JsonText.escapedSize model.id + (Nat.toDigits 10 n).length + (context.1.map messageSize).sum +
    (context.1.length - 1) ≤ _
  omega

/-! ## A text that does not fit -/

/-- A conversation with one prompt that is waiting for its answer. -/
def asking (text : String) : PersistedConversation :=
  { emptyConversation ⟨0⟩ ⟨1⟩ "session_1" with
    turnPending := true
    messages := [{ sequence := 0, role := .user, text := text }] }

/-- The request for it. -/
def askingRequest (text : String) : GatewayChatRequest where
  model := { id := "model-a", displayName := none, provider := some "vendor" }
  messages := [{ role := .user, content := text }]
  maxOutputTokens := 8192

theorem core_request_sent_iff_hello :
    (∃ body, prepareChatCompletion (askingRequest "hello") = .ok body) ↔
      (∀ provider ∈ some "vendor", GraphicIdentity maxProviderBytes provider) ∧
        (∀ message ∈ (askingRequest "hello").messages,
          message.content.isEmpty = false ∧ hasNul message.content = false) ∧
        requestSize (askingRequest "hello") ≤ maxRequestBytes :=
  @core_request_sent_iff (asking "hello") ((askingRequest "hello").messages, 5)
    (askingRequest "hello").model 8192 (by decide) (by decide) (by decide)

/-- A prompt as long as may be, which takes six times as many bytes as JSON. -/
structure Overlong (text : String) : Prop where
  prompt : validateConversationModelPrompt text = .ok ()
  length : len text = 128 * 1024
  escaped : JsonText.escapedSize text = 6 * (128 * 1024)

variable {text : String}

theorem asking_context (h : len text = 128 * 1024) : buildGatewayConversationContext (asking text) =
    .ok ((askingRequest text).messages, 128 * 1024) := by
  have hcount : ¬ (0 = maxConversationModelMessages ∨
      len text > maxConversationModelMessageBytes) := by
    rw [h]
    decide
  have hsum : ¬ 0 + len text > maxConversationModelContextBytes := by
    rw [h]
    decide
  have hreverse : (asking text).messages.reverse = [{ sequence := 0, role := .user, text := text }] :=
    rfl
  have hscan : takeContext 0 0 (asking text).messages.reverse =
      ([{ role := .user, content := text }], len text) := by
    rw [hreverse, takeContext, if_neg hcount, if_neg hsum, takeContext, Nat.zero_add]
    rfl
  rw [buildGatewayConversationContext, hscan, h]
  rfl

theorem asking_valid (h : Overlong text) : (asking text).validate = .ok () := by
  have hempty : (emptyConversation ⟨0⟩ ⟨1⟩ "session_1").validate = .ok () := by decide
  have hmessage : messageTextInvalid text = false := prompt_valid h.prompt
  have hasked : (emptyConversation ⟨0⟩ ⟨1⟩ "session_1").appendMessage .user text = .ok
      { emptyConversation ⟨0⟩ ⟨1⟩ "session_1" with
        messages := [{ sequence := 0, role := .user, text := text }] } := by
    refine PersistedConversation.appendMessage_eq .user hmessage (by decide) ?_
    show 0 + len text ≤ _
    rw [h.length]
    decide
  exact TurnCapacity.validate_asked hempty rfl hasked 0

theorem asking_accepted (h : Overlong text) : Accepted (askingRequest text) := by
  have hmodel : validateConversationModelId "model-a" = .ok () := by decide
  have hprovider : validateBoundedText "vendor" maxProviderBytes "" = .ok () := by decide
  have hcontext := asking_context h.length
  obtain ⟨hsome, hfew, hshort, htotal, hsmall, hasked⟩ := context_bounded hcontext
  have htokens : 0 < 8192 ∧ 8192 ≤ maxOutputTokens := by decide
  refine ⟨graphicIdentity_of_modelId hmodel, ?_, hsome, hfew, htokens, fun message hmem => ?_, ?_,
    hasked⟩
  · rintro _ ⟨⟩
    exact validateBoundedText_iff.mp hprovider
  · obtain ⟨hne, hplain⟩ := context_texts (asking_valid h) hcontext message hmem
    exact ⟨hne, hshort message hmem, hplain⟩
  · rw [htotal]
    exact hsmall

/-- **A prompt that cannot be sent.**  The record with it is valid, its context is built and the request
    accepted, and only the transport refuses the body. -/
theorem asking_refused (h : Overlong text) : prepareChatCompletion (askingRequest text) =
    .error (gatewayError "request_body_size_invalid") := by
  have hsize : requestSize (askingRequest text) = 786526 := by
    have hid : JsonText.escapedSize "model-a" = 7 := by decide
    have hrole : len (roleText .user) = 4 := by decide
    have hdigits : (Nat.toDigits 10 8192).length = 4 := by decide
    rw [requestSize]
    simp only [askingRequest, List.map_cons, List.map_nil, List.sum_cons, List.sum_nil,
      List.length_cons, List.length_nil, messageSize, hid, hrole, hdigits, h.escaped]
    rfl
  have hvalid := validateRequest_iff.mpr (asking_accepted h)
  have hbody : checkBody (buildWireRequest (askingRequest text)).json =
      .error (gatewayError "request_body_size_invalid") := by
    rw [checkBody, size_body, hsize]
    rfl
  simp only [prepareChatCompletion, hvalid, hbody, bind, Except.bind]

/-- A terminal log in which every character is an escape. -/
def terminalLog : String := repeated (128 * 1024) (Char.ofNat 0x1B)

theorem terminalLog_overlong : Overlong terminalLog := by
  have hsize : (Char.ofNat 0x1B).utf8Size = 1 := by decide
  have hescape : JsonText.size (JsonText.escape (Char.ofNat 0x1B)) = 6 := by decide
  have hlength : len terminalLog = 128 * 1024 := by rw [terminalLog, len_repeated, hsize]
  have hmessage : messageTextInvalid terminalLog = false := by
    refine messageText_repeated (by decide) ?_ (by decide)
    rw [hsize]
    decide
  have hnul : hasNul terminalLog = false := (Bool.or_eq_false_iff.mp hmessage).2
  have hblank : blank terminalLog = false := blank_repeated (by decide) (by decide)
  constructor
  · rw [validateConversationModelPrompt, hblank, hnul, hlength]
    rfl
  · exact hlength
  · rw [JsonText.escapedSize, terminalLog, repeated_toList, List.map_replicate,
      List.sum_replicate_nat, hescape]

theorem terminalLog_refused :
    (asking terminalLog).validate = .ok () ∧
      validateConversationModelPrompt terminalLog = .ok () ∧
      buildGatewayConversationContext (asking terminalLog) =
        .ok ((askingRequest terminalLog).messages, 128 * 1024) ∧
      validateConversationModelId (askingRequest terminalLog).model.id = .ok () ∧
      validateRequest (askingRequest terminalLog) = .ok () ∧
      prepareChatCompletion (askingRequest terminalLog) =
        .error (gatewayError "request_body_size_invalid") := by
  have h := terminalLog_overlong
  have hmodel : validateConversationModelId "model-a" = .ok () := by decide
  exact ⟨asking_valid h, h.prompt, asking_context h.length, hmodel,
    validateRequest_iff.mpr (asking_accepted h), asking_refused h⟩

end VibeCoder.Gateway.Chat
