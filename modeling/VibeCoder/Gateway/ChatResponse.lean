/-
  The chat completion response of the gateway adapter (`chat.rs`).

  A response is taken only if it is one JSON document with exactly one choice, of the assistant, with a
  text and without tool calls.

  1. **Interpretation** — `interpretChatResponse`, over the JSON reader of the envelope.
  2. **What is handed on** — `interpretChatResponse_ok`: the id that was asked for, a text, and a finish
     reason and an observed model within their bounds.
-/
import VibeCoder.Gateway.Catalog
import VibeCoder.Lib.JsonTree

namespace VibeCoder.Gateway.Chat

open Catalog (RawGatewayResponse isJsonContentType)

/-! ## The envelope -/

def maxFinishReasonBytes : Nat := 64

/-- A leaf of a `serde_json::Value`. -/
inductive JsonScalar where
  | null
  | bool (value : Bool)
  | number (literal : String)
  | string (value : String)
  deriving DecidableEq

/-- `serde_json::Value`. -/
abbrev JsonValue := JsonTree.Tree JsonScalar

/-- `OpenAiAssistantMessage`. -/
structure OpenAiAssistantMessage where
  role : Option String
  content : Option String
  toolCalls : Option JsonValue
  functionCall : Option JsonValue

/-- `OpenAiChoice`. -/
structure OpenAiChoice where
  index : Nat
  message : OpenAiAssistantMessage
  finishReason : Option String

/-- `OpenAiUsage`, with the one field of `OpenAiPromptTokenDetails`. -/
structure OpenAiUsage where
  promptTokens : Option UInt64
  completionTokens : Option UInt64
  promptTokensDetails : Option (Option UInt64)

/-- `OpenAiChatEnvelope`. -/
structure OpenAiChatEnvelope where
  model : Option String
  choices : List OpenAiChoice
  usage : Option OpenAiUsage

/-! ## Interpretation -/

/-- `nonempty_json_value`. -/
def nonemptyJsonValue : JsonValue → Bool
  | .scalar .null => false
  | .scalar _ => true
  | .array items => !items.isEmpty
  | .object members => !members.isEmpty

/-- The code of a status that is not 200. -/
def inferenceStatusCode (status : Nat) (anonymous : Bool) : String :=
  if status = 400 ∨ status = 409 ∨ status = 413 ∨ status = 422 then "inference_invalid_request"
  else if status = 401 then
    if anonymous then "inference_authentication_required" else "inference_authentication_rejected"
  else if status = 403 then "inference_access_denied"
  else if status = 404 then "inference_model_or_endpoint_not_found"
  else if status = 408 then "inference_timeout"
  else if status = 429 then "inference_rate_limited"
  else if 500 ≤ status ∧ status ≤ 599 then "inference_provider_unavailable"
  else "unexpected_inference_status"

/-- The usage that is handed on: a missing count is none used. -/
def OpenAiUsage.tokens (usage : OpenAiUsage) : TokenUsage where
  input := (usage.promptTokens.getD 0).toNat
  output := (usage.completionTokens.getD 0).toNat
  cacheReadInput := (usage.promptTokensDetails.bind id).map UInt64.toNat

/-- The checks on the only choice: its text. -/
def choiceText (choice : OpenAiChoice) : Result String := do
  refuseIf (choice.message.role.any (· != "assistant")) "invalid_inference_message_role"
  refuseIf (choice.message.toolCalls.any nonemptyJsonValue ∨
      choice.message.functionCall.any nonemptyJsonValue)
    "inference_tool_call_not_allowed_part34_5"
  match choice.message.content with
  | none => throw (gatewayError "inference_text_missing")
  | some text => do
    refuseIf (text = "") "inference_text_empty"
    pure text

/-- The checks on the envelope, and what it is handed on as. -/
def readEnvelope (envelope : OpenAiChatEnvelope) (requestedModelId : String) :
    Result GatewayChatResponse :=
  match envelope.choices with
  | [choice] => do
    refuseIf (choice.index ≠ 0) "invalid_inference_choices"
    let text ← choiceText choice
    ifSome (validateBoundedText · maxFinishReasonBytes "invalid_inference_finish_reason")
      choice.finishReason
    ifSome (validateBoundedText · maxModelIdBytes "invalid_inference_observed_model") envelope.model
    pure {
      requestedModelId := requestedModelId
      observedModelId := envelope.model
      text := text
      finishReason := choice.finishReason
      usage := envelope.usage.map OpenAiUsage.tokens }
  | _ => .error (gatewayError "invalid_inference_choices")

/-- `interpret_chat_response`, over the JSON reader. -/
def interpretChatResponse (fromSlice : List UInt8 → Option OpenAiChatEnvelope)
    (response : RawGatewayResponse) (anonymous : Bool) (requestedModelId : String) :
    Result GatewayChatResponse := do
  refuseIf (response.status ≠ 200) (inferenceStatusCode response.status anonymous)
  refuseIf (isJsonContentType response.contentType = false) "invalid_inference_content_type"
  refuseIf (response.body = []) "empty_inference_response"
  match fromSlice response.body with
  | none => throw (gatewayError "invalid_inference_json")
  | some envelope => readEnvelope envelope requestedModelId

/-! ## What is handed on -/

/-- Counts of a `u64`. -/
structure TokensInRange (usage : TokenUsage) : Prop where
  input : usage.input < 2 ^ 64
  output : usage.output < 2 ^ 64
  cached : ∀ n ∈ usage.cacheReadInput, n < 2 ^ 64

theorem OpenAiUsage.tokens_inRange (usage : OpenAiUsage) : TokensInRange usage.tokens where
  input := UInt64.toNat_lt _
  output := UInt64.toNat_lt _
  cached n hn := by
    obtain ⟨count, -, rfl⟩ := Option.map_eq_some_iff.mp hn
    exact UInt64.toNat_lt _

/-- A response the adapter hands on, for the id it was asked for. -/
structure HandedOn (requestedModelId : String) (response : GatewayChatResponse) : Prop where
  requested : response.requestedModelId = requestedModelId
  text : response.text ≠ ""
  finish : ∀ reason ∈ response.finishReason, GraphicIdentity maxFinishReasonBytes reason
  observed : ∀ id ∈ response.observedModelId, GraphicIdentity maxModelIdBytes id
  usage : ∀ usage ∈ response.usage, TokensInRange usage

theorem choiceText_ok {choice : OpenAiChoice} {text : String} (h : choiceText choice = .ok text) :
    text ≠ "" := by
  rw [choiceText, Result.check_eq_ok, Result.check_eq_ok] at h
  obtain ⟨-, -, h⟩ := h
  cases hcontent : choice.message.content with
  | none =>
    rw [hcontent] at h
    cases h
  | some content =>
    rw [hcontent] at h
    obtain ⟨hne, htext⟩ := Result.check_eq_ok.mp h
    cases htext
    exact refuseIf_iff.mp hne

theorem readEnvelope_ok {envelope : OpenAiChatEnvelope} {requestedModelId : String}
    {response : GatewayChatResponse} (h : readEnvelope envelope requestedModelId = .ok response) :
    HandedOn requestedModelId response := by
  rw [readEnvelope] at h
  split at h
  · rename_i choice _
    rw [Result.check_eq_ok, Result.bind_eq_ok] at h
    obtain ⟨-, text, htext, h⟩ := h
    rw [Result.check_eq_ok, Result.check_eq_ok, ifSome_iff, ifSome_iff] at h
    obtain ⟨hfinish, hobserved, hresponse⟩ := h
    cases hresponse
    refine ⟨rfl, choiceText_ok htext, fun reason hreason => ?_, fun id hid => ?_, fun usage husage => ?_⟩
    · exact validateBoundedText_iff.mp (hfinish reason hreason)
    · exact validateBoundedText_iff.mp (hobserved id hid)
    · obtain ⟨counts, -, rfl⟩ := Option.map_eq_some_iff.mp husage
      exact counts.tokens_inRange
  · cases h

/-- **What is handed on** has the id that was asked for, a text, and everything else within bounds. -/
theorem interpretChatResponse_ok {fromSlice : List UInt8 → Option OpenAiChatEnvelope}
    {raw : RawGatewayResponse} {anonymous : Bool} {requestedModelId : String}
    {response : GatewayChatResponse}
    (h : interpretChatResponse fromSlice raw anonymous requestedModelId = .ok response) :
    HandedOn requestedModelId response := by
  rw [interpretChatResponse, Result.check_eq_ok, Result.check_eq_ok, Result.check_eq_ok] at h
  obtain ⟨-, -, -, h⟩ := h
  cases henvelope : fromSlice raw.body with
  | none =>
    rw [henvelope] at h
    cases h
  | some envelope =>
    rw [henvelope] at h
    exact readEnvelope_ok h

end VibeCoder.Gateway.Chat
