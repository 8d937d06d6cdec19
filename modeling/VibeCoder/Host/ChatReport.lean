/-
  What `chat_send` writes (`vibecoder-android-host/src/app_controller_ffi.rs`).

  The turn is durably committed before its answer is encoded, so that an answer that does not fit the
  buffer would show a committed turn as a failed one.

  1. **Documents** — the snapshots as JSON, in the order of their fields; `errorJson` and its code.

  2. **The call** — `chatSendBytes`: the checks, the core turn, and the encoding; `oneShotJson` copies
     the bytes into the caller's buffer, or returns the bare error code.

  3. **Room** — `size_snapshot`: an escape takes at most six times its bytes, so that with the bounds
     on a turn's outcome (`ModelBounds`, `ActionBounds`) every document fits the buffer of the bridge.

  4. **The report** — `chat_send_reports`: the status and the text that are read back.
-/
import VibeCoder.Core.TurnResults
import VibeCoder.Host.ChatStop
import VibeCoder.Lib.JsonObject
import VibeCoder.Lib.Utf8

namespace VibeCoder.Host

open JsonObject (Value)

/-! ## Documents -/

/-- `ANDROID_HOST_FFI_ERROR`. -/
def androidHostFfiError : Int := -1

def chatMaxOutputTokens : Nat := 4096

/-- `Option::None` is `null`. -/
def optionValue {α : Type} (encode : α → Value) : Option α → Value
  | none => .null
  | some a => encode a

/-- The fields of a `SendChatSnapshot`, in the order they are declared. -/
def SendChatSnapshot.fields (s : SendChatSnapshot) : List (String × Value) :=
  [("schema", .number s.schema), ("status", .text s.status), ("turn_kind", .text s.turnKind),
    ("project_id", .text s.projectId), ("conversation_id", .text s.conversationId),
    ("model_id", .text s.modelId), ("observed_model_id", optionValue .text s.observedModelId),
    ("finish_reason", optionValue .text s.finishReason), ("assistant_text", .text s.assistantText),
    ("input_tokens", optionValue .number s.inputTokens),
    ("output_tokens", optionValue .number s.outputTokens),
    ("cached_input_tokens", optionValue .number s.cachedInputTokens),
    ("successful_file_tool_calls", optionValue .number s.successfulFileToolCalls),
    ("successful_mutation_tool_calls", optionValue .number s.successfulMutationToolCalls),
    ("workspace_change_proven", optionValue .boolean s.workspaceChangeProven)]

/-- The fields of a `CancelChatSnapshot`. -/
def CancelChatSnapshot.fields (s : CancelChatSnapshot) : List (String × Value) :=
  [("schema", .number s.schema), ("status", .text s.status),
    ("cancel_requested", .boolean s.cancelRequested)]

/-- `serde_json::to_vec`. -/
def toVec (fields : List (String × Value)) : List UInt8 := Chars.encode (JsonObject.write fields)

/-- The platform with `serde_json` for its encoder. -/
def Platform.serde (platform : Platform) : Platform :=
  { platform with
    sendJson := fun snapshot => some (toVec snapshot.fields)
    cancelJson := fun snapshot => some (toVec snapshot.fields) }

/-- `ErrorSnapshot`. -/
structure ErrorSnapshot where
  schema : Nat
  status : String
  error : String
  deriving DecidableEq, Repr

def ErrorSnapshot.fields (s : ErrorSnapshot) : List (String × Value) :=
  [("schema", .number s.schema), ("status", .text s.status), ("error", .text s.error)]

/-- The text of an error that its code is made of. -/
def rawErrorCode : VibeCoderError → String
  | .invalidRequest code | .agent code | .gateway code | .routing code | .config code
  | .secret code | .workspace code | .command code | .process code | .persistence code
  | .checkpoint code | .build code => code
  | .missingCapability _ capability => capability
  | .cancelled => "cancelled"

/-- A byte of a code: an underscore stands for what is no letter, digit, underscore, hyphen or dot. -/
def codeChar (byte : UInt8) : Char :=
  let c := Char.ofNat byte.toNat
  if byte.toNat < 128 ∧ (c.isAlphanum ∨ c = '_' ∨ c = '-' ∨ c = '.') then c else '_'

/-- `stable_error_code`. -/
def stableErrorCode (error : VibeCoderError) : String :=
  match ((Chars.encode (rawErrorCode error).toList).take 160).map codeChar with
  | [] => "unknown_error"
  | c :: cs => String.ofList (c :: cs)

/-- The snapshot of `error_json`. -/
def errorSnapshot (error : VibeCoderError) : ErrorSnapshot where
  schema := 1
  status := if error = .cancelled then "cancelled" else "failed"
  error := stableErrorCode error

/-- `error_json`. -/
def errorJson (error : VibeCoderError) : List UInt8 := toVec (errorSnapshot error).fields

/-- What `catch_unwind` reports. -/
def panicJson : List UInt8 :=
  toVec { schema := 1, status := "failed", error := "android_app_controller_panic" : ErrorSnapshot }.fields

/-! ## The call -/

/-- The outcome of the core turn of either route. -/
inductive TurnOutcome where
  | model (outcome : ConversationModelTurnOutcome)
  | action (outcome : PersistedAgentActionTurnOutcome)

/-- The text the turn has committed. -/
def TurnOutcome.assistantText : TurnOutcome → String
  | .model outcome => outcome.assistantText
  | .action outcome => outcome.backend.turn.text

def TurnOutcome.snapshot (turn : SendTurn) : TurnOutcome → SendChatSnapshot
  | .model outcome => modelSnapshot turn.projectId turn.conversationId outcome
  | .action outcome => actionSnapshot turn.projectId turn.conversationId outcome

/-- `exact_model_route_policy`: the one model, and no fallback. -/
def exactModelRoutePolicy (model : ModelRef) : ModelRoutePolicyConfig where
  primary := { modelId := model.id, provider := model.provider }
  fallbacks := []
  fallbackOn := []
  fallbackBoundary := .beforeResponseOnly

/-- The core turn of the route; the flag is the one of the turn's own cancellation. -/
def coreTurn (config : CoreConfig) (turn : SendTurn) (flag : Flag) : CoreM TurnOutcome :=
  match turn.route with
  | .modelChat => do
    let outcome ← runPersistedModelConversationTurnCancellable config turn.projectId
      turn.conversationId turn.model.id chatMaxOutputTokens turn.prompt flag
    pure (.model outcome)
  | .agentAction => do
    let outcome ← runPersistedAgentActionTurn config turn.projectId turn.conversationId
      (exactModelRoutePolicy turn.model) turn.prompt
    pure (.action outcome)

/-- `chat_send_bytes`, from the arguments to the encoded answer. -/
def chatSendBytes (config : CoreConfig) (platform : Platform) (c : Controller)
    (arguments : SendArguments) (flag : Flag) : CoreM (List UInt8) := do
  let turn ← Resume.resume (checkSend platform c arguments)
  failIf c.activeTurn.isSome (hostError "android_chat_turn_already_active")
  let outcome ← coreTurn config turn flag
  Resume.resume (serializeBounded (platform.sendJson (outcome.snapshot turn)))

/-- The bytes `one_shot_json` wants to copy. -/
def Answer.bytes : Answer → List UInt8
  | .returned (.ok bytes) => bytes
  | .returned (.error error) => errorJson error
  | .panicked => panicJson

/-- `one_shot_json`: the capacity of the buffer, none for a null pointer; what is returned, and what is
    written to the buffer. -/
def oneShotJson (output : Option Nat) (answer : Answer) : Int × List UInt8 :=
  match output with
  | none => (androidHostFfiError, [])
  | some capacity =>
    if capacity = 0 ∨ capacity > chatFfiMaxOutputBytes then (androidHostFfiError, [])
    else if answer.bytes.isEmpty ∨ answer.bytes.length > capacity ∨
        answer.bytes.length > chatFfiMaxOutputBytes then
      (androidHostFfiError, [])
    else (answer.bytes.length, answer.bytes)

/-! ## Room -/

/-- A name of a field is short. -/
def Named (fields : List (String × Value)) : Prop := ∀ name ∈ fields.map Prod.fst, len name ≤ 32

/-- The size of a document from the room its values need. -/
theorem length_toVec {fields : List (String × Value)} (h : Named fields) :
    (toVec fields).length ≤ 2 + 196 * fields.length + (fields.map fun field => field.2.room).sum := by
  have hbytes : (toVec fields).length = JsonText.size (JsonObject.write fields) :=
    Chars.length_encode _
  have hsum : (fields.map fun field => 4 + 6 * field.1.utf8ByteSize + field.2.room).sum ≤
      196 * fields.length + (fields.map fun field => field.2.room).sum := by
    clear hbytes
    induction fields with
    | nil => exact Nat.le_refl _
    | cons field fields ih =>
      have hname : field.1.utf8ByteSize ≤ 32 := h _ List.mem_cons_self
      have hrest := ih (fun name hmem => h name (List.mem_cons_of_mem _ hmem))
      simp only [List.map_cons, List.sum_cons, List.length_cons]
      omega
  have hsize := JsonObject.size_write_le fields
  omega

theorem room_text {value : String} {n : Nat} (h : len value ≤ n) :
    (Value.text value).room ≤ 2 + 6 * n := by
  have hlen : value.utf8ByteSize ≤ n := h
  show 2 + 6 * value.utf8ByteSize ≤ 2 + 6 * n
  omega

theorem room_optionText {value : Option String} {n : Nat} (h : ∀ text ∈ value, len text ≤ n) :
    (optionValue Value.text value).room ≤ 4 + 6 * n := by
  cases value with
  | none =>
    show 4 ≤ 4 + 6 * n
    omega
  | some text =>
    have hroom := room_text (h text rfl)
    show (Value.text text).room ≤ 4 + 6 * n
    omega

/-- A `u64` takes at most twenty digits. -/
theorem room_count {value : Option Nat} (h : ∀ n ∈ value, n < 2 ^ 64) :
    (optionValue Value.number value).room ≤ 20 := by
  cases value with
  | none => decide
  | some n =>
    have hn : n < 10 ^ 20 := Nat.lt_trans (h n rfl) (by decide)
    exact (Nat.length_toDigits_le_iff (by decide) (by decide)).mpr hn

theorem len_hyphenated (uuid : BitVec 128) : len (UuidText.hyphenated uuid) = 36 := by
  have hascii : ∀ c ∈ (UuidText.hyphenated uuid).toList, decide (c.toNat < 128) = true :=
    UuidText.all_hyphenated (by decide) (by decide) uuid
  rw [len, Text.utf8ByteSize_ascii (fun c hc => of_decide_eq_true (hascii c hc)),
    UuidText.length_hyphenated]

/-- A snapshot of a turn within the bounds of its stages. -/
structure SnapshotBounds (s : SendChatSnapshot) : Prop where
  schema : s.schema = 1
  status : len s.status ≤ 16
  turnKind : len s.turnKind ≤ 16
  projectId : len s.projectId ≤ 36
  conversationId : len s.conversationId ≤ 36
  modelId : len s.modelId ≤ 512
  observedModelId : ∀ id ∈ s.observedModelId, len id ≤ 512
  finishReason : ∀ reason ∈ s.finishReason, len reason ≤ 64
  assistantText : len s.assistantText ≤ maxConversationMessageBytes
  inputTokens : ∀ n ∈ s.inputTokens, n < 2 ^ 64
  outputTokens : ∀ n ∈ s.outputTokens, n < 2 ^ 64
  cachedInputTokens : ∀ n ∈ s.cachedInputTokens, n < 2 ^ 64
  fileToolCalls : ∀ n ∈ s.successfulFileToolCalls, n < 2 ^ 64
  mutationToolCalls : ∀ n ∈ s.successfulMutationToolCalls, n < 2 ^ 64

/-- **Every such snapshot fits the buffer**, whatever its texts need for escapes. -/
theorem length_snapshot {s : SendChatSnapshot} (h : SnapshotBounds s) :
    (toVec s.fields).length ≤ chatFfiMaxOutputBytes := by
  have hnamed : Named s.fields := by
    have hnames : ∀ name ∈ ["schema", "status", "turn_kind", "project_id", "conversation_id",
        "model_id", "observed_model_id", "finish_reason", "assistant_text", "input_tokens",
        "output_tokens", "cached_input_tokens", "successful_file_tool_calls",
        "successful_mutation_tool_calls", "workspace_change_proven"], len name ≤ 32 := by decide
    exact hnames
  have hlength := length_toVec hnamed
  have hproven : (optionValue Value.boolean s.workspaceChangeProven).room ≤ 5 := by
    cases s.workspaceChangeProven with
    | none => decide
    | some b => exact Nat.le_refl 5
  have hschema : (Value.number s.schema).room = 1 := by
    rw [h.schema]
    rfl
  have hstatus := room_text h.status
  have hkind := room_text h.turnKind
  have hproject := room_text h.projectId
  have hconversation := room_text h.conversationId
  have hmodel := room_text h.modelId
  have hobserved := room_optionText h.observedModelId
  have hfinish := room_optionText h.finishReason
  have htext := room_text h.assistantText
  have hinput := room_count h.inputTokens
  have houtput := room_count h.outputTokens
  have hcached := room_count h.cachedInputTokens
  have hfile := room_count h.fileToolCalls
  have hmutation := room_count h.mutationToolCalls
  have hmost : maxConversationMessageBytes = 256 * 1024 := rfl
  have hbuffer : chatFfiMaxOutputBytes = 2 * 1024 * 1024 := rfl
  simp only [SendChatSnapshot.fields, List.map_cons, List.map_nil, List.sum_cons, List.sum_nil,
    List.length_cons, List.length_nil] at hlength
  rw [SendChatSnapshot.fields]
  omega

open TurnResults (ModelBounds ActionBounds)

theorem snapshotBounds_model {outcome : ConversationModelTurnOutcome} (h : ModelBounds outcome)
    (project : ProjectId) (conversation : ConversationId) :
    SnapshotBounds (modelSnapshot project conversation outcome) where
  schema := rfl
  status := show len "completed" ≤ 16 by decide
  turnKind := show len "model_chat" ≤ 16 by decide
  projectId := Nat.le_of_eq (len_hyphenated _)
  conversationId := Nat.le_of_eq (len_hyphenated _)
  modelId := h.model
  observedModelId id hid := by
    rw [h.observed id hid]
    exact h.model
  finishReason := h.finish
  assistantText := h.text
  inputTokens n hn := by
    obtain ⟨usage, husage, rfl⟩ := Option.map_eq_some_iff.mp hn
    exact (h.usage usage husage).input
  outputTokens n hn := by
    obtain ⟨usage, husage, rfl⟩ := Option.map_eq_some_iff.mp hn
    exact (h.usage usage husage).output
  cachedInputTokens n hn := by
    obtain ⟨usage, husage, hcached⟩ := Option.bind_eq_some_iff.mp hn
    exact (h.usage usage husage).cached n hcached
  fileToolCalls n hn := by cases hn
  mutationToolCalls n hn := by cases hn

theorem snapshotBounds_action {outcome : PersistedAgentActionTurnOutcome} (h : ActionBounds outcome)
    (project : ProjectId) (conversation : ConversationId) :
    SnapshotBounds (actionSnapshot project conversation outcome) where
  schema := rfl
  status := show len "completed" ≤ 16 by decide
  turnKind := show len "agent_action" ≤ 16 by decide
  projectId := Nat.le_of_eq (len_hyphenated _)
  conversationId := Nat.le_of_eq (len_hyphenated _)
  modelId := h.backend.model
  observedModelId id hid := by cases hid
  finishReason reason hreason := by cases hreason
  assistantText := h.text
  inputTokens n hn := by
    obtain ⟨usage, husage, rfl⟩ := Option.map_eq_some_iff.mp hn
    exact (h.backend.usage usage husage).input
  outputTokens n hn := by
    obtain ⟨usage, husage, rfl⟩ := Option.map_eq_some_iff.mp hn
    exact (h.backend.usage usage husage).output
  cachedInputTokens n hn := by
    obtain ⟨usage, husage, hcached⟩ := Option.bind_eq_some_iff.mp hn
    exact (h.backend.usage usage husage).cached n hcached
  fileToolCalls n hn := by
    cases hn
    exact Nat.lt_of_le_of_lt h.fileTools (by decide)
  mutationToolCalls n hn := by
    cases hn
    exact Nat.lt_of_le_of_lt h.mutations (by decide)

/-! ## Reading a document -/

/-- The document in a buffer. -/
def document (bytes : List UInt8) : Option (List (String × Value)) :=
  (Chars.decode bytes).bind JsonObject.read

/-- A field of the document in a buffer. -/
def readField (bytes : List UInt8) (name : String) : Option Value :=
  (document bytes).bind (List.lookup name)

/-- The status a caller reads. -/
def statusOf (bytes : List UInt8) : Option Value := readField bytes "status"

theorem document_toVec (fields : List (String × Value)) : document (toVec fields) = some fields := by
  rw [document, toVec, Chars.decode_iff.mpr rfl, Option.bind_some, JsonObject.read_write]

theorem toVec_nonempty (fields : List (String × Value)) : (toVec fields).isEmpty = false := by
  have hdocument : toVec fields ≠ [] := by
    intro hnil
    have hread := document_toVec fields
    rw [hnil] at hread
    cases hread
  rw [List.isEmpty_eq_false_iff]
  exact hdocument

theorem statusOf_snapshot (s : SendChatSnapshot) : statusOf (toVec s.fields) = some (.text s.status) := by
  rw [statusOf, readField, document_toVec]
  rfl

theorem assistantText_snapshot (s : SendChatSnapshot) :
    readField (toVec s.fields) "assistant_text" = some (.text s.assistantText) := by
  rw [readField, document_toVec]
  rfl

theorem statusOf_error (error : VibeCoderError) :
    statusOf (errorJson error) = some (.text (errorSnapshot error).status) := by
  rw [statusOf, readField, errorJson, document_toVec]
  rfl

/-- A code is short, and every character of it takes one byte. -/
theorem len_stableErrorCode (error : VibeCoderError) : len (stableErrorCode error) ≤ 160 := by
  have hascii : ∀ byte, (codeChar byte).toNat < 128 := by
    intro byte
    rw [codeChar]
    split
    · rename_i hlow
      have hall : ∀ n < 128, (Char.ofNat n).toNat < 128 := by decide
      exact hall byte.toNat hlow.1
    · decide
  rw [stableErrorCode]
  split
  · decide
  · rename_i c cs hcode
    rw [← hcode, len, Text.utf8ByteSize_ascii, String.toList_ofList, List.length_map,
      List.length_take]
    · exact Nat.min_le_left _ _
    · intro d hd
      rw [String.toList_ofList] at hd
      obtain ⟨byte, -, rfl⟩ := List.mem_map.mp hd
      exact hascii byte

theorem length_errorJson (error : VibeCoderError) :
    (errorJson error).length ≤ chatFfiMaxOutputBytes := by
  have hnamed : Named (errorSnapshot error).fields := by
    have hnames : ∀ name ∈ ["schema", "status", "error"], len name ≤ 32 := by decide
    exact hnames
  have hlength := length_toVec hnamed
  have hstatus : len (errorSnapshot error).status ≤ 16 := by
    show len (if error = .cancelled then "cancelled" else "failed") ≤ 16
    split
    · decide
    · decide
  have hstatus' := room_text hstatus
  have herror : (Value.text (errorSnapshot error).error).room ≤ 2 + 6 * 160 :=
    room_text (len_stableErrorCode error)
  have hschema : (Value.number (errorSnapshot error).schema).room = 1 := by
    show (Value.number 1).room = 1
    rfl
  have hbuffer : chatFfiMaxOutputBytes = 2 * 1024 * 1024 := rfl
  simp only [ErrorSnapshot.fields, List.map_cons, List.map_nil, List.sum_cons, List.sum_nil,
    List.length_cons, List.length_nil] at hlength
  rw [errorJson, ErrorSnapshot.fields]
  omega

/-! ## The report -/

open Resume

/-- Errors other than a cancellation. -/
def Fails {α : Type} (r : Result α) : Prop := r ≠ .error .cancelled

theorem fails_bind {α β : Type} {r : Result α} {f : α → Result β} (hr : Fails r)
    (hf : ∀ a, Fails (f a)) : Fails (r >>= f) := by
  cases r with
  | ok a => exact hf a
  | error e => exact fun h => hr (by cases h; rfl)

theorem fails_host {α : Type} (code : String) : Fails (.error (hostError code) : Result α) := by
  rintro ⟨⟩

theorem fails_ok {α : Type} (a : α) : Fails (.ok a : Result α) := by
  rintro ⟨⟩

theorem fails_parseUuidCstr (pointer : Option (List UInt8)) (code : String) :
    Fails (parseUuidCstr pointer code) := by
  have hcstr : Fails (boundedCstr pointer 64 code) := by
    cases pointer with
    | none => exact fails_host code
    | some bytes =>
      rw [boundedCstr]
      split
      · exact fails_host code
      · split
        · exact fails_host code
        · split
          · exact fails_host code
          · exact fails_ok _
  refine fails_bind hcstr (fun text => ?_)
  split
  · exact fails_host code
  · split
    · exact fails_host code
    · exact fails_ok _

/-- No check before the core turn reports a cancellation. -/
theorem fails_checkSend (platform : Platform) (c : Controller) (arguments : SendArguments) :
    Fails (checkSend platform c arguments) := by
  have hparse : Fails arguments.parse := by
    rw [SendArguments.parse]
    split
    · dsimp only
      split
      · exact fails_host _
      · refine fails_bind (fails_bind (fails_parseUuidCstr _ _) (fun _ => fails_ok _)) (fun _ => ?_)
        refine fails_bind (fails_bind (fails_parseUuidCstr _ _) (fun _ => fails_ok _)) (fun _ => ?_)
        split
        · exact fails_host _
        · split
          · exact fails_host _
          · exact fails_ok _
    · exact fails_host _
  refine fails_bind hparse (fun parsed => fails_bind ?_ (fun _ => fails_bind ?_ (fun _ => fails_ok _)))
  · rw [Controller.current]
    split
    · exact fails_ok _
    · exact fails_host _
  · rw [Controller.selectExactModel]
    split
    · exact fails_host _
    · exact fails_ok _

/-- The run of the core turn that the call makes, if its checks let it. -/
def coreRun (config : CoreConfig) (platform : Platform) (c : Controller)
    (arguments : SendArguments) (flag : Flag) (w : Nat → (o : Op) → Result o.Val) :
    Option (Result TurnOutcome × Nat × TurnResults.Log) :=
  match checkSend platform c arguments with
  | .error _ => none
  | .ok turn =>
    if c.activeTurn.isSome then none
    else some (runAlone record w (coreTurn config turn flag) 0 [])

/-- How a report is made of the result of the core turn, if there was one. -/
structure Faithful (result : Option (Result TurnOutcome)) (log : TurnResults.Log) (returned : Int)
    (bytes : List UInt8) : Prop where
  written : returned = bytes.length ∧ 0 < returned
  document : (document bytes).isSome
  completed : statusOf bytes = some (.text "completed") ↔ ∃ outcome, result = some (.ok outcome)
  cancelled : statusOf bytes = some (.text "cancelled") ↔ result = some (.error .cancelled)
  failed : statusOf bytes = some (.text "failed") ↔
    result = none ∨ ∃ e, e ≠ .cancelled ∧ result = some (.error e)
  committed : ∀ outcome, result = some (.ok outcome) →
    readField bytes "assistant_text" = some (.text outcome.assistantText) ∧
      TurnResults.committedText log = some outcome.assistantText

/-- A document that fits is copied. -/
theorem oneShotJson_document (answer : Answer) {fields : List (String × Value)}
    (hbytes : answer.bytes = toVec fields) (hfits : (toVec fields).length ≤ chatFfiMaxOutputBytes) :
    oneShotJson (some chatFfiMaxOutputBytes) answer =
      (((toVec fields).length : Int), toVec fields) := by
  have hcapacity : ¬ (chatFfiMaxOutputBytes = 0 ∨ chatFfiMaxOutputBytes > chatFfiMaxOutputBytes) := by
    decide
  have hroom : ¬ ((toVec fields).isEmpty = true ∨ (toVec fields).length > chatFfiMaxOutputBytes ∨
      (toVec fields).length > chatFfiMaxOutputBytes) := by
    rw [toVec_nonempty fields, not_or, not_or]
    exact ⟨Bool.false_ne_true, Nat.not_lt.mpr hfits, Nat.not_lt.mpr hfits⟩
  unfold oneShotJson
  dsimp only
  rw [if_neg hcapacity, hbytes, if_neg hroom]

/-- What is written of any document. -/
theorem written_document (fields : List (String × Value)) :
    (0 : Int) < ((toVec fields).length : Int) ∧ (document (toVec fields)).isSome := by
  have hne := toVec_nonempty fields
  rw [List.isEmpty_eq_false_iff] at hne
  refine ⟨Int.natCast_pos.mpr (List.length_pos_iff.mpr hne), ?_⟩
  rw [document_toVec]
  rfl

/-- A failed call: its error is the report. -/
theorem faithful_error {result : Option (Result TurnOutcome)} {log : TurnResults.Log}
    {e : VibeCoderError} (h : result = some (.error e) ∨ (result = none ∧ e ≠ .cancelled)) :
    let out := oneShotJson (some chatFfiMaxOutputBytes) (.returned (.error e))
    Faithful result log out.1 out.2 := by
  intro out
  have hok : ∀ outcome, result ≠ some (.ok outcome) := by
    rintro outcome rfl
    rcases h with h | h
    · cases h
    · cases h.1
  have hcopied : out = (((errorJson e).length : Int), errorJson e) :=
    oneShotJson_document (.returned (.error e)) rfl (length_errorJson e)
  obtain ⟨hpos, hdocument⟩ := written_document (errorSnapshot e).fields
  have hstatus := statusOf_error e
  rw [hcopied]
  by_cases he : e = .cancelled
  · have hresult := h.resolve_right (fun hnone => hnone.2 he)
    have hcancelled : (errorSnapshot e).status = "cancelled" := if_pos he
    rw [hcancelled] at hstatus
    refine ⟨⟨rfl, hpos⟩, hdocument, ?_, ?_, ?_, fun outcome h => absurd h (hok outcome)⟩
    · rw [hstatus]
      exact ⟨fun h => absurd h (by decide), fun ⟨outcome, h⟩ => absurd h (hok outcome)⟩
    · rw [hstatus, hresult, he]
      exact ⟨fun _ => rfl, fun _ => rfl⟩
    · rw [hstatus, hresult, he]
      refine ⟨fun h => absurd h (by decide), ?_⟩
      rintro (hnone | ⟨e', he', hsame⟩)
      · cases hnone
      · cases hsame
        exact absurd rfl he'
  · have hfailed : (errorSnapshot e).status = "failed" := if_neg he
    rw [hfailed] at hstatus
    refine ⟨⟨rfl, hpos⟩, hdocument, ?_, ?_, ?_, fun outcome h => absurd h (hok outcome)⟩
    · rw [hstatus]
      exact ⟨fun h => absurd h (by decide), fun ⟨outcome, h⟩ => absurd h (hok outcome)⟩
    · rw [hstatus]
      refine ⟨fun h => absurd h (by decide), ?_⟩
      rintro rfl
      rcases h with h | h
      · cases h
        exact absurd rfl he
      · cases h.1
    · rw [hstatus]
      refine ⟨fun _ => ?_, fun _ => rfl⟩
      rcases h with h | h
      · exact Or.inr ⟨e, he, h⟩
      · exact Or.inl h.1

/-- A turn that has an outcome within its bounds. -/
theorem faithful_outcome {log : TurnResults.Log} {outcome : TurnOutcome} {turn : SendTurn}
    (hbounds : SnapshotBounds (outcome.snapshot turn))
    (hcommits : TurnResults.Commits outcome.assistantText log) :
    let out := oneShotJson (some chatFfiMaxOutputBytes)
      (.returned (serializeBounded (some (toVec (outcome.snapshot turn).fields))))
    Faithful (some (.ok outcome)) log out.1 out.2 := by
  intro out
  have hfits := length_snapshot hbounds
  have hserialized : serializeBounded (some (toVec (outcome.snapshot turn).fields)) =
      .ok (toVec (outcome.snapshot turn).fields) := by
    have hroom : ¬ ((toVec (outcome.snapshot turn).fields).isEmpty = true ∨
        (toVec (outcome.snapshot turn).fields).length > chatFfiMaxOutputBytes) := by
      rw [toVec_nonempty, not_or]
      exact ⟨Bool.false_ne_true, Nat.not_lt.mpr hfits⟩
    rw [serializeBounded, if_neg hroom]
  have hstatus : statusOf (toVec (outcome.snapshot turn).fields) = some (.text "completed") := by
    rw [statusOf_snapshot]
    cases outcome with
    | model outcome => rfl
    | action outcome => rfl
  have htext : (outcome.snapshot turn).assistantText = outcome.assistantText := by
    cases outcome with
    | model outcome => rfl
    | action outcome => rfl
  have hcopied : out = (((toVec (outcome.snapshot turn).fields).length : Int),
      toVec (outcome.snapshot turn).fields) :=
    oneShotJson_document _ (by rw [hserialized]; rfl) hfits
  obtain ⟨hpos, hdocument⟩ := written_document (outcome.snapshot turn).fields
  rw [hcopied]
  refine ⟨⟨rfl, hpos⟩, hdocument, ?_, ?_, ?_, ?_⟩
  · exact ⟨fun _ => ⟨outcome, rfl⟩, fun _ => hstatus⟩
  · rw [hstatus]
    exact ⟨fun h => absurd h (by decide), fun h => by cases h⟩
  · rw [hstatus]
    refine ⟨fun h => absurd h (by decide), ?_⟩
    rintro (h | ⟨e, -, h⟩)
    · cases h
    · cases h
  · rintro found hfound
    cases hfound
    refine ⟨?_, hcommits⟩
    rw [assistantText_snapshot, htext]

/-- The core turn of either route: an outcome within its bounds, whose text is committed. -/
theorem wp_coreTurn {fromSlice : List UInt8 → Option Gateway.Chat.OpenAiChatEnvelope}
    {config : CoreConfig} (turn : SendTurn) (flag : Flag) :
    Wp (TurnResults.Facing fromSlice) () (coreTurn config turn flag)
      (fun outcome t => SnapshotBounds (outcome.snapshot turn) ∧
        TurnResults.Commits outcome.assistantText t) (fun _ _ => True) [] := by
  rw [coreTurn]
  split
  · exact wp_seq trivial (TurnResults.wp_modelTurn _ _ _ _)
      (fun outcome t _ h => wp_pure ⟨snapshotBounds_model h.1 _ _, h.2⟩) (fun _ _ _ _ => trivial)
  · exact wp_seq trivial (TurnResults.wp_actionTurn _ _)
      (fun outcome t _ h => wp_pure ⟨snapshotBounds_action h.1 _ _, h.2⟩) (fun _ _ _ _ => trivial)

/-- **Chat turns are reported faithfully.**  For every prompt, every controller and every behaviour of
    the gateway, the agent and the stores, `chat_send` with the buffer of the bridge writes a JSON
    document and never the bare error code.  Its status is `completed` exactly if the core turn
    returned `Ok`, and it then carries the text that the turn committed; `cancelled` exactly if the
    core turn was cancelled; and `failed` otherwise. -/
theorem chat_send_reports (config : CoreConfig) (platform : Platform) (c : Controller)
    (arguments : SendArguments) (flag : Flag)
    (fromSlice : List UInt8 → Option Gateway.Chat.OpenAiChatEnvelope)
    (w : Nat → TurnResults.Surroundings fromSlice) :
    let answers := fun n => (w n).answer
    let run := runAlone record answers (chatSendBytes config platform.serde c arguments flag) 0 []
    let out := oneShotJson (some chatFfiMaxOutputBytes) (.returned run.1)
    Faithful ((coreRun config platform.serde c arguments flag answers).map (·.1)) run.2.2
      out.1 out.2 := by
  intro answers run out
  have hrun : run = runAlone record answers
      (chatSendBytes config platform.serde c arguments flag) 0 [] := rfl
  rw [chatSendBytes] at hrun
  have hfails := fails_checkSend platform.serde c arguments
  rw [coreRun]
  cases hcheck : checkSend platform.serde c arguments with
  | error e =>
    rw [hcheck] at hrun
    have hfirst : run = (.error e, 0, []) := hrun
    have he : e ≠ .cancelled := fun h => hfails (by rw [hcheck, h])
    show Faithful none run.2.2 (oneShotJson _ (.returned run.1)).1 (oneShotJson _ (.returned run.1)).2
    rw [hfirst]
    exact faithful_error (Or.inr ⟨rfl, he⟩)
  | ok turn =>
    rw [hcheck] at hrun
    cases hbusy : c.activeTurn.isSome with
    | true =>
      rw [hbusy] at hrun
      have hfirst : run = (.error (hostError "android_chat_turn_already_active"), 0, []) := hrun
      show Faithful none run.2.2 (oneShotJson _ (.returned run.1)).1 (oneShotJson _ (.returned run.1)).2
      rw [hfirst]
      exact faithful_error (Or.inr ⟨rfl, by rintro ⟨⟩⟩)
    | false =>
      rw [hbusy] at hrun
      have hrest : run = runAlone record answers (coreTurn config turn flag >>= fun outcome =>
          resume (serializeBounded (some (toVec (outcome.snapshot turn).fields)))) 0 [] := hrun
      have hturn : Wp (TurnResults.Facing fromSlice) () (coreTurn config turn flag)
          (fun outcome t => SnapshotBounds (outcome.snapshot turn) ∧
            TurnResults.Commits outcome.assistantText t) (fun _ _ => True) [] := wp_coreTurn turn flag
      have hpost := wp_run (w := answers) (n := 0) (fun n => (w n).admissible) hturn
      show Faithful (some (runAlone record answers (coreTurn config turn flag) 0 []).1) run.2.2
        (oneShotJson _ (.returned run.1)).1 (oneShotJson _ (.returned run.1)).2
      rcases hcore : runAlone record answers (coreTurn config turn flag) 0 [] with ⟨result, m, log⟩
      rw [hcore] at hpost
      cases result with
      | error e =>
        rw [hrest, runAlone_bind_error record answers _ hcore]
        exact faithful_error (Or.inl rfl)
      | ok outcome =>
        have hlast : run =
            (serializeBounded (some (toVec (outcome.snapshot turn).fields)), m, log) := by
          rw [hrest, runAlone_bind_ok record answers _ hcore]
          rfl
        obtain ⟨hbounds, hcommits⟩ : SnapshotBounds (outcome.snapshot turn) ∧
            TurnResults.Commits outcome.assistantText log := hpost
        have hfaithful := faithful_outcome hbounds hcommits
        rw [hlast]
        dsimp only at hfaithful ⊢
        exact hfaithful

end VibeCoder.Host
