/-
  Sending and stopping chat turns in the Android controller
  (`vibecoder-android-host/src/app_controller_ffi.rs`).

  1. **Calls** — the arguments of `chat_send` and `chat_cancel` and their checks, the route of a
     prompt, and what a call answers.

  2. **The controller** (`Controller`) — the slot of the active turn, the one executor, the
     cancellation flags, and the agent's own entry for the turn it runs.

  3. **Steps** (`advance`) — one critical section of one call.  A call that finds the executor taken
     waits: it is where it was.  A future that is being driven goes on for any number of steps, and
     it may panic, which leaves the executor's lock poisoned.

  Every call has a number.  A cancellation flag is named by the call that made it, and an entry of
  the slot carries the number of the call that registered it, which the code never reads.

  Left out: the output buffer of the FFI, the nested `block_on` (the callers are Java threads,
  never a thread that drives the runtime), and a poisoned slot (no critical section of it can
  panic).
-/
import VibeCoder.Core.Turns
import VibeCoder.Jcode.Sessions
import VibeCoder.Lib.Chars
import VibeCoder.Lib.UuidText

namespace VibeCoder.Host

/-- `host_error`. -/
def hostError (code : String) : VibeCoderError := .config code

def chatMaxPromptBytes : Nat := 128 * 1024
def chatFfiMaxOutputBytes : Nat := 2 * 1024 * 1024

/-! ## Answers -/

/-- `SendChatSnapshot`. -/
structure SendChatSnapshot where
  schema : Nat
  status : String
  turnKind : String
  projectId : String
  conversationId : String
  modelId : String
  observedModelId : Option String
  finishReason : Option String
  assistantText : String
  inputTokens : Option Nat
  outputTokens : Option Nat
  cachedInputTokens : Option Nat
  successfulFileToolCalls : Option Nat
  successfulMutationToolCalls : Option Nat
  workspaceChangeProven : Option Bool
  deriving DecidableEq, Repr

/-- `CancelChatSnapshot`. -/
structure CancelChatSnapshot where
  schema : Nat
  status : String
  cancelRequested : Bool
  deriving DecidableEq, Repr

/-- What comes from libraries and tables: the case mapping and the letters of Unicode, the JSON
    encoder, and what the agent calls itself. -/
structure Platform where
  toLowercase : Char → List Char
  isAlphanumeric : Char → Bool
  sendJson : SendChatSnapshot → Option (List UInt8)
  cancelJson : CancelChatSnapshot → Option (List UInt8)
  runtimeId : String

/-- `serialize_bounded`. -/
def serializeBounded (encoded : Option (List UInt8)) : Result (List UInt8) :=
  match encoded with
  | none => .error (hostError "android_app_controller_json_failed")
  | some bytes =>
    if bytes.isEmpty ∨ bytes.length > chatFfiMaxOutputBytes then
      .error (hostError "android_app_controller_json_too_large")
    else .ok bytes

/-- The answer to a model turn. -/
def modelSnapshot (project : ProjectId) (conversation : ConversationId)
    (outcome : ConversationModelTurnOutcome) : SendChatSnapshot where
  schema := 1
  status := "completed"
  turnKind := "model_chat"
  projectId := UuidText.hyphenated project.uuid
  conversationId := UuidText.hyphenated conversation.uuid
  modelId := outcome.model.id
  observedModelId := outcome.observedModelId
  finishReason := outcome.finishReason
  assistantText := outcome.assistantText
  inputTokens := outcome.usage.map (·.input)
  outputTokens := outcome.usage.map (·.output)
  cachedInputTokens := outcome.usage.bind (·.cacheReadInput)
  successfulFileToolCalls := none
  successfulMutationToolCalls := none
  workspaceChangeProven := none

/-- The answer to an action turn. -/
def actionSnapshot (project : ProjectId) (conversation : ConversationId)
    (outcome : PersistedAgentActionTurnOutcome) : SendChatSnapshot where
  schema := 1
  status := "completed"
  turnKind := "agent_action"
  projectId := UuidText.hyphenated project.uuid
  conversationId := UuidText.hyphenated conversation.uuid
  modelId := outcome.backend.model.id
  observedModelId := none
  finishReason := none
  assistantText := outcome.backend.turn.text
  inputTokens := outcome.backend.turn.usage.map (·.input)
  outputTokens := outcome.backend.turn.usage.map (·.output)
  cachedInputTokens := outcome.backend.turn.usage.bind (·.cacheReadInput)
  successfulFileToolCalls := some outcome.successfulFileToolCalls
  successfulMutationToolCalls := some outcome.successfulMutationToolCalls
  -- `workspace_change_proven()` is constant
  workspaceChangeProven := some true

/-- The answer to a stop. -/
def cancelSnapshot (requested : Bool) : CancelChatSnapshot where
  schema := 1
  status := if requested then "cancel_requested" else "no_matching_active_turn"
  cancelRequested := requested

/-! ## Arguments -/

/-- `std::str::from_utf8`. -/
def fromUtf8 (bytes : List UInt8) : Option String := String.fromUTF8? ⟨bytes.toArray⟩

/-- `bounded_cstr`: a null pointer is none. -/
def boundedCstr (pointer : Option (List UInt8)) (maxBytes : Nat) (code : String) :
    Result String :=
  match pointer with
  | none => .error (hostError code)
  | some bytes =>
    if bytes.isEmpty ∨ bytes.length > maxBytes then .error (hostError code)
    else
      match fromUtf8 bytes with
      | none => .error (hostError code)
      | some text =>
        if !trimmed text || text.toList.any (fun c => c.toNat < 0x20 || c.toNat == 0x7F) then
          .error (hostError code)
        else .ok text

/-- The body `parse_project_id_cstr` and `parse_conversation_id_cstr` share: only the text that is
    written back the same way is taken. -/
def parseUuidCstr (pointer : Option (List UInt8)) (code : String) : Result (BitVec 128) := do
  let text ← boundedCstr pointer 64 code
  match UuidText.parseStr text with
  | none => throw (hostError code)
  | some uuid => if UuidText.hyphenated uuid ≠ text then throw (hostError code) else return uuid

/-- `parse_project_id_cstr`. -/
def parseProjectIdCstr (pointer : Option (List UInt8)) : Result ProjectId :=
  return ⟨← parseUuidCstr pointer "android_chat_project_id_invalid"⟩

/-- `parse_conversation_id_cstr`. -/
def parseConversationIdCstr (pointer : Option (List UInt8)) : Result ConversationId :=
  return ⟨← parseUuidCstr pointer "android_chat_conversation_id_invalid"⟩

/-- The arguments of `chat_send_bytes`; a null pointer is none. -/
structure SendArguments where
  projectId : Option (List UInt8)
  conversationId : Option (List UInt8)
  promptUtf8 : Option (List UInt8)

/-- The arguments of `chat_cancel_bytes`. -/
structure CancelArguments where
  projectId : Option (List UInt8)
  conversationId : Option (List UInt8)

/-- The checks `chat_send_bytes` starts with. -/
def SendArguments.parse (a : SendArguments) : Result (ProjectId × ConversationId × String) :=
  match a.projectId, a.conversationId, a.promptUtf8 with
  | some project, some conversation, some promptBytes => do
    if promptBytes.length = 0 ∨ promptBytes.length > chatMaxPromptBytes then
      throw (hostError "android_chat_send_arguments_invalid")
    let projectId ← parseProjectIdCstr (some project)
    let conversationId ← parseConversationIdCstr (some conversation)
    match fromUtf8 promptBytes with
    | none => throw (hostError "android_chat_prompt_not_utf8")
    | some prompt =>
      if blank prompt || hasNul prompt then throw (hostError "android_chat_prompt_invalid")
      else return (projectId, conversationId, prompt)
  | _, _, _ => .error (hostError "android_chat_send_arguments_invalid")

/-- The checks `chat_cancel_bytes` starts with. -/
def CancelArguments.parse (a : CancelArguments) : Result (ProjectId × ConversationId) :=
  match a.projectId, a.conversationId with
  | some project, some conversation => do
    let projectId ← parseProjectIdCstr (some project)
    let conversationId ← parseConversationIdCstr (some conversation)
    return (projectId, conversationId)
  | _, _ => .error (hostError "android_chat_cancel_arguments_invalid")

/-! ## Routes -/

/-- `ChatRoute`. -/
inductive ChatRoute where
  | modelChat
  | agentAction
  deriving DecidableEq, Repr

/-- The words that name something to work on. -/
def targetWords : List String :=
  ["app", "project", "code", "file", "button", "screen", "ui", "layout", "page",
    "component", "feature", "function", "class", "method", "bug", "error", "android",
    "gradle", "manifest", "xml", "html", "css", "javascript", "typescript", "kotlin",
    "java", "rust", "dependency", "route", "api", "endpoint", "test", "tests"]

/-- The words that ask for work. -/
def actionWords : List String :=
  ["add", "create", "make", "implement", "build", "fix", "change", "update", "remove",
    "delete", "rename", "edit", "modify", "refactor", "wire", "connect", "replace",
    "insert", "generate", "design", "bana", "banao", "bnado", "bna", "karo", "kardo",
    "lagao", "jodo", "hatao", "theek", "thik"]

def directRequests : List String :=
  ["please", "can you", "could you", "would you", "i want you to", "bana do", "bana de",
    "bna do", "bna de", "kar do", "kar de", "kardo", "laga do", "jod do", "hata do"]

def explanationPrefixes : List String :=
  ["how ", "how to ", "how do i ", "how can i ", "why ", "what ", "what is ",
    "where ", "when ", "which ", "who ", "can i ", "should i ", "kya ", "kaise ",
    "kyu ", "kyun ", "explain ", "tell me ", "samjha "]

/-- The prompt in lower case, its words set apart by one space. -/
def normalizePrompt (platform : Platform) (prompt : String) : List Char :=
  let lowered := prompt.toList.flatMap platform.toLowercase
  let spaced := lowered.map fun c => if platform.isAlphanumeric c then c else ' '
  [' '].intercalate (Chars.words isWhitespace spaced)

/-- `classify_chat_route`. -/
def classifyChatRoute (platform : Platform) (prompt : String) : ChatRoute :=
  let normalized := normalizePrompt platform prompt
  let padded := ' ' :: normalized ++ [' ']
  let has := fun (phrase : String) => Chars.contains (' ' :: phrase.toList ++ [' ']) padded
  if !targetWords.any has then .modelChat
  else if !actionWords.any has then .modelChat
  else
    let directRequest := directRequests.any has
    let explanationPrefix := explanationPrefixes.any fun p => p.toList.isPrefixOf normalized
    if explanationPrefix && !directRequest then .modelChat else .agentAction

/-! ## The controller -/

/-- `ActiveChatCancellation`; a flag is named by the call that made it. -/
inductive ActiveChatCancellation where
  | model (cancellation : Nat)
  | agentAction
  deriving DecidableEq, Repr

/-- `ActiveChatTurn`, and the call that registered it. -/
structure ActiveChatTurn where
  projectId : ProjectId
  conversationId : ConversationId
  cancellation : ActiveChatCancellation
  call : Nat
  deriving DecidableEq, Repr

/-- `AndroidAsyncExecutor`: the call that drives the runtime, and what a panic leaves. -/
structure Executor where
  holder : Option Nat
  poisoned : Bool
  deriving DecidableEq, Repr

/-- What the agent knows of the turn it is running. -/
structure RunningTurn where
  sessionId : SessionId
  call : Nat
  deriving DecidableEq, Repr

/-- A turn `chat_send_bytes` has checked. -/
structure SendTurn where
  projectId : ProjectId
  conversationId : ConversationId
  prompt : String
  model : ModelRef
  route : ChatRoute
  deriving DecidableEq, Repr

/-- The entry of the turn in the slot. -/
def SendTurn.active (turn : SendTurn) (n : Nat) : ActiveChatTurn where
  projectId := turn.projectId
  conversationId := turn.conversationId
  cancellation :=
    match turn.route with
    | .modelChat => .model n
    | .agentAction => .agentAction
  call := n

/-- How a call ends. -/
inductive Answer where
  | returned (bytes : Result (List UInt8))
  /-- `catch_unwind` reports `android_app_controller_panic`. -/
  | panicked

/-- How far a call has come. -/
inductive Phase where
  | unstarted
  | sendEntered (arguments : SendArguments)
  /-- The arguments are checked, the model is chosen and the route is known. -/
  | sendChecked (turn : SendTurn)
  /-- The turn is registered; the call waits for the executor. -/
  | sendRegistered (turn : SendTurn)
  /-- The call drives the turn's future. -/
  | sendDriving (turn : SendTurn)
  /-- The executor is given back; the registration is not dropped yet. -/
  | sendReturned (turn : SendTurn) (answer : Answer)
  | cancelEntered (arguments : CancelArguments)
  /-- The stop has found the turn and has not delivered its request. -/
  | cancelFound (projectId : ProjectId) (conversationId : ConversationId) (found : ActiveChatTurn)
  /-- The call drives `cancel_persisted_conversation_turn`. -/
  | cancelDriving (projectId : ProjectId) (conversationId : ConversationId)
      (found : ActiveChatTurn)
  | finished (answer : Answer)

/-- A call of either kind. -/
inductive Call where
  | send (arguments : SendArguments)
  | cancel (arguments : CancelArguments)

def Call.entered : Call → Phase
  | .send arguments => .sendEntered arguments
  | .cancel arguments => .cancelEntered arguments

/-- `AndroidAppController`, the agent's entry, the calls made so far, and which turn each delivered
    request was meant for and reached. -/
structure Controller where
  initialized : Bool
  selectedModel : Option ModelRef
  activeTurn : Option ActiveChatTurn
  executor : Executor
  requested : Nat → Bool
  running : Option RunningTurn
  calls : Nat → Phase
  delivered : List (Nat × Nat)

namespace Controller

/-- No call has been made. -/
def idle (initialized : Bool) (selectedModel : Option ModelRef) : Controller where
  initialized := initialized
  selectedModel := selectedModel
  activeTurn := none
  executor := { holder := none, poisoned := false }
  requested := fun _ => false
  running := none
  calls := fun _ => .unstarted
  delivered := []

/-- Call `n` goes on to a phase. -/
def moveTo (c : Controller) (n : Nat) (phase : Phase) : Controller :=
  { c with calls := fun m => if m = n then phase else c.calls m }

def finish (c : Controller) (n : Nat) (bytes : Result (List UInt8)) : Controller :=
  c.moveTo n (.finished (.returned bytes))

/-- `current_controller`. -/
def current (c : Controller) : Result Unit :=
  if c.initialized then .ok () else .error (hostError "android_app_controller_not_initialized")

/-- `select_exact_model`. -/
def selectExactModel (c : Controller) : Result ModelRef :=
  match c.selectedModel with
  | none => .error (hostError "android_chat_no_usable_models")
  | some model => .ok model

/-- `ActiveTurnRegistration::drop`. -/
def dropRegistration (c : Controller) (turn : SendTurn) : Controller :=
  match c.activeTurn with
  | none => c
  | some active =>
    if active.projectId = turn.projectId ∧ active.conversationId = turn.conversationId then
      { c with activeTurn := none }
    else c

/-- The lookup of `chat_cancel_bytes`. -/
def findTurn (c : Controller) (project : ProjectId) (conversation : ConversationId) :
    Option ActiveChatTurn :=
  c.activeTurn.filter fun turn => turn.projectId = project ∧ turn.conversationId = conversation

/-- The executor's lock is taken by call `n`, which goes on to `phase`. -/
def hold (c : Controller) (n : Nat) (phase : Phase) : Controller :=
  { c.moveTo n phase with executor := { c.executor with holder := some n } }

/-- The executor's lock is given back; a panic leaves it poisoned.  The lease of an agent turn goes
    with the future that held it. -/
def release (c : Controller) (n : Nat) (panicked : Bool) (phase : Phase) : Controller :=
  { c.moveTo n phase with
    executor := { holder := none, poisoned := c.executor.poisoned || panicked }
    running := c.running.filter fun turn => turn.call ≠ n }

end Controller

/-- The error of `block_on` on a poisoned lock. -/
def executorPoisoned : VibeCoderError := hostError "android_host_async_runtime_poisoned"

/-! ## Steps -/

/-- What a future that is being driven does next. -/
inductive Drive where
  /-- `run_turn` of the agent enters its turn, and leaves it. -/
  | agentTurnBegins (sessionId : SessionId)
  | agentTurnEnds
  /-- The future is ready, with one of these outcomes. -/
  | completes (model : Result ConversationModelTurnOutcome)
      (action : Result PersistedAgentActionTurnOutcome)
  | panics

/-- What the surroundings decide about one step. -/
structure World where
  drive : Drive
  loadConversation : Result (Option PersistedConversation)
  /-- The rest of the agent's `cancel`, once it has found the turn. -/
  acknowledged : Result Unit
  /-- The future of a stop panics. -/
  panics : Bool

/-- The session `cancel_persisted_conversation_turn` asks the agent to cancel. -/
def cancelSession (runtimeId : String) (loaded : Result (Option PersistedConversation)) :
    Result SessionId := do
  match ← loaded with
  | none => throw (persistenceError "conversation_not_found")
  | some conversation =>
    match conversation.agentSession with
    | none => throw (persistenceError "conversation_session_not_persisted")
    | some session =>
      if session.runtimeId ≠ runtimeId then
        throw (persistenceError "conversation_session_runtime_mismatch")
      else return session.sessionId

/-- The agent's `cancel`: it reaches the turn that is running for the session. -/
def cancelAgentTurn (running : Option RunningTurn) (acknowledged : Result Unit)
    (sessionId : SessionId) : Result RunningTurn := do
  Jcode.Sessions.validateJcodeSessionId sessionId
  match running.filter fun turn => turn.sessionId = sessionId with
  | none =>
    throw (.invalidRequest "there is no active turn for this session to cancel")
  | some turn => do
    acknowledged
    return turn

/-- `cancel_persisted_conversation_turn`. -/
def cancelPersistedConversationTurn (platform : Platform) (running : Option RunningTurn)
    (w : World) : Result RunningTurn := do
  let sessionId ← cancelSession platform.runtimeId w.loadConversation
  cancelAgentTurn running w.acknowledged sessionId

section Steps

variable (platform : Platform)

/-- The beginning of `chat_send_bytes`, up to the route. -/
def checkSend (c : Controller) (arguments : SendArguments) : Result SendTurn := do
  let (projectId, conversationId, prompt) ← arguments.parse
  c.current
  let model ← c.selectExactModel
  return {
    projectId := projectId
    conversationId := conversationId
    prompt := prompt
    model := model
    route := classifyChatRoute platform prompt }

/-- The critical section that registers the turn. -/
def register (c : Controller) (n : Nat) (turn : SendTurn) : Controller :=
  match c.activeTurn with
  | some _ => c.finish n (.error (hostError "android_chat_turn_already_active"))
  | none => { c.moveTo n (.sendRegistered turn) with activeTurn := some (turn.active n) }

/-- `block_on` before it drives the turn. -/
def lockForTurn (c : Controller) (n : Nat) (turn : SendTurn) : Controller :=
  match c.executor.holder with
  | some _ => c
  | none =>
    if c.executor.poisoned then
      c.moveTo n (.sendReturned turn (.returned (.error executorPoisoned)))
    else c.hold n (.sendDriving turn)

/-- The answer to a turn that has an outcome. -/
def turnAnswer (turn : SendTurn) (model : Result ConversationModelTurnOutcome)
    (action : Result PersistedAgentActionTurnOutcome) : Result (List UInt8) :=
  match turn.route with
  | .modelChat => do
    serializeBounded (platform.sendJson
      (modelSnapshot turn.projectId turn.conversationId (← model)))
  | .agentAction => do
    serializeBounded (platform.sendJson
      (actionSnapshot turn.projectId turn.conversationId (← action)))

/-- One step of the turn's future.  Only an action turn runs a turn of the agent. -/
def driveTurn (c : Controller) (n : Nat) (turn : SendTurn) : Drive → Controller
  | .agentTurnBegins sessionId =>
    match turn.route, c.running with
    | .agentAction, none => { c with running := some { sessionId := sessionId, call := n } }
    | _, _ => c
  | .agentTurnEnds => { c with running := c.running.filter fun running => running.call ≠ n }
  | .completes model action =>
    c.release n false (.sendReturned turn (.returned (turnAnswer platform turn model action)))
  | .panics => c.release n true (.sendReturned turn .panicked)

/-- The lookup, after the checks of `chat_cancel_bytes`. -/
def lookForTurn (c : Controller) (n : Nat) (arguments : CancelArguments) : Controller :=
  match arguments.parse, c.current with
  | .error e, _ => c.finish n (.error e)
  | .ok _, .error e => c.finish n (.error e)
  | .ok (project, conversation), .ok () =>
    match c.findTurn project conversation with
    | none => c.finish n (serializeBounded (platform.cancelJson (cancelSnapshot false)))
    | some found => c.moveTo n (.cancelFound project conversation found)

/-- The delivery of a stop: the flag is set at once, and the agent's `cancel` takes the executor
    first. -/
def deliver (c : Controller) (n : Nat) (project : ProjectId) (conversation : ConversationId)
    (found : ActiveChatTurn) : Controller :=
  match found.cancellation with
  | .model flag =>
    { c.finish n (serializeBounded (platform.cancelJson (cancelSnapshot true))) with
      requested := fun m => if m = flag then true else c.requested m
      delivered := c.delivered ++ [(found.call, flag)] }
  | .agentAction =>
    match c.executor.holder with
    | some _ => c
    | none =>
      if c.executor.poisoned then c.finish n (.error executorPoisoned)
      else c.hold n (.cancelDriving project conversation found)

/-- The agent's `cancel` on the executor. -/
def driveCancel (c : Controller) (n : Nat) (found : ActiveChatTurn) (w : World) : Controller :=
  if w.panics then c.release n true (.finished .panicked)
  else
    match cancelPersistedConversationTurn platform c.running w with
    | .error e => c.release n false (.finished (.returned (.error e)))
    | .ok turn =>
      { c.release n false (.finished (.returned
          (serializeBounded (platform.cancelJson (cancelSnapshot true))))) with
        delivered := c.delivered ++ [(found.call, turn.call)] }

/-- One step of call `n`. -/
def advance (c : Controller) (n : Nat) (w : World) : Controller :=
  match c.calls n with
  | .unstarted => c
  | .sendEntered arguments =>
    match checkSend platform c arguments with
    | .error e => c.finish n (.error e)
    | .ok turn => c.moveTo n (.sendChecked turn)
  | .sendChecked turn => register c n turn
  | .sendRegistered turn => lockForTurn c n turn
  | .sendDriving turn => driveTurn platform c n turn w.drive
  | .sendReturned turn answer => (c.dropRegistration turn).moveTo n (.finished answer)
  | .cancelEntered arguments => lookForTurn platform c n arguments
  | .cancelFound project conversation found => deliver platform c n project conversation found
  | .cancelDriving _ _ found => driveCancel platform c n found w
  | .finished _ => c

/-- What happens next: a call begins, or one goes on. -/
inductive Event where
  | start (n : Nat) (call : Call)
  | step (n : Nat) (w : World)

def handle (c : Controller) : Event → Controller
  | .start n call =>
    match c.calls n with
    | .unstarted => c.moveTo n call.entered
    | _ => c
  | .step n w => advance platform c n w

end Steps

end VibeCoder.Host
