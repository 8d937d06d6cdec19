/-
  The pure checks of the agent turns (`vibecoder-core`): the tool transcript observed while a
  turn runs, its agreement with the turn's own account, and the texts of the explicit loop.

  The observed calls are a `HashMap` in the source; here they are a list with one entry a call
  id, searched by id.
-/
import VibeCoder.Contracts

namespace VibeCoder

def maxAgentActionToolCalls : Nat := 32
def maxAgentActionCallIdBytes : Nat := 256

/-- `AGENT_ACTION_FILE_TOOLS`. -/
def agentActionFileTools : List String :=
  ["read", "write", "edit", "multiedit", "apply_patch", "patch", "agentgrep", "ls"]

/-- `AGENT_ACTION_MUTATION_TOOLS`. -/
def agentActionMutationTools : List String :=
  ["write", "edit", "multiedit", "apply_patch", "patch"]

/-- `agent_action_tool_identity_is_safe`. -/
def agentActionToolIdentityIsSafe (tool callId : String) : Bool :=
  !tool.isEmpty && trimmed tool && decide (len tool ≤ 64) &&
    tool.toList.all (fun c => c.isAlphanum || c == '_') &&
    !callId.isEmpty && trimmed callId && decide (len callId ≤ maxAgentActionCallIdBytes) &&
    !hasControl callId

/-! ## The observed calls -/

/-- `ObservedAgentToolCall`, with the call id it is stored under. -/
structure ObservedAgentToolCall where
  callId : String
  tool : String
  finished : Bool
  ok : Bool
  deriving DecidableEq, Repr

/-- `AgentActionObservation`. -/
structure AgentActionObservation where
  calls : List ObservedAgentToolCall
  protocolFailure : Bool
  deriving DecidableEq, Repr

namespace AgentActionObservation

/-- `AgentActionObservation::default()`. -/
def empty : AgentActionObservation := { calls := [], protocolFailure := false }

/-- `calls.get(call_id)`. -/
def get (o : AgentActionObservation) (callId : String) : Option ObservedAgentToolCall :=
  o.calls.find? (fun call => call.callId == callId)

/-- `calls.insert`: an entry with the same id is replaced. -/
def insert (o : AgentActionObservation) (call : ObservedAgentToolCall) : AgentActionObservation :=
  { o with calls := o.calls.filter (fun other => other.callId != call.callId) ++ [call] }

/-- `observe`.  A refused start is not entered; a repeated one replaces the entry. -/
def observe (o : AgentActionObservation) : AgentEvent → AgentActionObservation
  | .toolStarted tool callId =>
    if !agentActionToolIdentityIsSafe tool callId || tool ∉ agentActionFileTools ||
        o.calls.length ≥ maxAgentActionToolCalls then
      { o with protocolFailure := true }
    else
      let started := o.insert { callId := callId, tool := tool, finished := false, ok := false }
      if (o.get callId).isSome then { started with protocolFailure := true } else started
  | .toolFinished tool callId ok _ _ =>
    match o.get callId with
    | none => { o with protocolFailure := true }
    | some call =>
      if call.tool = tool ∧ call.finished = false then
        { o with calls := o.calls.map (fun other =>
            if other.callId = callId then { other with finished := true, ok := ok } else other) }
      else { o with protocolFailure := true }
  | .textDelta _ | .messageAccepted | .backgroundProgress _ _ _ _ | .sessionStatus _
  | .tokenUsage _ | .permissionRequired _ | .turnCompleted | .warning _ => o

/-- What a stream of events leaves observed. -/
def ofEvents (events : List AgentEvent) : AgentActionObservation :=
  events.foldl observe empty

end AgentActionObservation

/-! ## The transcript checks -/

/-- `(observed_tool_calls, successful_file_tool_calls, successful_mutation_tool_calls)`. -/
structure ToolCounts where
  observed : Nat
  fileTools : Nat
  mutations : Nat
  deriving DecidableEq, Repr

/-- `agent_error`: the checks below answer with one of these. -/
def agentError (code : String) : VibeCoderError := .agent code

/-- The loop of `validate_agent_file_tool_turn` over the turn's tool calls, with the ids seen so
    far and the two counters. -/
def validateToolCalls (observation : AgentActionObservation) (seen : List String)
    (fileTools mutations : Nat) : List ToolCallResult → Result (Nat × Nat)
  | [] => .ok (fileTools, mutations)
  | call :: rest =>
    if !agentActionToolIdentityIsSafe call.tool call.callId || call.tool ∉ agentActionFileTools ||
        call.callId ∈ seen then
      .error (agentError "agent_action_tool_result_identity_invalid")
    else
      match observation.get call.callId with
      | none => .error (agentError "agent_action_tool_result_unobserved")
      | some observed =>
        if observed.tool ≠ call.tool ∨ observed.finished = false ∨
            observed.ok ≠ call.error.isNone then
          .error (agentError "agent_action_tool_result_event_mismatch")
        else if call.error.isNone then
          validateToolCalls observation (call.callId :: seen) (fileTools + 1)
            (if call.tool ∈ agentActionMutationTools then mutations + 1 else mutations) rest
        else validateToolCalls observation (call.callId :: seen) fileTools mutations rest

/-- `validate_agent_file_tool_turn`. -/
def validateAgentFileToolTurn (turn : TurnResult) (observation : AgentActionObservation) :
    Result ToolCounts :=
  if observation.protocolFailure then
    .error (agentError "agent_action_tool_event_protocol_invalid")
  else if blank turn.text || decide (len turn.text > maxConversationMessageBytes) ||
      hasNul turn.text then
    .error (agentError "agent_action_final_response_invalid")
  else if turn.toolCalls.isEmpty || decide (turn.toolCalls.length > maxAgentActionToolCalls) then
    .error (agentError "agent_action_tool_count_invalid")
  else if observation.calls.length ≠ turn.toolCalls.length then
    .error (agentError "agent_action_tool_transcript_count_mismatch")
  else
    match validateToolCalls observation [] 0 0 turn.toolCalls with
    | .error e => .error e
    | .ok (fileTools, mutations) =>
      if fileTools = 0 then .error (agentError "agent_action_no_successful_file_tool")
      else .ok {
        observed := observation.calls.length
        fileTools := fileTools
        mutations := mutations }

/-- `validate_agent_loop_iteration_turn`. -/
def validateAgentLoopIterationTurn (turn : TurnResult) (observation : AgentActionObservation) :
    Result ToolCounts :=
  validateAgentFileToolTurn turn observation

/-- `validate_agent_action_turn`. -/
def validateAgentActionTurn (turn : TurnResult) (observation : AgentActionObservation) :
    Result ToolCounts :=
  match validateAgentFileToolTurn turn observation with
  | .error e => .error e
  | .ok counts =>
    if counts.mutations = 0 then .error (agentError "agent_action_no_successful_mutation")
    else .ok counts

/-- The loop's mutation counter only counts successful calls of mutating tools. -/
theorem validateToolCalls_mutations {observation : AgentActionObservation} :
    ∀ {calls : List ToolCallResult} {seen : List String} {fileTools mutations : Nat}
      {counts : Nat × Nat},
      validateToolCalls observation seen fileTools mutations calls = .ok counts →
      mutations < counts.2 →
      ∃ call ∈ calls, call.error = none ∧ call.tool ∈ agentActionMutationTools := by
  intro calls
  induction calls with
  | nil =>
    intro seen fileTools mutations counts h hlt
    cases h
    exact absurd hlt (Nat.lt_irrefl _)
  | cons call rest ih =>
    intro seen fileTools mutations counts h hlt
    rw [validateToolCalls] at h
    split at h
    · cases h
    · split at h
      · cases h
      · split at h
        · cases h
        · split at h
          · rename_i hok
            by_cases hmut : call.tool ∈ agentActionMutationTools
            · exact ⟨call, List.mem_cons_self, Option.isNone_iff_eq_none.mp hok, hmut⟩
            · rw [if_neg hmut] at h
              obtain ⟨found, hin, hfound⟩ := ih h hlt
              exact ⟨found, List.mem_cons_of_mem _ hin, hfound⟩
          · obtain ⟨found, hin, hfound⟩ := ih h hlt
            exact ⟨found, List.mem_cons_of_mem _ hin, hfound⟩

/-- An accepted action turn reports a successful call of a mutating tool, and its text can be
    stored as a message. -/
theorem validateAgentActionTurn_ok {turn : TurnResult} {observation : AgentActionObservation}
    {counts : ToolCounts} (h : validateAgentActionTurn turn observation = .ok counts) :
    0 < counts.mutations ∧
      ∃ call ∈ turn.toolCalls, call.error = none ∧ call.tool ∈ agentActionMutationTools := by
  rw [validateAgentActionTurn] at h
  cases hfile : validateAgentFileToolTurn turn observation with
  | error e => rw [hfile] at h; cases h
  | ok found =>
    rw [hfile] at h
    dsimp only at h
    split at h
    · cases h
    · rename_i hpos
      cases h
      have hmut : 0 < counts.mutations := Nat.pos_of_ne_zero hpos
      refine ⟨hmut, ?_⟩
      rw [validateAgentFileToolTurn] at hfile
      repeat' split at hfile
      all_goals cases hfile
      rename_i fileTools mutations hcalls hfileTools
      exact validateToolCalls_mutations hcalls hmut

/-! ## The explicit loop -/

def defaultExplicitAgentLoopMaxTurns : Nat := 4
def maxExplicitAgentLoopTurns : Nat := 8
def maxExplicitAgentLoopTotalToolCalls : Nat := 256
def maxExplicitAgentLoopSameWorkspaceOccurrences : Nat := 3

/-- `EXPLICIT_AGENT_LOOP_COMPLETE_MARKER`. -/
def completeMarker : String := "VIBECODER_LOOP_STATUS=complete"

/-- `EXPLICIT_AGENT_LOOP_CONTINUE_MARKER`. -/
def continueMarker : String := "VIBECODER_LOOP_STATUS=continue"

/-- `ExplicitAgentLoopPolicy`; `ExplicitAgentLoopGuard::new` keeps only one that `validate`
    accepted, so the bounds are fields. -/
structure ExplicitAgentLoopPolicy where
  maxTurns : Nat
  maxTotalToolCalls : Nat
  maxSameWorkspaceOccurrences : Nat
  turns_pos : 0 < maxTurns
  turns_le : maxTurns ≤ maxExplicitAgentLoopTurns
  calls_pos : 0 < maxTotalToolCalls
  calls_le : maxTotalToolCalls ≤ maxExplicitAgentLoopTotalToolCalls
  occurrences_ge : 2 ≤ maxSameWorkspaceOccurrences
  occurrences_le : maxSameWorkspaceOccurrences ≤ maxExplicitAgentLoopSameWorkspaceOccurrences

/-- `ExplicitAgentLoopPolicy::validate` on the three public fields. -/
def ExplicitAgentLoopPolicy.validate
    (maxTurns maxTotalToolCalls maxSameWorkspaceOccurrences : Nat) :
    Result ExplicitAgentLoopPolicy :=
  if ht : maxTurns = 0 ∨ maxTurns > maxExplicitAgentLoopTurns then
    .error (.invalidRequest "explicit_agent_loop_turn_budget_invalid")
  else if hc : maxTotalToolCalls = 0 ∨ maxTotalToolCalls > maxExplicitAgentLoopTotalToolCalls then
    .error (.invalidRequest "explicit_agent_loop_tool_budget_invalid")
  else if ho : maxSameWorkspaceOccurrences < 2 ∨
      maxSameWorkspaceOccurrences > maxExplicitAgentLoopSameWorkspaceOccurrences then
    .error (.invalidRequest "explicit_agent_loop_repeat_limit_invalid")
  else
    .ok {
      maxTurns := maxTurns
      maxTotalToolCalls := maxTotalToolCalls
      maxSameWorkspaceOccurrences := maxSameWorkspaceOccurrences
      turns_pos := by omega
      turns_le := by omega
      calls_pos := by omega
      calls_le := by omega
      occurrences_ge := by omega
      occurrences_le := by omega }

/-- `ExplicitAgentLoopDecision`. -/
inductive ExplicitAgentLoopDecision where
  | complete
  | continue
  deriving DecidableEq, Repr

/-- `ExplicitAgentLoopStopReason`. -/
inductive ExplicitAgentLoopStopReason where
  | completed
  | cancelled
  | turnBudgetExhausted
  | toolBudgetExhausted
  | repeatedWorkspaceState
  deriving DecidableEq, Repr

/-- `explicit_agent_loop_stop_message`. -/
def explicitAgentLoopStopMessage : ExplicitAgentLoopStopReason → String
  | .completed => "Explicit loop completed."
  | .cancelled => "Explicit loop cancelled. Workspace restored to the pre-loop checkpoint."
  | .turnBudgetExhausted =>
    "Explicit loop stopped at its turn limit. Workspace restored to the pre-loop checkpoint."
  | .toolBudgetExhausted =>
    "Explicit loop stopped at its tool-call limit. Workspace restored to the pre-loop checkpoint."
  | .repeatedWorkspaceState =>
    "Explicit loop stopped after repeating a workspace state. Workspace restored to the " ++
      "pre-loop checkpoint."

/-- `build_explicit_agent_loop_iteration_prompt`. -/
def buildExplicitAgentLoopIterationPrompt (originalPrompt : String) (iteration maxTurns : Nat) :
    Result String :=
  if iteration = 0 ∨ iteration > maxTurns ∨ maxTurns = 0 then
    .error (.invalidRequest "explicit_agent_loop_iteration_invalid")
  else
    let prompt := originalPrompt ++
      "\n\n[VibeCoder explicit loop control]\n" ++
      "This loop was explicitly requested by the user. Iteration " ++ toString iteration ++
      " of at most " ++ toString maxTurns ++ ". " ++
      "Inspect the current workspace with the allowed file tools before deciding. Continue " ++
      "working only if the original task is not yet complete. Do not use shell, browser, MCP, " ++
      "or external tools.\n" ++
      "Your final non-empty line MUST be exactly one of:\n" ++
      completeMarker ++ "\n" ++ continueMarker ++ "\n" ++
      "Use `complete` only when the original task is satisfied based on the evidence available " ++
      "through the allowed file tools. Use `continue` only when another file-mutation " ++
      "iteration is genuinely required. Put the user-facing explanation before the marker."
    if decide (len prompt > 1024 * 1024) || hasNul prompt then
      .error (.invalidRequest "explicit_agent_loop_iteration_prompt_too_large")
    else .ok prompt

/-- `str::trim_end` on the characters. -/
def trimEndChars (cs : List Char) : List Char := (cs.reverse.dropWhile isWhitespace).reverse

/-- `str::strip_suffix` on the characters. -/
def stripSuffix (cs suffix : List Char) : Option (List Char) :=
  if suffix.isSuffixOf cs then some (cs.take (cs.length - suffix.length)) else none

/-- `str::contains` on the characters. -/
def containsChars (part : List Char) : List Char → Bool
  | [] => part.isEmpty
  | c :: rest => part.isPrefixOf (c :: rest) || containsChars part rest

/-- The characters `parse_explicit_agent_loop_response` trims off the body. -/
def isBodyPadding (c : Char) : Bool := c == '\r' || c == '\n' || c == ' ' || c == '\t'

/-- What precedes the status marker at the end of a response, and which marker it is. -/
def splitStatusMarker (text : String) : Option (List Char × ExplicitAgentLoopDecision) :=
  let kept := trimEndChars text.toList
  match stripSuffix kept completeMarker.toList with
  | some body => some (body, .complete)
  | none =>
    match stripSuffix kept continueMarker.toList with
    | some body => some (body, .continue)
    | none => none

/-- `parse_explicit_agent_loop_response`. -/
def parseExplicitAgentLoopResponse (text : String) :
    Result (ExplicitAgentLoopDecision × String) :=
  if text.isEmpty || decide (len text > maxConversationMessageBytes) || hasNul text then
    .error (agentError "explicit_agent_loop_response_invalid")
  else
    match splitStatusMarker text with
    | none => .error (agentError "explicit_agent_loop_status_marker_missing")
    | some (body, decision) =>
      let body := (body.reverse.dropWhile isBodyPadding).reverse
      if (trimChars body).isEmpty || containsChars completeMarker.toList body ||
          containsChars continueMarker.toList body ||
          decide (len (String.ofList body) > maxConversationMessageBytes) then
        .error (agentError "explicit_agent_loop_response_body_invalid")
      else .ok (decision, String.ofList body)

/-- Every stop message can be stored as a message. -/
theorem explicitAgentLoopStopMessage_valid (reason : ExplicitAgentLoopStopReason) :
    messageTextInvalid (explicitAgentLoopStopMessage reason) = false := by
  cases reason <;> decide

end VibeCoder
