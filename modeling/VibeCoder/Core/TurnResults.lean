/-
  What an accepted turn carries (`vibecoder-core`).

  A model turn or an action turn that returns `Ok` is run here on the trace of its own operations: the
  gateway answers as its adapter does, everything else may answer anything of its type.

  1. **Answers** — `Admissible`: a completion is one the adapter hands on, and counts are `u64`.
  2. **Bounds** — `ModelBounds` and `ActionBounds`: the model id, the finish reason, the text and the
     counts of an outcome are within the bounds of the stages they went through.
  3. **Commits** — `committedText`: the text of an outcome is the one that the last update stored.
-/
import VibeCoder.Core.BackendTask
import VibeCoder.Core.ModelContextRuns
import VibeCoder.Core.ModelTurn
import VibeCoder.Core.ToolTranscript
import VibeCoder.Gateway.ChatResponse
import VibeCoder.Lib.Returns
import Mathlib.Data.List.Forall2

namespace VibeCoder.TurnResults

open Resume
open Gateway.Chat (OpenAiChatEnvelope HandedOn TokensInRange interpretChatResponse
  interpretChatResponse_ok)

/-- What a turn did, and what it was answered. -/
abbrev Log : Type := Trace Op (fun o => Result o.Val)

/-! ## Answers -/

/-- Answers of the surroundings.  `fromSlice` is the JSON reader of the adapter. -/
def Admissible (fromSlice : List UInt8 → Option OpenAiChatEnvelope) :
    (o : Op) → Result o.Val → Prop
  | .query (.chatCompletion request), .ok response =>
    ∃ raw anonymous, interpretChatResponse fromSlice raw anonymous request.model.id = .ok response
  | .endTurn _ _, .ok (_, .ok turn) => ∀ usage ∈ turn.usage, TokensInRange usage
  | _, _ => True

/-- Surroundings of one step. -/
structure Surroundings (fromSlice : List UInt8 → Option OpenAiChatEnvelope) where
  answer : (o : Op) → Result o.Val
  admissible : ∀ o, Admissible fromSlice o (answer o)

/-- An error is always an answer. -/
instance (fromSlice : List UInt8 → Option OpenAiChatEnvelope) : Inhabited (Surroundings fromSlice) where
  default :=
    { answer := fun _ => .error .cancelled
      admissible := fun o => by
        cases o with
        | query q =>
          cases q with
          | _ => trivial
        | _ => trivial }

variable {fromSlice : List UInt8 → Option OpenAiChatEnvelope} {config : CoreConfig}
variable {α : Type} {P : α → Prop}

/-- Every value of the program has the property. -/
abbrev Carries (fromSlice : List UInt8 → Option OpenAiChatEnvelope) (p : CoreM α) (P : α → Prop) :
    Prop := Gives (Admissible fromSlice) p P

theorem carries_lifecycle {project : ProjectId} {body : CoreM α} (h : Carries fromSlice body P) :
    Carries fromSlice (withLifecycle project body) P :=
  gives_then (fun _ => gives_bind (gives_settle h)
    (fun _ hr => gives_then (fun _ => gives_resume hr)))

/-! ## The model turn -/

/-- What is known of an inference before it is committed. -/
structure InferenceBounds (inference : ModelInference) : Prop where
  model : len inference.model.id ≤ maxConversationModelIdBytes
  text : len inference.response.text ≤ maxConversationMessageBytes
  observed : ∀ id ∈ inference.response.observedModelId, id = inference.model.id
  finish : ∀ reason ∈ inference.response.finishReason, len reason ≤ 64
  usage : ∀ usage ∈ inference.response.usage, TokensInRange usage

/-- The same for the outcome of a model turn. -/
structure ModelBounds (outcome : ConversationModelTurnOutcome) : Prop where
  model : len outcome.model.id ≤ maxConversationModelIdBytes
  text : len outcome.assistantText ≤ maxConversationMessageBytes
  observed : ∀ id ∈ outcome.observedModelId, id = outcome.model.id
  finish : ∀ reason ∈ outcome.finishReason, len reason ≤ 64
  usage : ∀ usage ∈ outcome.usage, TokensInRange usage

theorem len_modelId {value : String} (h : validateConversationModelId value = .ok ()) :
    len value ≤ maxConversationModelIdBytes := (Gateway.Chat.graphicIdentity_of_modelId h).bounded

/-- A response that passes the checks names the selected model and has a text that can be stored. -/
theorem validated_response {model : ModelRef} {response : GatewayChatResponse}
    (h : validateConversationModelResponse model response = .ok ()) :
    len response.text ≤ maxConversationMessageBytes ∧
      ∀ id ∈ response.observedModelId, id = model.id := by
  rw [validateConversationModelResponse] at h
  obtain ⟨-, h⟩ := Result.guard_eq_ok.mp h
  obtain ⟨hobserved, h⟩ := Result.guard_eq_ok.mp h
  refine ⟨?_, fun id hid => ?_⟩
  · by_contra hlong
    have hinvalid : messageTextInvalid response.text = true := by
      simp [messageTextInvalid, Nat.lt_of_not_le hlong]
    rw [if_pos hinvalid] at h
    cases h
  · rw [Option.mem_def] at hid
    rw [hid] at hobserved
    simpa using hobserved

theorem carries_inference {requestedModelId : String} (conversation : PersistedConversation)
    (maxOutputTokens : Nat) (hid : validateConversationModelId requestedModelId = .ok ()) :
    Carries fromSlice (conversationModelInference conversation requestedModelId maxOutputTokens)
      InferenceBounds := by
  refine gives_then (fun _ => gives_then (fun _ => gives_then (fun catalog => ?_)))
  refine gives_bind (R := fun model => model.id = requestedModelId)
    (gives_resume (fun model hmodel => ?_)) (fun model hmodel => gives_then (fun context => ?_))
  · have hfilter := ModelTurn.selectExactGatewayModel_ok hmodel
    have hmem : model ∈ catalog.filter (fun candidate => candidate.id == requestedModelId) := by
      rw [hfilter]
      exact List.mem_singleton_self model
    exact beq_iff_eq.mp (List.mem_filter.mp hmem).2
  · refine gives_bind (R := fun response => HandedOn model.id response)
      (gives_attempt (fun response hresponse => ?_)) (fun response hresponse => ?_)
    · obtain ⟨raw, anonymous, hraw⟩ := hresponse
      exact interpretChatResponse_ok hraw
    · refine gives_bind (R := fun _ => validateConversationModelResponse model response = .ok ())
        (gives_resume (fun _ h => h)) (fun _ hvalid => gives_pure ?_)
      obtain ⟨htext, hobserved⟩ := validated_response hvalid
      refine ⟨?_, htext, hobserved, fun reason hreason => (hresponse.finish reason hreason).bounded,
        hresponse.usage⟩
      rw [hmodel]
      exact len_modelId hid

/-- A future that is polled under a flag returns what it would return, or is cancelled. -/
theorem returns_pollOrCancel {flag : Flag}
    {p : Proc Op (fun o => Result o.Val) (Result α)}
    (h : p.Returns (Admissible fromSlice) (OnOk P)) :
    (pollOrCancel flag p).Returns (Admissible fromSlice) (OnOk P) := by
  induction p with
  | ret r => exact h
  | call o k ih =>
    have hgo : (Proc.call o fun answer => pollOrCancel flag (k answer)).Returns
        (Admissible fromSlice) (OnOk P) := fun answer hanswer => ih answer (h answer hanswer)
    rw [pollOrCancel]
    intro timedOut _
    cases timedOut with
    | error e => exact hgo
    | ok expired =>
      cases expired with
      | false => exact hgo
      | true =>
        intro requested _
        cases requested with
        | error e => exact hgo
        | ok stopped =>
          cases stopped with
          | false => exact hgo
          | true => exact onOk_error _

theorem carries_inferenceOrCancel {inference : CoreM α} (h : Carries fromSlice inference P) :
    ∀ cancellation, Carries fromSlice (inferenceOrCancel inference cancellation) (OnOk P)
  | none => gives_settle h
  | some flag => by
    have hawait : Carries fromSlice
        (awaitConversationModelInferenceOrCancel inference flag) P :=
      gives_then (fun _ => gives_then (fun _ => returns_pollOrCancel h))
    refine gives_bind (gives_settle hawait) (fun result hresult => gives_then (fun requested => ?_))
    refine gives_pure ?_
    split
    · exact onOk_error _
    · exact hresult

/-! ## The backend task -/

/-- Every route of a task has a bounded id, the selected one too. -/
structure Routed (task : BackendTaskStateMachine) : Prop where
  routes : ∀ model ∈ task.routePolicy.routes, len model.id ≤ maxModelIdBytes
  selected : len task.selectedModel.id ≤ maxModelIdBytes

/-- What is known of the outcome of a backend task. -/
structure BackendBounds (outcome : BackendTaskOutcome) : Prop where
  model : len outcome.model.id ≤ maxModelIdBytes
  usage : ∀ usage ∈ outcome.turn.usage, TokensInRange usage

/-- How a round may end. -/
def RoundBounds : AttemptStep → Prop
  | .done outcome _ => BackendBounds outcome
  | .retry task _ _ => Routed task

/-- A resolved policy has the ids of a valid configuration. -/
theorem routed_prepare {policy : ModelRoutePolicyConfig} {catalog : List ModelRef}
    {resolved : ResolvedModelRoutePolicy} {taskId : BackendTaskId} {project : ProjectId}
    {session : SessionId} {prompt : String} {task : BackendTaskStateMachine}
    (hresolve : ResolvedModelRoutePolicy.resolve policy catalog = .ok resolved)
    (hprepare : BackendTaskStateMachine.prepare taskId project session prompt resolved = .ok task) :
    Routed task := by
  obtain ⟨-, hcatalog, hserved, -⟩ := ResolvedModelRoutePolicy.resolve_eq_ok hresolve
  have hroutes : ∀ model ∈ resolved.routes, len model.id ≤ maxModelIdBytes := by
    intro model hmodel
    have hlisted : ∀ model ∈ resolved.routes, model ∈ catalog :=
      ((List.forall₂_and_left (p := fun model => model ∈ catalog) _ _).mp
        (hserved.flip.imp fun _ _ hserves => And.intro hserves.listed hserves)).1
    exact (hcatalog.entries model (hlisted model hmodel)).id.bounded
  rw [BackendTaskStateMachine.prepare] at hprepare
  split at hprepare
  · cases hprepare
  · cases hprepare
    exact ⟨hroutes, hroutes _ (List.head_mem _)⟩

variable {task : BackendTaskStateMachine} {cells : Progress} {seen : List AgentEvent}

/-- A fallback goes to a route of the policy. -/
theorem decision_fallback {policy : ResolvedModelRoutePolicy} {state next : RouteAttemptState}
    {failure : RouteFailureClass} {model : ModelRef}
    (h : policy.decisionAfterFailure state failure = .ok (.fallback next model)) :
    model ∈ policy.routes := by
  rw [ResolvedModelRoutePolicy.decisionAfterFailure] at h
  split at h
  · cases h
  · split at h
    · cases h
    · split at h
      · cases h
      · split at h
        · cases h
        · split at h
          · cases h
          · rename_i hroute
            cases h
            exact List.mem_of_getElem? hroute

theorem Routed.decideFailure (h : Routed task) {failure : RouteFailureClass}
    {next : BackendTaskStateMachine}
    (hnext : task.decideFailure cells failure = (.ok .retryConfiguredFallback, next)) :
    Routed next := by
  rw [BackendTaskStateMachine.decideFailure] at hnext
  split at hnext
  · cases hnext
  all_goals
    split at hnext
    · cases hnext
    · dsimp only at hnext
      split at hnext
      · cases hnext
      · rename_i hdecision
        cases hnext
        exact ⟨h.routes, h.routes _ (decision_fallback hdecision)⟩
      · cases hnext

/-- After a failed round there is another one only on a route of the policy. -/
theorem Routed.retryOrStop (h : Routed task) {failure : RouteFailureClass} {error : VibeCoderError}
    {step : AttemptStep} (hstep : retryOrStop task cells seen failure error = .ok step) :
    RoundBounds step := by
  rw [VibeCoder.retryOrStop] at hstep
  split at hstep
  · cases hstep
  · rename_i hnext
    cases hstep
    exact h.decideFailure hnext
  · cases hstep

theorem Routed.corroborateCatalog (h : Routed task) (catalog : List ModelRef) :
    Routed (corroborateCatalog config task catalog).2 := by
  rcases BackendTask.corroborateCatalog_cases config task catalog with ⟨-, htask, -⟩ | ⟨-, htask⟩
  · rw [htask]
    exact ⟨h.routes, h.selected⟩
  · rw [htask]
    exact h

theorem Routed.complete (h : Routed task) {turn : TurnResult} {outcome : BackendTaskOutcome}
    (hturn : ∀ usage ∈ turn.usage, TokensInRange usage) (hdone : task.complete turn = .ok outcome) :
    BackendBounds outcome := by
  rw [BackendTaskStateMachine.complete] at hdone
  obtain ⟨-, hdone⟩ := Result.check_eq_ok.mp hdone
  obtain ⟨-, hdone⟩ := Result.guard_eq_ok.mp hdone
  split at hdone
  · cases hdone
  · cases hdone
    exact ⟨h.selected, hturn⟩

variable {project : ProjectId} {session : SessionId} {prompt : String}

theorem carries_backendInference {model : ModelRef} {observer : Nat} (h : Routed task) :
    Carries fromSlice (backendInference project session prompt model task cells observer seen)
      RoundBounds := by
  refine gives_then (fun _ => gives_then (fun _ => ?_))
  refine gives_bind (R := fun ended => ∀ turn, ended.2 = .ok turn →
      ∀ usage ∈ turn.usage, TokensInRange usage)
    (gives_attempt (fun ended hended => ?_)) (fun ended hended => gives_then (fun _ => ?_))
  · obtain ⟨events, result⟩ := ended
    rintro turn rfl
    exact hended
  · obtain ⟨events, result⟩ := ended
    cases result with
    | ok turn =>
      exact gives_bind (gives_resume (fun _ hdone => h.complete (hended turn rfl) hdone))
        (fun outcome houtcome => gives_pure houtcome)
    | error e => exact gives_resume (fun _ hstep => h.retryOrStop hstep)

theorem carries_backendActiveModel (h : Routed task) :
    Carries fromSlice (backendActiveModel project session prompt task cells seen) RoundBounds := by
  refine gives_then (fun active => ?_)
  cases active with
  | error e => exact gives_then (fun _ => gives_throw _)
  | ok active =>
    have hchecked : Routed (task.corroborateActiveModel active).2 := by
      rw [BackendTaskStateMachine.corroborateActiveModel]
      split
      · exact ⟨h.routes, h.selected⟩
      · exact h
    have hbegun : Routed ((task.corroborateActiveModel active).2.beginInference cells).2.1 := by
      rw [BackendTaskStateMachine.beginInference]
      split
      · exact hchecked
      · exact ⟨hchecked.routes, hchecked.selected⟩
    exact gives_then (fun _ => gives_then (fun _ => carries_backendInference hbegun))

/-- **Step lemma.**  A round keeps the routes bounded, or ends with a bounded outcome. -/
theorem carries_backendAttempt (h : Routed task) :
    Carries fromSlice (backendAttempt config project session prompt task cells seen) RoundBounds := by
  refine gives_then (fun catalog => gives_then (fun listed => ?_))
  have htask : Routed (corroborateCatalog config task catalog).2 := h.corroborateCatalog catalog
  cases listed with
  | true => exact carries_backendActiveModel htask
  | false => exact gives_resume (fun _ hstep => htask.retryOrStop hstep)

/-- **Run lemma**, by induction on the rounds. -/
theorem carries_backendAttempts : ∀ (rounds : Nat) {task : BackendTaskStateMachine}
    {cells : Progress} {seen : List AgentEvent}, Routed task →
      Carries fromSlice (backendAttempts config project session prompt rounds task cells seen)
        (fun result => BackendBounds result.1) := by
  intro rounds
  induction rounds with
  | zero => exact fun _ => gives_throw _
  | succ rounds ih =>
    intro task cells seen h
    refine gives_bind (carries_backendAttempt h) (fun step hstep => ?_)
    cases step with
    | done outcome seen => exact gives_pure hstep
    | retry task cells seen => exact ih hstep

theorem carries_runBackendTask (policy : ModelRoutePolicyConfig) :
    Carries fromSlice (runBackendTask config project session policy prompt)
      (fun result => BackendBounds result.1) := by
  refine carries_lifecycle (gives_bind (R := Routed) ?_ (fun task h => carries_backendAttempts _ h))
  refine gives_then (fun _ => gives_then (fun catalog => ?_))
  refine gives_bind (R := fun resolved =>
      ResolvedModelRoutePolicy.resolve policy catalog = .ok resolved)
    (gives_resume (fun _ h => h)) (fun resolved hresolve => gives_then (fun taskId => ?_))
  exact gives_resume (fun task hprepare => routed_prepare hresolve hprepare)

/-! ## The action turn -/

/-- What is known of the outcome of an action turn. -/
structure ActionBounds (outcome : PersistedAgentActionTurnOutcome) : Prop where
  backend : BackendBounds outcome.backend
  text : len outcome.backend.turn.text ≤ maxConversationMessageBytes
  fileTools : outcome.successfulFileToolCalls ≤ maxAgentActionToolCalls
  mutations : outcome.successfulMutationToolCalls ≤ maxAgentActionToolCalls

/-- What a transcript that passes validation says about the turn. -/
theorem validated_turn {turn : TurnResult} {events : List AgentEvent} {counts : ToolCounts}
    (h : validateAgentActionTurn turn (.ofEvents events) = .ok counts) :
    len turn.text ≤ maxConversationMessageBytes ∧ counts.fileTools ≤ maxAgentActionToolCalls ∧
      counts.mutations ≤ maxAgentActionToolCalls := by
  have hfile : validateAgentFileToolTurn turn (.ofEvents events) = .ok counts := by
    rw [validateAgentActionTurn] at h
    split at h
    · cases h
    · rename_i hfile
      split at h
      · cases h
      · cases h
        exact hfile
  obtain ⟨calls, haccepted, rfl⟩ := acceptedTurn_of_ok hfile
  have hfew := haccepted.observed.bounded
  exact ⟨haccepted.reply.2.1, Nat.le_trans List.countP_le_length hfew,
    Nat.le_trans List.countP_le_length hfew⟩

theorem carries_failAgentAction (opened : OpenedAction) (verification : Option CheckpointId)
    (error : VibeCoderError) :
    Carries fromSlice (failAgentAction (α := α) config project opened verification error) P :=
  gives_then (fun _ => gives_throw _)

/-! ## Commits -/

/-- The record of an update that the store took. -/
def stored : ((o : Op) × Result o.Val) → Option PersistedConversation
  | ⟨.updateConversation _ c, .ok _⟩ => some c
  | _ => none

/-- The answer a settled record ends with. -/
def answered (c : PersistedConversation) : Option String :=
  if c.turnPending then none
  else c.messages.getLast?.bind fun message =>
    if message.role = .assistant then some message.text else none

/-- The answer that the last update of a turn stored. -/
def committedText (log : Log) : Option String := (log.filterMap stored).getLast?.bind answered

theorem committedText_update {expected : Nat} {c committed : PersistedConversation} (log : Log) :
    committedText (log ++ [⟨.updateConversation expected c, .ok committed⟩]) = answered c := by
  rw [committedText, List.filterMap_append]
  show ((List.filterMap stored log ++ [c]).getLast?).bind answered = _
  rw [List.getLast?_concat, Option.bind_some]

/-- What writes no conversation leaves the last update. -/
theorem committedText_silent {o : Op} (h : Silent o) (answer : Result o.Val) (log : Log) :
    committedText (log ++ [⟨o, answer⟩]) = committedText log := by
  have hnone : stored ⟨o, answer⟩ = none := by
    cases o with
    | updateConversation expected c => cases h
    | _ => rfl
  rw [committedText, List.filterMap_append, List.filterMap_cons, hnone, List.filterMap_nil,
    List.append_nil]
  rfl

/-- A record that was answered and settled ends with the answer. -/
theorem answered_append {conversation completed : PersistedConversation} {text : String}
    (h : (conversation.withPending false).appendMessage .assistant text = .ok completed) :
    answered completed = some text := by
  obtain ⟨-, -, -, rfl⟩ := PersistedConversation.appendMessage_ok h
  rw [answered]
  simp [PersistedConversation.withPending]

/-- The turn's text is the committed one. -/
def Commits (text : String) (log : Log) : Prop := committedText log = some text

/-- One turn against answers of the kind. -/
abbrev Facing (fromSlice : List UInt8 → Option OpenAiChatEnvelope) :
    Setting Op (fun o => Result o.Val) Unit ((o : Op) → Result o.Val) Log :=
  RecordedAs (Admissible fromSlice)

variable {Q : α → Log → Prop} {log : Log}

/-- Silent operations keep what is committed. -/
theorem wp_silent_then {β : Type} {text : String} {p : CoreM β} {f : β → CoreM α}
    (hp : Only Silent p) (h : Commits text log)
    (hf : ∀ b t, Commits text t → Wp (Facing fromSlice) () (f b) Q (fun _ _ => True) t) :
    Wp (Facing fromSlice) () (p >>= f) Q (fun _ _ => True) log := by
  refine wp_seq (R := fun _ => Commits text) (F := fun _ => Commits text) trivial ?_
    (fun b t _ ht => hf b t ht) (fun _ _ _ _ => trivial)
  refine wp_only (fun o ho t ht => ⟨trivial, fun w _ r hr _ => ?_⟩) hp h
  have hr' : t ++ [⟨o, w o⟩] = r := hr
  rw [← hr', Commits, committedText_silent ho]
  exact ht

/-- The update that commits an answer. -/
theorem wp_commitAnswer {expected : Nat} {conversation completed : PersistedConversation}
    {text : String} {f : PersistedConversation → CoreM α}
    (h : (conversation.withPending false).appendMessage .assistant text = .ok completed)
    (hf : ∀ c t, Commits text t → Wp (Facing fromSlice) () (f c) Q (fun _ _ => True) t) :
    Wp (Facing fromSlice) () (act (.updateConversation expected completed) >>= f) Q
      (fun _ _ => True) log := by
  refine wp_bind (wp_recordUnder (fun w _ => ?_))
  cases w (.updateConversation expected completed) with
  | error e => trivial
  | ok committed =>
    refine hf committed _ ?_
    rw [Commits, committedText_update]
    exact answered_append h

/-- A body under the gate: the release writes no conversation. -/
theorem wp_lifecycle {text : α → String} {body : CoreM α}
    (h : ∀ t, Wp (Facing fromSlice) () body (fun a t => P a ∧ Commits (text a) t)
      (fun _ _ => True) t) :
    Wp (Facing fromSlice) () (withLifecycle project body)
      (fun a t => P a ∧ Commits (text a) t) (fun _ _ => True) log := by
  refine wp_after (fun _ t => ?_)
  refine wp_bind (wp_settle (Wp.mono trivial (h t) (fun a r _ hr => ?_) (fun e r _ _ => ?_)))
  · exact wp_silent_then (only_attempt rfl) hr.2 (fun _ u hu => wp_resume ⟨hr.1, hu⟩)
  · exact wp_after (fun _ _ => wp_resume trivial)

/-! ## The two turns -/

/-- **The model turn.**  An outcome is within the bounds, and its text is the committed one. -/
theorem wp_modelTurn (id : ConversationId) (requestedModelId : String) (maxOutputTokens : Nat)
    (cancellation : Option Flag) :
    Wp (Facing fromSlice) ()
      (runPersistedModelConversationTurnInner config project id requestedModelId maxOutputTokens
        prompt cancellation)
      (fun outcome t => ModelBounds outcome ∧ Commits outcome.assistantText t)
      (fun _ _ => True) log := by
  refine wp_seq_gives (R := fun _ => validateConversationModelId requestedModelId = .ok ())
    (gives_resume (fun _ h => h)) (fun _ t hid => wp_after (fun _ t => wp_after (fun _ t => ?_)))
  refine wp_lifecycle (fun t => wp_after (fun conversation t => ?_))
  refine wp_seq_gives (carries_inferenceOrCancel
    (carries_inference conversation maxOutputTokens hid) cancellation) (fun result t hresult => ?_)
  cases result with
  | error e => exact wp_never (gives_then (fun _ => gives_throw _))
  | ok inference =>
    have hbounds := hresult inference rfl
    refine wp_seq_gives (R := fun answered =>
        (conversation.withPending false).appendMessage .assistant inference.response.text =
          .ok answered)
      (gives_resume (fun _ h => h)) (fun answered t hanswered => ?_)
    refine wp_commitAnswer hanswered (fun _ r hr => wp_pure ⟨?_, hr⟩)
    exact ⟨hbounds.model, hbounds.text, hbounds.observed, hbounds.finish, hbounds.usage⟩

/-- The commit of an action turn: nothing after the update writes a conversation. -/
theorem wp_commitAgentAction {opened : OpenedAction} {outcome : BackendTaskOutcome}
    {counts : ToolCounts} {post : CheckpointMetadata} (hbackend : BackendBounds outcome)
    (hturn : len outcome.turn.text ≤ maxConversationMessageBytes ∧
      counts.fileTools ≤ maxAgentActionToolCalls ∧ counts.mutations ≤ maxAgentActionToolCalls) :
    Wp (Facing fromSlice) () (commitAgentAction config project opened outcome counts post)
      (fun outcome t => ActionBounds outcome ∧ Commits outcome.backend.turn.text t)
      (fun _ _ => True) log := by
  rw [commitAgentAction]
  split
  · exact wp_never (carries_failAgentAction _ _ _)
  · rename_i completed hcompleted
    refine wp_bind (wp_settle (wp_recordUnder (fun w _ => ?_)))
    cases w (.updateConversation opened.conversation.revision completed) with
    | error e => exact wp_never (carries_failAgentAction _ _ _)
    | ok committed =>
      have hcommits : Commits outcome.turn.text (log ++
          [⟨.updateConversation opened.conversation.revision completed, .ok committed⟩]) := by
        rw [Commits, committedText_update]
        exact answered_append hcompleted
      refine wp_silent_then (silent_tryRemoveProjectCheckpoint _ _) hcommits (fun _ t ht => ?_)
      refine wp_silent_then (silent_tryRemoveProjectCheckpoint _ _) ht (fun _ r hr => ?_)
      exact wp_pure ⟨⟨hbackend, hturn.1, hturn.2.1, hturn.2.2⟩, hr⟩

theorem wp_closeAgentActionTurn {opened : OpenedAction}
    {action : Result (BackendTaskOutcome × List AgentEvent)}
    (haction : OnOk (fun result => BackendBounds result.1) action) :
    Wp (Facing fromSlice) () (closeAgentActionTurn config project opened action)
      (fun outcome t => ActionBounds outcome ∧ Commits outcome.backend.turn.text t)
      (fun _ _ => True) log := by
  rcases action with error | ⟨outcome, events⟩
  · exact wp_never (carries_failAgentAction _ _ _)
  · rw [closeAgentActionTurn]
    split
    · exact wp_never (carries_failAgentAction _ _ _)
    · rename_i counts hcounts
      refine wp_after (fun verified t => ?_)
      cases verified with
      | error e => exact wp_never (carries_failAgentAction _ _ _)
      | ok post =>
        dsimp only
        split
        · exact wp_never (carries_failAgentAction _ _ _)
        · exact wp_commitAgentAction (haction _ rfl) (validated_turn hcounts)

/-- **The action turn.** -/
theorem wp_actionTurn (id : ConversationId) (policy : ModelRoutePolicyConfig) :
    Wp (Facing fromSlice) () (runPersistedAgentActionTurn config project id policy prompt)
      (fun outcome t => ActionBounds outcome ∧ Commits outcome.backend.turn.text t)
      (fun _ _ => True) log := by
  refine wp_after (fun _ t => wp_after (fun _ t => wp_after (fun _ t => wp_after
    (fun opened t => ?_))))
  exact wp_seq_gives (gives_settle (carries_runBackendTask policy))
    (fun action t haction => wp_closeAgentActionTurn haction)

end VibeCoder.TurnResults
