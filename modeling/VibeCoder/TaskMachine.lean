/-
  The backend task state machine (`vibecoder-task-orchestration`): one task, its current
  attempt, and the decision after each failure.

  Methods that take `&mut self` return the answer together with the machine after the call; a
  rejected call returns the machine as the source leaves it, which is unchanged except after
  `decideFailure` has taken the attempt.  `complete` takes `self` and so returns only its answer.

  Observers.  A `BackendTaskEventObserver` is an `Arc<Mutex<AttemptProgress>>` that outlives the
  machine's own copy.  The shared cells are a list (`Progress`), an observer is an index into it,
  and `beginInference` allocates the next cell.
-/
import VibeCoder.Routing

namespace VibeCoder

def maxPromptBytes : Nat := 1024 * 1024

/-- `BackendTaskId(Uuid)`. -/
structure BackendTaskId where
  uuid : BitVec 128
  deriving DecidableEq, Repr

/-- `BackendTaskPhase`. -/
inductive BackendTaskPhase where
  | prepared
  | agentCatalogCorroborated
  | activeModelCorroborated
  | running
  | stopped
  deriving DecidableEq, Repr

/-! ## Observed progress -/

/-- `AttemptProgress`. -/
structure AttemptProgress where
  responseStarted : Bool
  toolActivityStarted : Bool
  deriving DecidableEq, Repr

/-- `AttemptProgress::default()`. -/
def AttemptProgress.idle : AttemptProgress :=
  { responseStarted := false, toolActivityStarted := false }

/-- The cells behind every observer handed out so far. -/
abbrev Progress := List AttemptProgress

/-- The effect of one event on a cell (`BackendTaskEventObserver::observe`). -/
def AttemptProgress.observe (progress : AttemptProgress) : AgentEvent → AttemptProgress
  | .textDelta _ | .backgroundProgress _ _ _ _ => { progress with responseStarted := true }
  | .toolStarted _ _ | .toolFinished _ _ _ _ _ => { progress with toolActivityStarted := true }
  | .messageAccepted | .sessionStatus _ | .tokenUsage _ | .permissionRequired _
  | .turnCompleted | .warning _ => progress

/-- Either flag is up. -/
def AttemptProgress.started (progress : AttemptProgress) : Bool :=
  progress.responseStarted || progress.toolActivityStarted

/-- Text, background or tool activity: the events that forbid a later fallback. -/
def isProgress : AgentEvent → Bool
  | .textDelta _ | .backgroundProgress _ _ _ _ | .toolStarted _ _
  | .toolFinished _ _ _ _ _ => true
  | .messageAccepted | .sessionStatus _ | .tokenUsage _ | .permissionRequired _
  | .turnCompleted | .warning _ => false

/-- A cell is started after an event exactly when it was, or the event is progress. -/
theorem AttemptProgress.started_observe (progress : AttemptProgress) (event : AgentEvent) :
    (progress.observe event).started = (progress.started || isProgress event) := by
  cases event <;> simp [AttemptProgress.observe, AttemptProgress.started, isProgress]

/-- Observing a whole stream of events starts the cell exactly when one of them is progress. -/
theorem AttemptProgress.started_foldl (events : List AgentEvent) (progress : AttemptProgress) :
    (events.foldl AttemptProgress.observe progress).started =
      (progress.started || events.any isProgress) := by
  induction events generalizing progress with
  | nil => rw [List.foldl_nil, List.any_nil, Bool.or_false]
  | cons event rest ih =>
    rw [List.foldl_cons, ih, AttemptProgress.started_observe, List.any_cons, Bool.or_assoc]

/-! ## The machine -/

/-- `BackendTaskFailureDecision`. -/
inductive BackendTaskFailureDecision where
  | retryConfiguredFallback
  | stop (reason : RouteStopReason)
  deriving DecidableEq, Repr

/-- `BackendTaskStateMachine`; `observer` is the index of the attempt's cell. -/
structure BackendTaskStateMachine where
  taskId : BackendTaskId
  projectId : ProjectId
  sessionId : SessionId
  routePolicy : ResolvedModelRoutePolicy
  attempt : Option RouteAttemptState
  selectedModel : ModelRef
  phase : BackendTaskPhase
  observer : Option Nat

/-- `BackendTaskOutcome`. -/
structure BackendTaskOutcome where
  taskId : BackendTaskId
  projectId : ProjectId
  sessionId : SessionId
  model : ModelRef
  attemptIndex : Nat
  turn : TurnResult
  deriving DecidableEq, Repr

/-- `require_provider`. -/
def requireProvider (model : ModelRef) (code : String) : Result String :=
  match model.provider with
  | some provider => if provider.isEmpty then .error (routingError code) else .ok provider
  | none => .error (routingError code)

/-- `require_exact_identity`. -/
def requireExactIdentity (expected actual : ModelRef) (code : String) : Result Unit := do
  let expectedProvider ← requireProvider expected "gateway_model_provider_missing"
  let actualProvider ← requireProvider actual "agent_model_provider_missing"
  if expected.id ≠ actual.id ∨ expectedProvider ≠ actualProvider then
    throw (routingError code)

theorem requireProvider_ok {model : ModelRef} {code provider : String}
    (h : requireProvider model code = .ok provider) :
    model.provider = some provider ∧ provider.isEmpty = false := by
  rw [requireProvider] at h
  cases hp : model.provider with
  | none => rw [hp] at h; cases h
  | some found =>
    rw [hp] at h
    dsimp only at h
    cases he : found.isEmpty with
    | true => rw [he] at h; cases h
    | false =>
      rw [he] at h
      cases h
      exact ⟨rfl, he⟩

/-- An accepted identity agrees in id and in provider, and the provider is a real one. -/
theorem requireExactIdentity_ok {expected actual : ModelRef} {code : String}
    (h : requireExactIdentity expected actual code = .ok ()) :
    expected.id = actual.id ∧ expected.provider = actual.provider ∧
      actual.provider.isSome := by
  rw [requireExactIdentity] at h
  cases he : requireProvider expected "gateway_model_provider_missing" with
  | error e => rw [he] at h; cases h
  | ok expectedProvider =>
    cases ha : requireProvider actual "agent_model_provider_missing" with
    | error e => rw [he, ha] at h; cases h
    | ok actualProvider =>
      rw [he, ha] at h
      by_cases hne : expected.id ≠ actual.id ∨ expectedProvider ≠ actualProvider
      · simp only [bind, Except.bind, if_pos hne] at h
        cases h
      · push Not at hne
        have hpe := (requireProvider_ok he).1
        have hpa := (requireProvider_ok ha).1
        exact ⟨hne.1, by rw [hpe, hpa, hne.2], by rw [hpa]; rfl⟩

/-- The loop over an agent catalog: duplicate ids are an error, the last entry with the wanted id
    is the exact one. -/
def scanCatalog (wanted : String) (seen : List String) (exact : Option ModelRef) :
    List ModelRef → Result (Option ModelRef)
  | [] => .ok exact
  | candidate :: rest =>
    if candidate.id ∈ seen then .error (routingError "ambiguous_agent_catalog_model_id")
    else
      scanCatalog wanted (candidate.id :: seen)
        (if candidate.id = wanted then some candidate else exact) rest

/-- A scan that succeeds saw no id twice, and what it found is the entry it started with or one
    of the catalog with the wanted id. -/
theorem scanCatalog_ok {wanted : String} {catalog : List ModelRef} :
    ∀ {seen : List String} {start found : Option ModelRef},
      scanCatalog wanted seen start catalog = .ok found →
        (catalog.map ModelRef.id).Nodup ∧ (∀ id ∈ catalog.map ModelRef.id, id ∉ seen) ∧
        ∀ candidate, found = some candidate → start ≠ some candidate →
          candidate ∈ catalog ∧ candidate.id = wanted := by
  induction catalog with
  | nil =>
    intro seen start found h
    cases h
    exact ⟨List.nodup_nil, fun _ hid => absurd hid List.not_mem_nil,
      fun candidate hf hs => absurd hf hs⟩
  | cons head rest ih =>
    intro seen start found h
    rw [scanCatalog] at h
    by_cases hseen : head.id ∈ seen
    · rw [if_pos hseen] at h; cases h
    · rw [if_neg hseen] at h
      obtain ⟨hnodup, hnew, hfound⟩ := ih h
      refine ⟨?_, ?_, ?_⟩
      · rw [List.map_cons, List.nodup_cons]
        exact ⟨fun hin => hnew _ hin List.mem_cons_self, hnodup⟩
      · intro id hid
        rw [List.map_cons, List.mem_cons] at hid
        rcases hid with rfl | hid
        · exact hseen
        · exact fun hs => hnew id hid (List.mem_cons_of_mem _ hs)
      · intro candidate hf hs
        by_cases hwant : head.id = wanted
        · rw [if_pos hwant] at hfound
          by_cases hc : candidate = head
          · subst hc; exact ⟨List.mem_cons_self, hwant⟩
          · obtain ⟨hmem, hid⟩ := hfound candidate hf (fun heq => hc (Option.some.inj heq).symm)
            exact ⟨List.mem_cons_of_mem _ hmem, hid⟩
        · rw [if_neg hwant] at hfound
          obtain ⟨hmem, hid⟩ := hfound candidate hf hs
          exact ⟨List.mem_cons_of_mem _ hmem, hid⟩

namespace BackendTaskStateMachine

/-- `prepare`; `taskId` is the fresh `Uuid::new_v4()`. -/
def prepare (taskId : BackendTaskId) (projectId : ProjectId) (sessionId : SessionId)
    (prompt : String) (routePolicy : ResolvedModelRoutePolicy) :
    Result BackendTaskStateMachine :=
  if blank prompt || decide (len prompt > maxPromptBytes) then
    .error (routingError "invalid_backend_task_prompt")
  else
    .ok {
      taskId := taskId
      projectId := projectId
      sessionId := sessionId
      routePolicy := routePolicy
      attempt := some routePolicy.startAttempt
      selectedModel := routePolicy.primary
      phase := .prepared
      observer := none }

/-- `require_phase`. -/
def requirePhase (m : BackendTaskStateMachine) (expected : BackendTaskPhase) : Result Unit :=
  if m.phase ≠ expected then .error (routingError "backend_task_phase_violation") else .ok ()

/-- What `corroborate_agent_catalog` decides before it moves the phase. -/
def agentCatalogCheck (m : BackendTaskStateMachine) (catalog : List ModelRef) : Result Bool := do
  m.requirePhase .prepared
  let _ ← requireProvider m.selectedModel "gateway_model_provider_missing"
  match ← scanCatalog m.selectedModel.id [] none catalog with
  | none => pure false
  | some candidate =>
    requireExactIdentity m.selectedModel candidate "agent_catalog_identity_mismatch"
    pure true

/-- What `corroborate_bridged_agent_catalog` decides before it moves the phase: the exact model
    id, under the bridge's transport provider instead of the route's. -/
def bridgedAgentCatalogCheck (m : BackendTaskStateMachine) (catalog : List ModelRef)
    (transportProvider : String) : Result Bool := do
  m.requirePhase .prepared
  let _ ← requireProvider m.selectedModel "gateway_model_provider_missing"
  if transportProvider.isEmpty || !trimmed transportProvider || hasControl transportProvider then
    throw (routingError "agent_bridge_transport_provider_invalid")
  match ← scanCatalog m.selectedModel.id [] none catalog with
  | none => pure false
  | some candidate =>
    if candidate.provider ≠ some transportProvider then
      throw (routingError "agent_bridge_transport_provider_mismatch")
    pure true

/-- The phase moves only on `Ok(true)`. -/
def afterCatalogCheck (m : BackendTaskStateMachine) (answer : Result Bool) :
    Result Bool × BackendTaskStateMachine :=
  match answer with
  | .ok true => (.ok true, { m with phase := .agentCatalogCorroborated })
  | other => (other, m)

/-- `corroborate_agent_catalog`. -/
def corroborateAgentCatalog (m : BackendTaskStateMachine) (catalog : List ModelRef) :
    Result Bool × BackendTaskStateMachine :=
  m.afterCatalogCheck (m.agentCatalogCheck catalog)

/-- `corroborate_bridged_agent_catalog`. -/
def corroborateBridgedAgentCatalog (m : BackendTaskStateMachine) (catalog : List ModelRef)
    (transportProvider : String) : Result Bool × BackendTaskStateMachine :=
  m.afterCatalogCheck (m.bridgedAgentCatalogCheck catalog transportProvider)

/-- What `corroborate_active_model` decides before it moves the phase. -/
def activeModelCheck (m : BackendTaskStateMachine) (active : ModelRef) : Result Unit := do
  m.requirePhase .agentCatalogCorroborated
  requireExactIdentity m.selectedModel active "agent_active_identity_mismatch"

/-- `corroborate_active_model`. -/
def corroborateActiveModel (m : BackendTaskStateMachine) (active : ModelRef) :
    Result Unit × BackendTaskStateMachine :=
  match m.activeModelCheck active with
  | .ok () => (.ok (), { m with phase := .activeModelCorroborated })
  | .error e => (.error e, m)

/-- `begin_inference`: a fresh idle cell, owned by the machine and by the caller. -/
def beginInference (m : BackendTaskStateMachine) (cells : Progress) :
    Result Nat × BackendTaskStateMachine × Progress :=
  match m.requirePhase .activeModelCorroborated with
  | .error e => (.error e, m, cells)
  | .ok () =>
    (.ok cells.length, { m with observer := some cells.length, phase := .running },
      cells ++ [AttemptProgress.idle])

/-- The attempt with the progress its observer has seen (`observer.take()` and `snapshot`). -/
def withObserved (attempt : RouteAttemptState) (cells : Progress) (observer : Option Nat) :
    RouteAttemptState :=
  match observer.bind (fun cell => cells[cell]?) with
  | none => attempt
  | some progress =>
    let attempt := if progress.responseStarted then attempt.markResponseStarted else attempt
    if progress.toolActivityStarted then attempt.markToolActivityStarted else attempt

/-- `decide_failure`.  The attempt and the observer are taken before the policy decides. -/
def decideFailure (m : BackendTaskStateMachine) (cells : Progress)
    (failure : RouteFailureClass) :
    Result BackendTaskFailureDecision × BackendTaskStateMachine :=
  match m.phase with
  | .stopped => (.error (routingError "backend_task_failure_in_invalid_phase"), m)
  | .prepared | .agentCatalogCorroborated | .activeModelCorroborated | .running =>
    match m.attempt with
    | none => (.error (routingError "backend_task_attempt_already_consumed"), m)
    | some attempt =>
      let taken := { m with attempt := none, observer := none }
      match m.routePolicy.decisionAfterFailure (withObserved attempt cells m.observer)
          failure with
      | .error e => (.error e, taken)
      | .ok (.fallback nextAttempt model) =>
        (.ok .retryConfiguredFallback,
          { taken with
            attempt := some nextAttempt
            selectedModel := model
            phase := .prepared })
      | .ok (.stop reason) => (.ok (.stop reason), { taken with phase := .stopped })

/-- `complete`. -/
def complete (m : BackendTaskStateMachine) (turn : TurnResult) : Result BackendTaskOutcome := do
  m.requirePhase .running
  if turn.cancelled then throw .cancelled
  match m.attempt with
  | none => throw (routingError "backend_task_attempt_already_consumed")
  | some attempt =>
    pure {
      taskId := m.taskId
      projectId := m.projectId
      sessionId := m.sessionId
      model := m.selectedModel
      attemptIndex := attempt.routeIndex
      turn := turn }

end BackendTaskStateMachine

/-- `classify_agent_failure`: no class it returns is safe for fallback. -/
def classifyAgentFailure : VibeCoderError → RouteFailureClass
  | .cancelled => .cancelled
  | .agent _ => .unknown
  | .invalidRequest _ => .invalidRequest
  | _ => .protocolError

theorem safeFallbackTrigger_classify (e : VibeCoderError) :
    safeFallbackTrigger (classifyAgentFailure e) = none := by
  cases e <;> rfl

namespace BackendTaskStateMachine

/-! ## What each method can do -/

theorem requirePhase_ok {m : BackendTaskStateMachine} {expected : BackendTaskPhase}
    (h : m.requirePhase expected = .ok ()) : m.phase = expected := by
  rw [requirePhase] at h
  by_cases hp : m.phase = expected
  · exact hp
  · rw [if_pos hp] at h; cases h

theorem requirePhase_eq {m : BackendTaskStateMachine} {expected : BackendTaskPhase}
    (h : m.phase = expected) : m.requirePhase expected = .ok () := by
  rw [requirePhase, if_neg (not_not.mpr h)]

/-- The catalog lists the model's exact id under `provider`, and no id twice. -/
def Lists (catalog : List ModelRef) (id : String) (provider : Option String) : Prop :=
  (catalog.map ModelRef.id).Nodup ∧
    ∃ candidate ∈ catalog, candidate.id = id ∧ candidate.provider = provider

theorem agentCatalogCheck_true {m : BackendTaskStateMachine} {catalog : List ModelRef}
    (h : m.agentCatalogCheck catalog = .ok true) :
    m.phase = .prepared ∧ Lists catalog m.selectedModel.id m.selectedModel.provider := by
  rw [agentCatalogCheck] at h
  cases hph : m.requirePhase .prepared with
  | error e => rw [hph] at h; cases h
  | ok u =>
    cases hpr : requireProvider m.selectedModel "gateway_model_provider_missing" with
    | error e => rw [hph, hpr] at h; cases h
    | ok provider =>
      cases hsc : scanCatalog m.selectedModel.id [] none catalog with
      | error e => rw [hph, hpr, hsc] at h; cases h
      | ok found =>
        rw [hph, hpr, hsc] at h
        cases found with
        | none => cases h
        | some candidate =>
          simp only [bind, Except.bind] at h
          cases hid : requireExactIdentity m.selectedModel candidate
              "agent_catalog_identity_mismatch" with
          | error e => rw [hid] at h; cases h
          | ok u =>
            obtain ⟨hnodup, -, hmem⟩ := scanCatalog_ok hsc
            obtain ⟨hin, hcid⟩ := hmem candidate rfl (by simp)
            exact ⟨requirePhase_ok hph, hnodup, candidate, hin, hcid,
              (requireExactIdentity_ok hid).2.1.symm⟩

theorem bridgedAgentCatalogCheck_true {m : BackendTaskStateMachine} {catalog : List ModelRef}
    {transportProvider : String}
    (h : m.bridgedAgentCatalogCheck catalog transportProvider = .ok true) :
    m.phase = .prepared ∧ Lists catalog m.selectedModel.id (some transportProvider) := by
  rw [bridgedAgentCatalogCheck] at h
  cases hph : m.requirePhase .prepared with
  | error e => rw [hph] at h; cases h
  | ok u =>
    cases hpr : requireProvider m.selectedModel "gateway_model_provider_missing" with
    | error e => rw [hph, hpr] at h; cases h
    | ok provider =>
      rw [hph, hpr] at h
      simp only [bind, Except.bind] at h
      split at h
      · cases h
      · cases hsc : scanCatalog m.selectedModel.id [] none catalog with
        | error e => rw [hsc] at h; cases h
        | ok found =>
          rw [hsc] at h
          cases found with
          | none => cases h
          | some candidate =>
            dsimp only at h
            by_cases hcp : candidate.provider = some transportProvider
            · obtain ⟨hnodup, -, hmem⟩ := scanCatalog_ok hsc
              obtain ⟨hin, hcid⟩ := hmem candidate rfl (by simp)
              exact ⟨requirePhase_ok hph, hnodup, candidate, hin, hcid, hcp⟩
            · rw [if_pos hcp] at h
              cases h

theorem activeModelCheck_ok {m : BackendTaskStateMachine} {active : ModelRef}
    (h : m.activeModelCheck active = .ok ()) :
    m.phase = .agentCatalogCorroborated ∧ m.selectedModel.id = active.id ∧
      m.selectedModel.provider = active.provider := by
  rw [activeModelCheck] at h
  cases hph : m.requirePhase .agentCatalogCorroborated with
  | error e => rw [hph] at h; cases h
  | ok u =>
    rw [hph] at h
    obtain ⟨hid, hprov, -⟩ := requireExactIdentity_ok h
    exact ⟨requirePhase_ok hph, hid, hprov⟩

/-- The observer's progress is on the attempt that the policy decides about. -/
theorem withObserved_started {attempt : RouteAttemptState} {cells : Progress} {cell : Nat}
    {progress : AttemptProgress} (hcell : cells[cell]? = some progress)
    (hstarted : progress.started = true) :
    (withObserved attempt cells (some cell)).observableProgressStarted = true := by
  have hor : progress.responseStarted = true ∨ progress.toolActivityStarted = true := by
    rw [AttemptProgress.started, Bool.or_eq_true] at hstarted
    exact hstarted
  rw [withObserved, Option.bind_some, hcell]
  rcases hor with hr | ht
  · cases ht : progress.toolActivityStarted <;>
      simp [hr, ht, RouteAttemptState.observableProgressStarted,
        RouteAttemptState.markResponseStarted, RouteAttemptState.markToolActivityStarted]
  · simp [ht, RouteAttemptState.observableProgressStarted,
      RouteAttemptState.markToolActivityStarted]

theorem withObserved_routeIndex (attempt : RouteAttemptState) (cells : Progress)
    (observer : Option Nat) :
    (withObserved attempt cells observer).routeIndex = attempt.routeIndex := by
  rw [withObserved]
  cases observer.bind (fun cell => cells[cell]?) with
  | none => rfl
  | some progress =>
    cases hr : progress.responseStarted <;> cases ht : progress.toolActivityStarted <;>
      simp [hr, ht, RouteAttemptState.markResponseStarted,
        RouteAttemptState.markToolActivityStarted]

/-- Everything `decideFailure` can do on an attempt that names a real route: refuse a stopped
    machine and change nothing, stop for good, or move to exactly the next route. -/
theorem decideFailure_cases (m : BackendTaskStateMachine) (cells : Progress)
    (failure : RouteFailureClass) {attempt : RouteAttemptState}
    (hatt : m.attempt = some attempt) (hidx : attempt.routeIndex < m.routePolicy.routes.length)
    (hph : m.phase ≠ .stopped) :
    (∃ reason, m.decideFailure cells failure =
      (.ok (.stop reason),
        { m with attempt := none, observer := none, phase := .stopped })) ∨
    (∃ model, m.decideFailure cells failure =
      (.ok .retryConfiguredFallback,
        { m with
          attempt := some (.pristine (attempt.routeIndex + 1)), observer := none,
          selectedModel := model, phase := .prepared }) ∧
      m.routePolicy.routes[attempt.routeIndex + 1]? = some model ∧
      (withObserved attempt cells m.observer).observableProgressStarted = false ∧
      (safeFallbackTrigger failure).isSome) := by
  have hidx' : (withObserved attempt cells m.observer).routeIndex <
      m.routePolicy.routes.length := by
    rw [withObserved_routeIndex]; exact hidx
  have hunfold : m.decideFailure cells failure =
      match m.routePolicy.decisionAfterFailure (withObserved attempt cells m.observer)
        failure with
      | .error e => (.error e, { m with attempt := none, observer := none })
      | .ok (.fallback nextAttempt model) =>
        (.ok .retryConfiguredFallback,
          { m with
            attempt := some nextAttempt, observer := none,
            selectedModel := model, phase := .prepared })
      | .ok (.stop reason) =>
        (.ok (.stop reason),
          { m with attempt := none, observer := none, phase := .stopped }) := by
    rw [decideFailure]
    cases hp : m.phase with
    | stopped => exact absurd hp hph
    | prepared | agentCatalogCorroborated | activeModelCorroborated | running => rw [hatt]
  rw [hunfold]
  rcases m.routePolicy.decisionAfterFailure_cases _ failure hidx' with
    ⟨reason, hdec⟩ | ⟨model, hdec, hnext, hquiet, hsafe⟩
  · exact Or.inl ⟨reason, by rw [hdec]⟩
  · rw [withObserved_routeIndex] at hdec hnext
    exact Or.inr ⟨model, by rw [hdec], hnext, hquiet, hsafe⟩

theorem decideFailure_stopped {m : BackendTaskStateMachine} (cells : Progress)
    (failure : RouteFailureClass) (hph : m.phase = .stopped) :
    m.decideFailure cells failure =
      (.error (routingError "backend_task_failure_in_invalid_phase"), m) := by
  rw [decideFailure, hph]

theorem complete_ok {m : BackendTaskStateMachine} {turn : TurnResult}
    {outcome : BackendTaskOutcome} (h : m.complete turn = .ok outcome) :
    m.phase = .running ∧ turn.cancelled = false ∧ outcome.turn = turn ∧
    ∃ attempt, m.attempt = some attempt ∧ outcome.attemptIndex = attempt.routeIndex ∧
      outcome.model = m.selectedModel := by
  rw [complete] at h
  cases hph : m.requirePhase .running with
  | error e => rw [hph] at h; cases h
  | ok u =>
    rw [hph] at h
    cases hc : turn.cancelled with
    | true => rw [hc] at h; cases h
    | false =>
      rw [hc] at h
      cases hatt : m.attempt with
      | none => rw [hatt] at h; cases h
      | some attempt =>
        rw [hatt] at h
        cases h
        exact ⟨requirePhase_ok hph, rfl, rfl, attempt, rfl, rfl, rfl⟩

end BackendTaskStateMachine

end VibeCoder
