/-
  The backend task, against every behaviour of its surroundings.

  `run_backend_task` is run on the trace of its own operations, each answered by anything at all:
  any gateway, any agent catalog, any reported model, any events and errors of the turn.

  * `Corroborated` — the current attempt has listed the model and found it active;
  * `Sound`        — every inference turn in a trace was corroborated when it was begun;
  * `backend_task_law` — at most one turn, every turn corroborated, at most as many attempts as
    the policy has routes;
  * `runBackendTaskWithin_eq` — the bound on the rounds of the loop is never what stops it.
-/
import VibeCoder.Core.Programs
import VibeCoder.Lib.Trace

namespace VibeCoder.BackendTask

open Resume BackendTaskStateMachine

/-- What one call performed, and what it was answered. -/
abbrev Log := Trace Op (fun o => Result o.Val)

/-- One call against arbitrary answers. -/
abbrev Any : Setting Op (fun o => Result o.Val) Unit ((o : Op) → Result o.Val) Log :=
  Recorded Op (fun o => Result o.Val)

/-! ## Reading a trace -/

/-- The start of an inference turn. -/
def isStart : Op → Bool
  | .beginTurn _ _ _ _ => true
  | _ => false

/-- The catalog request every attempt begins with. -/
def isCatalog : Op → Bool
  | .query (.listModels _) => true
  | _ => false

/-- The number of inference turns started. -/
def starts (log : Log) : Nat := log.countP (fun entry => isStart entry.1)

/-- The number of attempts made. -/
def attempts (log : Log) : Nat := log.countP (fun entry => isCatalog entry.1)

theorem starts_append (log : Log) (o : Op) (answer : Result o.Val) :
    starts (log ++ [⟨o, answer⟩]) = starts log + if isStart o then 1 else 0 := by
  simp [starts, List.countP_append, List.countP_cons]

theorem attempts_append (log : Log) (o : Op) (answer : Result o.Val) :
    attempts (log ++ [⟨o, answer⟩]) = attempts log + if isCatalog o then 1 else 0 := by
  simp [attempts, List.countP_append, List.countP_cons]

variable (config : CoreConfig) (policy : ModelRoutePolicyConfig) (session : SessionId)

/-- The policy was resolved against a catalog the gateway gave. -/
def Resolved (resolved : ResolvedModelRoutePolicy) (log : Log) : Prop :=
  ∃ catalog : List ModelRef, ⟨.query .listGatewayModels, .ok catalog⟩ ∈ log ∧
    ResolvedModelRoutePolicy.resolve policy catalog = .ok resolved

/-- The model is a route of the policy so resolved. -/
def RouteOf (model : ModelRef) (log : Log) : Prop :=
  ∃ resolved, Resolved policy resolved log ∧ model ∈ resolved.routes

/-- The provider the agent must list a route under: its own, or the bridge's transport
    provider. -/
def catalogProvider (model : ModelRef) : Option String :=
  match config.bridge with
  | some bridge => some bridge.transportProvider
  | none => model.provider

/-- The latest attempt listed the route's exact id under the right provider, without duplicate
    ids. -/
def CatalogListed (model : ModelRef) (log : Log) : Prop :=
  ∃ (before mid : Log) (catalog : List ModelRef),
    log = before ++ ⟨.query (.listModels session), .ok catalog⟩ :: mid ∧ attempts mid = 0 ∧
      RouteOf policy model before ∧ Lists catalog model.id (catalogProvider config model)

/-- And after that listing it reported an active model with the route's id and provider. -/
def Corroborated (model : ModelRef) (log : Log) : Prop :=
  ∃ (before mid : Log) (catalog : List ModelRef),
    log = before ++ ⟨.query (.listModels session), .ok catalog⟩ :: mid ∧ attempts mid = 0 ∧
      RouteOf policy model before ∧ Lists catalog model.id (catalogProvider config model) ∧
      ∃ active : ModelRef,
        ⟨.query (.corroborateModelIdentity session model), .ok active⟩ ∈ mid ∧
          active.id = model.id ∧ active.provider = model.provider

/-- Every inference turn of the trace was begun for a model corroborated in that very attempt. -/
def Sound (log : Log) : Prop :=
  ∀ (before after : Log) (p : ProjectId) (s : SessionId) (prompt : String)
    (requested : Option ModelRef) (answer : Result Unit),
    log = before ++ ⟨.beginTurn p s prompt requested, answer⟩ :: after →
      s = session ∧ ∃ model, requested = some model ∧
        Corroborated config policy session model before

variable {config policy session}

theorem Resolved.append {resolved : ResolvedModelRoutePolicy} {log : Log}
    (h : Resolved policy resolved log) (more : Log) : Resolved policy resolved (log ++ more) := by
  obtain ⟨catalog, hin, hresolved⟩ := h
  exact ⟨catalog, List.mem_append_left _ hin, hresolved⟩

/-- Anything but a new attempt leaves the listing the latest one. -/
theorem CatalogListed.append {model : ModelRef} {log : Log}
    (h : CatalogListed config policy session model log) {o : Op} (answer : Result o.Val)
    (ho : isCatalog o = false) :
    CatalogListed config policy session model (log ++ [⟨o, answer⟩]) := by
  obtain ⟨before, mid, catalog, rfl, hmid, hroute, hlists⟩ := h
  refine ⟨before, mid ++ [⟨o, answer⟩], catalog, by simp, ?_, hroute, hlists⟩
  rw [attempts_append, hmid, ho]
  rfl

theorem Corroborated.append {model : ModelRef} {log : Log}
    (h : Corroborated config policy session model log) {o : Op} (answer : Result o.Val)
    (ho : isCatalog o = false) :
    Corroborated config policy session model (log ++ [⟨o, answer⟩]) := by
  obtain ⟨before, mid, catalog, rfl, hmid, hroute, hlists, active, hin, hactive⟩ := h
  refine ⟨before, mid ++ [⟨o, answer⟩], catalog, by simp, ?_, hroute, hlists, active,
    List.mem_append_left _ hin, hactive⟩
  rw [attempts_append, hmid, ho]
  rfl

/-- The active model's report completes the corroboration. -/
theorem CatalogListed.close {model active : ModelRef} {log : Log}
    (h : CatalogListed config policy session model log)
    (hid : active.id = model.id) (hprovider : active.provider = model.provider) :
    Corroborated config policy session model
      (log ++ [⟨.query (.corroborateModelIdentity session model), .ok active⟩]) := by
  obtain ⟨before, mid, catalog, rfl, hmid, hroute, hlists⟩ := h
  refine ⟨before, mid ++ [⟨.query (.corroborateModelIdentity session model), .ok active⟩],
    catalog, by simp, ?_, hroute, hlists, active, List.mem_append_right _ List.mem_cons_self,
    hid, hprovider⟩
  rw [attempts_append, hmid]
  rfl

theorem sound_nil : Sound config policy session [] := by
  intro before after p s prompt requested answer h
  cases before <;> cases h

/-- A trace stays sound under one more entry, if a turn that the entry begins is
    corroborated. -/
theorem Sound.append {log : Log} (h : Sound config policy session log) {o : Op}
    (answer : Result o.Val)
    (ho : ∀ p s prompt requested, o = .beginTurn p s prompt requested →
      s = session ∧ ∃ model, requested = some model ∧
        Corroborated config policy session model log) :
    Sound config policy session (log ++ [⟨o, answer⟩]) := by
  intro before after p s prompt requested given heq
  rcases List.eq_nil_or_concat after with rfl | ⟨rest, last, rfl⟩
  · -- the turn is the new entry
    obtain ⟨rfl, hentry⟩ := List.append_inj' heq rfl
    have hop : o = .beginTurn p s prompt requested := by
      have := congrArg (List.map Sigma.fst) hentry
      simpa using this
    exact ho p s prompt requested hop
  · -- the turn was there before
    rw [List.concat_eq_append, ← List.cons_append, ← List.append_assoc] at heq
    obtain ⟨hlog, -⟩ := List.append_inj' heq rfl
    exact h before rest p s prompt requested given hlog

theorem Sound.silent {log : Log} (h : Sound config policy session log) {o : Op}
    (answer : Result o.Val) (ho : isStart o = false) :
    Sound config policy session (log ++ [⟨o, answer⟩]) := by
  refine h.append answer (fun p s prompt requested heq => ?_)
  rw [heq] at ho
  cases ho

/-! ## Assertions about the trace so far -/

/-- The law itself, as far as the trace goes. -/
structure Law (config : CoreConfig) (policy : ModelRoutePolicyConfig) (session : SessionId)
    (log : Log) : Prop where
  sound : Sound config policy session log
  once : starts log ≤ 1
  bounded : attempts log ≤ policy.targets.length

/-- No turn has been started, and `k` attempts have been made. -/
structure Waiting (config : CoreConfig) (policy : ModelRoutePolicyConfig) (session : SessionId)
    (k : Nat) (log : Log) : Prop where
  sound : Sound config policy session log
  none_started : starts log = 0
  made : attempts log = k

/-- An operation that is neither the start of a turn nor of an attempt. -/
def Silent (o : Op) : Prop := isStart o = false ∧ isCatalog o = false

/-- An assertion silent operations do not disturb. -/
def Steady (J : Log → Prop) : Prop :=
  ∀ log o (answer : Result o.Val), Silent o → J log → J (log ++ [⟨o, answer⟩])

theorem Law.steady : Steady (Law config policy session) := by
  intro log o answer ho h
  refine ⟨h.sound.silent answer ho.1, ?_, ?_⟩
  · rw [starts_append, ho.1]
    exact h.once
  · rw [attempts_append, ho.2]
    exact h.bounded

theorem Waiting.steady {k : Nat} : Steady (Waiting config policy session k) := by
  intro log o answer ho h
  refine ⟨h.sound.silent answer ho.1, ?_, ?_⟩
  · rw [starts_append, h.none_started, ho.1]
    rfl
  · rw [attempts_append, h.made, ho.2]
    rfl

theorem Waiting.law {k : Nat} {log : Log} (h : Waiting config policy session k log)
    (hk : k ≤ policy.targets.length) : Law config policy session log :=
  ⟨h.sound, by rw [h.none_started]; omega, by rw [h.made]; exact hk⟩

theorem Steady.and {J K : Log → Prop} (hJ : Steady J) (hK : Steady K) :
    Steady (fun log => J log ∧ K log) :=
  fun log o answer ho h => ⟨hJ log o answer ho h.1, hK log o answer ho h.2⟩

theorem resolved_steady {resolved : ResolvedModelRoutePolicy} :
    Steady (Resolved policy resolved) :=
  fun _ _ _ _ h => h.append _

theorem catalogListed_steady {model : ModelRef} :
    Steady (CatalogListed config policy session model) :=
  fun _ _ answer ho h => h.append answer ho.2

theorem corroborated_steady {model : ModelRef} :
    Steady (Corroborated config policy session model) :=
  fun _ _ answer ho h => h.append answer ho.2

variable {log : Log} {J : Log → Prop}

/-- A silent operation. -/
theorem wp_silent (hJ : Steady J) {o : Op} (ho : Silent o) (h : J log) :
    Wp Any () (act o) (fun _ => J) (fun _ => J) log := by
  refine wp_record (fun answer => ?_)
  cases answer with
  | ok a => exact hJ log o _ ho h
  | error e => exact hJ log o _ ho h

/-- A program of silent operations. -/
theorem wp_silent_only (hJ : Steady J) {α : Type} {p : CoreM α} (hp : Only Silent p) (h : J log) :
    Wp Any () p (fun _ => J) (fun _ => J) log := by
  refine wp_only (fun o ho t ht => ⟨trivial, fun w _ r hr _ => ?_⟩) hp h
  have hr' : t ++ [⟨o, w o⟩] = r := hr
  rw [← hr']
  exact hJ t o _ ho ht

/-- A body under the gate. -/
theorem wp_lifecycle {α : Type} {project : ProjectId} {body : CoreM α} {Q : α → Log → Prop}
    {K : Log → Prop} (hJ : Steady J) (hK : Steady K) (hQ : ∀ a, Steady (Q a))
    (hJK : ∀ t, J t → K t) (hQK : ∀ a t, Q a t → K t) (h : J log)
    (hbody : ∀ t, J t → Wp Any () body Q (fun _ => K) t) :
    Wp Any () (withLifecycle project body) Q (fun _ => K) log := by
  refine wp_seq trivial (wp_silent hJ ⟨rfl, rfl⟩ h) (fun _ t _ ht => ?_) (fun _ t _ => hJK t)
  refine wp_bind (wp_settle (Wp.mono trivial (hbody t ht) (fun a r _ hr => ?_)
    (fun e r _ hr => ?_)))
  · refine wp_seq trivial (wp_silent (hQ a) ⟨rfl, rfl⟩ hr) (fun _ u _ hu => wp_resume hu)
      (fun _ u _ => hQK a u)
  · refine wp_seq trivial (wp_silent hK ⟨rfl, rfl⟩ hr) (fun _ u _ hu => wp_resume hu)
      (fun _ u _ hu => hu)

/-! ## One round -/

/-- A machine about to make its `k`-th attempt, on the `k`-th route. -/
structure AtRoute (resolved : ResolvedModelRoutePolicy) (k : Nat)
    (task : BackendTaskStateMachine) : Prop where
  routes : task.routePolicy = resolved
  attempt : task.attempt = some (.pristine k)
  selected : resolved.routes[k]? = some task.selectedModel
  phase : task.phase = .prepared

/-- A machine in the middle of that attempt. -/
structure OnRoute (resolved : ResolvedModelRoutePolicy) (k : Nat) (model : ModelRef)
    (task : BackendTaskStateMachine) : Prop where
  routes : task.routePolicy = resolved
  attempt : task.attempt = some (.pristine k)
  selected : task.selectedModel = model
  inside : k < resolved.routes.length
  going : task.phase ≠ .stopped

/-- How a round may end: with the law kept, or before another round on the next route. -/
def RoundEnd (config : CoreConfig) (policy : ModelRoutePolicyConfig) (session : SessionId)
    (resolved : ResolvedModelRoutePolicy) (k : Nat) : AttemptStep → Log → Prop
  | .done _ _, log => Law config policy session log
  | .retry task _ _, log => AtRoute resolved (k + 1) task ∧
      Waiting config policy session (k + 1) log ∧ Resolved policy resolved log

variable {resolved : ResolvedModelRoutePolicy} {k : Nat} {model : ModelRef}
variable {task : BackendTaskStateMachine} {cells : Progress} {seen : List AgentEvent}

/-- An agent failure never leads to another round. -/
theorem retryOrStop_agent (cells : Progress) (seen : List AgentEvent) (h : OnRoute resolved k model task) (error e : VibeCoderError) :
    ∃ e', retryOrStop task cells seen (classifyAgentFailure e) error = .error e' := by
  have hidx : (RouteAttemptState.pristine k).routeIndex < task.routePolicy.routes.length := by
    rw [h.routes]; exact h.inside
  rcases decideFailure_cases task cells (classifyAgentFailure e) h.attempt hidx h.going with
    ⟨reason, hdec⟩ | ⟨next, -, -, -, hsafe⟩
  · exact ⟨error, by rw [retryOrStop, hdec]⟩
  · rw [safeFallbackTrigger_classify] at hsafe
    cases hsafe

/-- The turn itself: begun once, for a corroborated model, and never followed by another
    round. -/
theorem wp_inference {project : ProjectId} {prompt : String} {observer : Nat} {j : Nat}
    (hj : j ≤ policy.targets.length) (htask : OnRoute resolved k model task)
    (h : Waiting config policy session j log ∧ Corroborated config policy session model log) :
    Wp Any () (backendInference project session prompt model task cells observer seen)
      (RoundEnd config policy session resolved k) (fun _ => Law config policy session) log := by
  have hlaw : ∀ t, Waiting config policy session j t ∧
      Corroborated config policy session model t → Law config policy session t :=
    fun t ht => ht.1.law hj
  refine wp_seq trivial (wp_silent (Waiting.steady.and corroborated_steady) ⟨rfl, rfl⟩ h)
    (fun _ t _ ht => ?_) (fun _ t _ => hlaw t)
  -- the one entry that starts a turn
  have hbegun : ∀ answer, Law config policy session
      (t ++ [⟨.beginTurn project session prompt (some model), answer⟩]) := by
    intro answer
    refine ⟨ht.1.sound.append answer (fun p s q requested heq => ?_), ?_, ?_⟩
    · cases heq
      exact ⟨rfl, model, rfl, ht.2⟩
    · rw [starts_append, ht.1.none_started]
      exact Nat.le_refl 1
    · rw [attempts_append, ht.1.made]
      exact hj
  refine wp_bind (wp_record (fun answer => ?_))
  cases answer with
  | error e => exact hbegun _
  | ok u =>
    refine wp_seq trivial (wp_silent Law.steady ⟨rfl, rfl⟩ (hbegun _)) (fun ended r _ hr => ?_)
      (fun _ r _ hr => hr)
    refine wp_seq trivial (wp_silent Law.steady ⟨rfl, rfl⟩ hr) (fun _ v _ hv => ?_)
      (fun _ v _ hv => hv)
    obtain ⟨events, turn⟩ := ended
    cases turn with
    | ok turn =>
      refine wp_bind (wp_resume ?_)
      cases task.complete turn with
      | error e => exact hv
      | ok outcome => exact hv
    | error e =>
      obtain ⟨e', he'⟩ := retryOrStop_agent (cells.modify observer
        (fun cell => events.foldl AttemptProgress.observe cell)) (seen ++ events) htask e e
      refine wp_resume ?_
      dsimp only
      rw [he']
      exact hv

/-- The report of the active model, and the turn it allows. -/
theorem wp_activeModel {project : ProjectId} {prompt : String} {j : Nat}
    (hj : j ≤ policy.targets.length) (htask : OnRoute resolved k task.selectedModel task)
    (h : Waiting config policy session j log ∧
      CatalogListed config policy session task.selectedModel log) :
    Wp Any () (backendActiveModel project session prompt task cells seen)
      (RoundEnd config policy session resolved k) (fun _ => Law config policy session) log := by
  refine wp_bind (wp_settle (wp_record (fun answer => ?_)))
  have hwaiting : Waiting config policy session j
      (log ++ [⟨.query (.corroborateModelIdentity session task.selectedModel), answer⟩]) :=
    Waiting.steady _ _ _ ⟨rfl, rfl⟩ h.1
  have hlaw := hwaiting.law hj
  cases answer with
  | error e =>
    refine wp_bind (wp_resume ?_)
    cases (task.decideFailure cells (classifyAgentFailure e)).1 with
    | error e' => exact hlaw
    | ok decision => exact wp_throw hlaw
  | ok active =>
    refine wp_bind (wp_resume ?_)
    cases hcheck : task.activeModelCheck active with
    | error e =>
      rw [corroborateActiveModel, hcheck]
      exact hlaw
    | ok u =>
      obtain ⟨-, hid, hprovider⟩ := activeModelCheck_ok hcheck
      rw [corroborateActiveModel, hcheck]
      refine wp_bind (wp_resume ?_)
      rw [beginInference, requirePhase_eq rfl]
      exact wp_inference hj
        ⟨htask.routes, htask.attempt, rfl, htask.inside, by simp⟩
        ⟨hwaiting, h.2.close hid.symm hprovider.symm⟩

/-- What the catalog step of a round decides, and the machine it leaves. -/
theorem corroborateCatalog_cases (config : CoreConfig) (task : BackendTaskStateMachine) (catalog : List ModelRef) :
    ((corroborateCatalog config task catalog).1 = .ok true ∧
      (corroborateCatalog config task catalog).2 =
        { task with phase := .agentCatalogCorroborated } ∧
      Lists catalog task.selectedModel.id (catalogProvider config task.selectedModel)) ∨
    ((corroborateCatalog config task catalog).1 ≠ .ok true ∧
      (corroborateCatalog config task catalog).2 = task) := by
  have hcheck : ∀ answer : Result Bool,
      (answer = .ok true → Lists catalog task.selectedModel.id
        (catalogProvider config task.selectedModel)) →
      ((task.afterCatalogCheck answer).1 = .ok true ∧
        (task.afterCatalogCheck answer).2 = { task with phase := .agentCatalogCorroborated } ∧
        Lists catalog task.selectedModel.id (catalogProvider config task.selectedModel)) ∨
      ((task.afterCatalogCheck answer).1 ≠ .ok true ∧
        (task.afterCatalogCheck answer).2 = task) := by
    intro answer hlists
    match answer with
    | .ok true => exact Or.inl ⟨rfl, rfl, hlists rfl⟩
    | .ok false => exact Or.inr ⟨by simp [afterCatalogCheck], rfl⟩
    | .error e => exact Or.inr ⟨by simp [afterCatalogCheck], rfl⟩
  cases hbridge : config.bridge with
  | some bridge =>
    have hstep : corroborateCatalog config task catalog =
        task.afterCatalogCheck (task.bridgedAgentCatalogCheck catalog bridge.transportProvider) := by
      rw [corroborateCatalog, hbridge]
      rfl
    rw [hstep]
    refine hcheck _ (fun hok => ?_)
    have hprovider : catalogProvider config task.selectedModel = some bridge.transportProvider := by
      rw [catalogProvider, hbridge]
    rw [hprovider]
    exact (bridgedAgentCatalogCheck_true hok).2
  | none =>
    have hstep : corroborateCatalog config task catalog =
        task.afterCatalogCheck (task.agentCatalogCheck catalog) := by
      rw [corroborateCatalog, hbridge]
      rfl
    rw [hstep]
    refine hcheck _ (fun hok => ?_)
    have hprovider : catalogProvider config task.selectedModel = task.selectedModel.provider := by
      rw [catalogProvider, hbridge]
    rw [hprovider]
    exact (agentCatalogCheck_true hok).2

/-- **Step lemma.**  A round on route `k` keeps the law, and is followed by another one only on
    route `k + 1` and only if no turn was started. -/
theorem wp_round {project : ProjectId} {prompt : String}
    (hlength : resolved.routes.length = policy.targets.length)
    (htask : AtRoute resolved k task) (h : Waiting config policy session k log)
    (hresolved : Resolved policy resolved log) :
    Wp Any () (backendAttempt config project session prompt task cells seen)
      (RoundEnd config policy session resolved k) (fun _ => Law config policy session) log := by
  have hselected := htask.selected
  rw [List.getElem?_eq_some_iff] at hselected
  obtain ⟨hinside, hget⟩ := hselected
  have hroute : RouteOf policy task.selectedModel log :=
    ⟨resolved, hresolved, by rw [← hget]; exact List.getElem_mem hinside⟩
  have hj : k + 1 ≤ policy.targets.length := by omega
  refine wp_bind (wp_record (fun answer => ?_))
  have hwaiting : Waiting config policy session (k + 1)
      (log ++ [⟨.query (.listModels session), answer⟩]) := by
    refine ⟨h.sound.silent _ rfl, ?_, ?_⟩
    · rw [starts_append, h.none_started]
      rfl
    · rw [attempts_append, h.made]
      rfl
  have hlaw := hwaiting.law hj
  cases answer with
  | error e => exact hlaw
  | ok catalog =>
    refine wp_bind (wp_resume ?_)
    rcases corroborateCatalog_cases config task catalog with
      ⟨hone, htwo, hlists⟩ | ⟨hone, htwo⟩
    · -- the catalog lists the route: on to the active model
      rw [hone]
      dsimp only [Post]
      rw [htwo]
      exact wp_activeModel hj ⟨htask.routes, htask.attempt, rfl, hinside, by simp⟩
        ⟨hwaiting, log, [], catalog, rfl, rfl, hroute, hlists⟩
    · -- it does not: stop, or fall back to the next route
      rw [htwo]
      cases hanswer : (corroborateCatalog config task catalog).1 with
      | error e => exact hlaw
      | ok found =>
        cases found with
        | true => exact absurd hanswer hone
        | false =>
          have hidx : (RouteAttemptState.pristine k).routeIndex <
              task.routePolicy.routes.length := by
            rw [htask.routes]; exact hinside
          refine wp_resume ?_
          rcases decideFailure_cases task cells .modelUnavailable htask.attempt hidx
              (by rw [htask.phase]; simp) with ⟨reason, hdec⟩ | ⟨next, hdec, hnext, -, -⟩
          · rw [retryOrStop, hdec]
            exact hlaw
          · rw [retryOrStop, hdec]
            rw [htask.routes] at hnext
            exact ⟨⟨htask.routes, rfl, hnext, rfl⟩, hwaiting, hresolved.append _⟩

/-- **Run lemma.**  However many rounds are allowed, the law holds in the end. -/
theorem wp_rounds {project : ProjectId} {prompt : String}
    (hlength : resolved.routes.length = policy.targets.length) (rounds : Nat) :
    ∀ {k : Nat} {task : BackendTaskStateMachine} {cells : Progress} {seen : List AgentEvent}
      {log : Log}, AtRoute resolved k task → Waiting config policy session k log →
      Resolved policy resolved log →
      Wp Any () (backendAttempts config project session prompt rounds task cells seen)
        (fun _ => Law config policy session) (fun _ => Law config policy session) log := by
  induction rounds with
  | zero =>
    intro k task cells seen log htask h _
    have hinside := htask.selected
    rw [List.getElem?_eq_some_iff] at hinside
    exact wp_throw (h.law (by have := hinside.1; omega))
  | succ rounds ih =>
    intro k task cells seen log htask h hresolved
    refine wp_seq trivial (wp_round hlength htask h hresolved) (fun step t _ ht => ?_)
      (fun _ t _ ht => ht)
    cases step with
    | done outcome seen => exact ht
    | retry task cells seen => exact ih ht.1 ht.2.1 ht.2.2

/-! ## The whole call -/

/-- The machine a prepared task starts with. -/
theorem prepare_atRoute {taskId : BackendTaskId} {project : ProjectId} {session : SessionId}
    {prompt : String} (h : BackendTaskStateMachine.prepare taskId project session prompt resolved =
      .ok task) : AtRoute resolved 0 task := by
  rw [BackendTaskStateMachine.prepare] at h
  split at h
  · cases h
  · cases h
    exact ⟨rfl, rfl, resolved.getElem?_zero, rfl⟩

theorem only_ensureNoActive (project : ProjectId) :
    Only Silent (ensureNoActiveProjectProcess config project) := by
  rw [ensureNoActiveProjectProcess]
  split
  · exact only_bind (only_attempt ⟨rfl, rfl⟩) (fun _ => only_resume _)
  · exact only_pure _

theorem only_check (project : ProjectId) :
    Only Silent (checkBackendTask config project session) := by
  refine only_bind (only_attempt ⟨rfl, rfl⟩) (fun _ => ?_)
  refine only_bind (only_ensureNoActive project) (fun _ => ?_)
  refine only_bind (only_attempt ⟨rfl, rfl⟩) (fun _ => ?_)
  refine only_bind (only_attempt ⟨rfl, rfl⟩) (fun _ => ?_)
  refine only_bind (only_attempt ⟨rfl, rfl⟩) (fun _ => ?_)
  refine only_bind (only_resume _) (fun _ => ?_)
  refine only_bind (only_attempt ⟨rfl, rfl⟩) (fun _ => ?_)
  exact only_bind (only_resume _) (fun _ => only_resume _)

/-- What stands before the loop starts nothing, and ends with a task on the first route of a
    policy resolved against the gateway's catalog. -/
theorem wp_prepare (project : ProjectId) (prompt : String)
    (h : Waiting config policy session 0 log) :
    Wp Any () (prepareBackendTask config project session policy prompt)
      (fun task t => ∃ resolved, resolved.routes.length = policy.targets.length ∧
        AtRoute resolved 0 task ∧ Waiting config policy session 0 t ∧
        Resolved policy resolved t)
      (fun _ => Waiting config policy session 0) log := by
  refine wp_seq trivial (wp_silent_only Waiting.steady (only_check project) h)
    (fun _ t _ ht => ?_) (fun _ t _ ht => ht)
  refine wp_bind (wp_record (fun answer => ?_))
  have hwaiting := Waiting.steady _ _ answer ⟨rfl, rfl⟩ ht
  cases answer with
  | error e => exact hwaiting
  | ok catalog =>
    refine wp_bind (wp_resume ?_)
    cases hresolve : ResolvedModelRoutePolicy.resolve policy catalog with
    | error e => exact hwaiting
    | ok resolved =>
      have hresolved : Resolved policy resolved
          (t ++ [⟨.query .listGatewayModels, .ok catalog⟩]) :=
        ⟨catalog, List.mem_append_right _ List.mem_cons_self, hresolve⟩
      refine wp_seq trivial (wp_silent (Waiting.steady.and resolved_steady) ⟨rfl, rfl⟩
        ⟨hwaiting, hresolved⟩) (fun taskId r _ hr => ?_) (fun _ r _ hr => hr.1)
      refine wp_resume ?_
      cases hprepare : BackendTaskStateMachine.prepare ⟨taskId⟩ project session prompt resolved with
      | error e => exact hr.1
      | ok task =>
        exact ⟨resolved, ResolvedModelRoutePolicy.resolve_length hresolve,
          prepare_atRoute hprepare, hr.1, hr.2⟩

/-- The body of the call keeps the law. -/
theorem wp_body {project : ProjectId} {prompt : String} (rounds : Nat)
    (h : Waiting config policy session 0 log) :
    Wp Any () (do
        let task ← prepareBackendTask config project session policy prompt
        backendAttempts config project session prompt rounds task [] [])
      (fun _ => Law config policy session) (fun _ => Law config policy session) log :=
  wp_seq trivial (wp_prepare project prompt h)
    (fun _ _ _ ⟨_, hlength, htask, ht, hresolved⟩ =>
      wp_rounds hlength rounds htask ht hresolved)
    (fun _ _ _ ht => ht.law (Nat.zero_le _))

theorem waiting_nil (config : CoreConfig) (policy : ModelRoutePolicyConfig) (session : SessionId) :
    Waiting config policy session 0 [] :=
  ⟨sound_nil, rfl, rfl⟩

/-- The call as a whole keeps the law. -/
theorem wp_call (config : CoreConfig) (policy : ModelRoutePolicyConfig) (session : SessionId)
    (project : ProjectId) (prompt : String) (rounds : Nat) :
    Wp Any () (runBackendTaskWithin config rounds project session policy prompt)
      (fun _ => Law config policy session) (fun _ => Law config policy session) [] :=
  wp_lifecycle Waiting.steady Law.steady (fun _ => Law.steady)
    (fun _ ht => ht.law (Nat.zero_le _)) (fun _ _ ht => ht) (waiting_nil config policy session)
    (fun _ ht => wp_body rounds ht)

/-! ## The bound on the rounds -/

/-- With at least as many rounds as routes ahead, one more round changes nothing. -/
theorem backendAttempts_rounds {project : ProjectId} {prompt : String}
    (hlength : resolved.routes.length = policy.targets.length) (rounds : Nat) :
    ∀ {more k : Nat} {task : BackendTaskStateMachine} {cells : Progress}
      {seen : List AgentEvent} {log : Log}, AtRoute resolved k task →
      Waiting config policy session k log → Resolved policy resolved log →
      resolved.routes.length - k ≤ rounds → rounds ≤ more →
      backendAttempts config project session prompt more task cells seen =
        backendAttempts config project session prompt rounds task cells seen := by
  induction rounds with
  | zero =>
    intro more k task cells seen log htask _ _ hrounds _
    have hinside := htask.selected
    rw [List.getElem?_eq_some_iff] at hinside
    have := hinside.1
    omega
  | succ rounds ih =>
    intro more k task cells seen log htask h hresolved hrounds hmore
    obtain ⟨more, rfl⟩ : ∃ m, more = m + 1 := ⟨more - 1, by omega⟩
    have hround : Wp Any () (backendAttempt config project session prompt task cells seen)
        (RoundEnd config policy session resolved k) (fun _ => Law config policy session) log :=
      wp_round hlength htask h hresolved
    refine bind_congr_of_safe (fun _ => .error .cancelled) (fun result t ht => ?_) hround
    -- only another round goes on, and it is on the next route
    match result with
    | .error e => rfl
    | .ok (.done outcome seen) => rfl
    | .ok (.retry task cells seen) => exact ih ht.1 ht.2.1 ht.2.2 (by omega) (by omega)

/-- No bound of at least `maxRouteTargets` rounds is ever reached: the call is the unbounded loop
    of the source. -/
theorem runBackendTaskWithin_eq (config : CoreConfig) (policy : ModelRoutePolicyConfig)
    (session : SessionId) (project : ProjectId) (prompt : String) {rounds : Nat}
    (hrounds : maxRouteTargets ≤ rounds) :
    runBackendTaskWithin config rounds project session policy prompt =
      runBackendTask config project session policy prompt := by
  refine congrArg (withLifecycle project) ?_
  refine bind_congr_of_safe (fun _ => .error .cancelled) (fun result t ht => ?_)
    (wp_prepare project prompt (waiting_nil config policy session))
  match result with
  | .error e => rfl
  | .ok task =>
    obtain ⟨resolved, hlength, htask, hwaiting, hresolved⟩ := ht
    have hbounded := resolved.bounded
    exact backendAttempts_rounds hlength maxRouteTargets htask hwaiting hresolved (by omega)
      hrounds

/-- **The backend task law.**  Whatever the gateway and the agent answer, one call starts at most
    one inference turn; every turn it starts was, in the same attempt, listed by the agent under
    the route's exact id and the right provider without duplicate ids, and then reported active
    with the route's id and provider; and it makes at most as many attempts as the policy has
    routes. -/
theorem backend_task_law (config : CoreConfig) (project : ProjectId) (session : SessionId)
    (policy : ModelRoutePolicyConfig) (prompt : String) :
    (∀ rounds, maxRouteTargets ≤ rounds →
      runBackendTaskWithin config rounds project session policy prompt =
        runBackendTask config project session policy prompt) ∧
    ∀ answers : Nat → (o : Op) → Result o.Val,
      let log := (runAlone record answers (runBackendTask config project session policy prompt)
        0 []).2.2
      starts log ≤ 1 ∧ Sound config policy session log ∧
        attempts log ≤ policy.targets.length := by
  refine ⟨fun rounds => runBackendTaskWithin_eq config policy session project prompt, ?_⟩
  intro answers
  have hlaw := Post.both (wp_run (w := answers) (n := 0) (fun _ => trivial)
    (wp_call config policy session project prompt maxRouteTargets))
  exact ⟨hlaw.once, hlaw.sound, hlaw.bounded⟩

end VibeCoder.BackendTask
