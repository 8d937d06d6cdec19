/-
  Runs of the backend task machine: any sequence of calls, in any order, accepted or rejected.

  `Driver` is what a caller holds between calls: the machine (gone once `complete` has taken it),
  the cells behind every observer handed out, and a history of the calls and their answers.  The
  history is the only ghost: each entry is stamped with the number of fallbacks decided before
  it, which is what "in the same attempt" means.

  `Inv` couples the fields; every operation preserves it (`inv_step`), so every run does.  The
  law of the machine is read off it:

  * the selected model is the route at the attempt index, and the index counts the fallbacks;
  * a stopped machine stays stopped;
  * once progress was observed on the live attempt, no fallback is ever decided again;
  * a completed outcome was corroborated, catalog first and active model second, in its attempt.
-/
import VibeCoder.Lib.Run
import VibeCoder.TaskMachine

namespace VibeCoder.TaskRuns

open BackendTaskStateMachine

/-! ## Calls, answers, history -/

inductive Call where
  | corroborateAgentCatalog (catalog : List ModelRef)
  | corroborateBridgedAgentCatalog (catalog : List ModelRef) (transportProvider : String)
  | corroborateActiveModel (active : ModelRef)
  | beginInference
  | observe (observer : Nat) (event : AgentEvent)
  | decideFailure (failure : RouteFailureClass)
  | complete (turn : TurnResult)

/-- `unavailable` stands for a call the type system of the source rules out: a method of a
    machine that `complete` has consumed, or an observer that was never handed out. -/
inductive Answer where
  | catalog (answer : Result Bool)
  | active (answer : Result Unit)
  | begun (observer : Result Nat)
  | observed
  | decided (decision : Result BackendTaskFailureDecision)
  | completed (outcome : Result BackendTaskOutcome)
  | unavailable

/-- A fallback to another attempt was decided. -/
def Answer.isRetry : Answer → Bool
  | .decided (.ok .retryConfiguredFallback) => true
  | _ => false

/-- A failure decision was made, a fallback or a stop. -/
def Answer.isDecision : Answer → Bool
  | .decided (.ok _) => true
  | _ => false

/-- One call in the history, with the number of fallbacks decided before it. -/
structure Entry where
  attempt : Nat
  call : Call
  answer : Answer

/-- The number of fallbacks decided in a history. -/
def retries (log : List Entry) : Nat := log.countP (fun entry => entry.answer.isRetry)

/-- The number of failure decisions in a history. -/
def decisions (log : List Entry) : Nat := log.countP (fun entry => entry.answer.isDecision)

structure Driver where
  machine : Option BackendTaskStateMachine
  cells : Progress
  log : List Entry

/-- A machine just prepared, no observer handed out. -/
def Driver.start (m : BackendTaskStateMachine) : Driver :=
  { machine := some m, cells := [], log := [] }

/-- The answer to one call, with the machine and the cells after it. -/
def respond (machine : Option BackendTaskStateMachine) (cells : Progress) (call : Call) :
    Answer × Option BackendTaskStateMachine × Progress :=
  match call, machine with
  | .observe observer event, machine =>
    if observer < cells.length then
      (.observed, machine, cells.modify observer (fun progress => progress.observe event))
    else (.unavailable, machine, cells)
  | _, none => (.unavailable, none, cells)
  | .corroborateAgentCatalog catalog, some m =>
    let (answer, m) := m.corroborateAgentCatalog catalog
    (.catalog answer, some m, cells)
  | .corroborateBridgedAgentCatalog catalog transportProvider, some m =>
    let (answer, m) := m.corroborateBridgedAgentCatalog catalog transportProvider
    (.catalog answer, some m, cells)
  | .corroborateActiveModel active, some m =>
    let (answer, m) := m.corroborateActiveModel active
    (.active answer, some m, cells)
  | .beginInference, some m =>
    let (answer, m, cells) := m.beginInference cells
    (.begun answer, some m, cells)
  | .decideFailure failure, some m =>
    let (answer, m) := m.decideFailure cells failure
    (.decided answer, some m, cells)
  | .complete turn, some m => (.completed (m.complete turn), none, cells)

/-- The answer the driver gives to a call. -/
def Driver.answer (d : Driver) (call : Call) : Answer := (respond d.machine d.cells call).1

/-- One call: the answer is recorded, stamped with the attempt it was made in. -/
def step (d : Driver) (call : Call) : Driver :=
  let (answer, machine, cells) := respond d.machine d.cells call
  { machine := machine
    cells := cells
    log := d.log ++ [{ attempt := retries d.log, call := call, answer := answer }] }

theorem step_machine (d : Driver) (call : Call) :
    (step d call).machine = (respond d.machine d.cells call).2.1 := rfl

theorem step_cells (d : Driver) (call : Call) :
    (step d call).cells = (respond d.machine d.cells call).2.2 := rfl

/-- Without a machine nothing is decided and no machine appears. -/
theorem respond_gone (cells : Progress) (call : Call) :
    (respond none cells call).2.1 = none ∧ (respond none cells call).1.isRetry = false ∧
      (respond none cells call).1.isDecision = false := by
  cases call with
  | observe observer event =>
    rw [respond]
    split
    · exact ⟨rfl, rfl, rfl⟩
    · exact ⟨rfl, rfl, rfl⟩
  | _ => exact ⟨rfl, rfl, rfl⟩

/-- Only `complete` takes the machine away. -/
theorem respond_takes {m : BackendTaskStateMachine} {cells : Progress} {call : Call}
    (h : (respond (some m) cells call).2.1 = none) : ∃ turn, call = .complete turn := by
  cases call with
  | complete turn => exact ⟨turn, rfl⟩
  | observe observer event =>
    rw [respond] at h
    split at h
    · cases h
    · cases h
  | _ => cases h

theorem retries_append (log : List Entry) (entry : Entry) :
    retries (log ++ [entry]) = retries log + entry.answer.isRetry.toNat := by
  rw [retries, retries, List.countP_append, List.countP_singleton]
  cases entry.answer.isRetry <;> rfl

theorem decisions_append (log : List Entry) (entry : Entry) :
    decisions (log ++ [entry]) = decisions log + entry.answer.isDecision.toNat := by
  rw [decisions, decisions, List.countP_append, List.countP_singleton]
  cases entry.answer.isDecision <;> rfl

theorem step_log (d : Driver) (call : Call) :
    (step d call).log =
      d.log ++ [{ attempt := retries d.log, call := call, answer := d.answer call }] := rfl

theorem retries_step (d : Driver) (call : Call) :
    retries (step d call).log = retries d.log + (d.answer call).isRetry.toNat := by
  rw [step_log, retries_append]

theorem decisions_step (d : Driver) (call : Call) :
    decisions (step d call).log = decisions d.log + (d.answer call).isDecision.toNat := by
  rw [step_log, decisions_append]

theorem retries_mono (d : Driver) (call : Call) :
    retries d.log ≤ retries (step d call).log := by
  rw [retries_step]; omega

theorem decisions_mono (d : Driver) (call : Call) :
    decisions d.log ≤ decisions (step d call).log := by
  rw [decisions_step]; omega

/-! ## Corroboration in the history -/

/-- An accepted catalog call of attempt `k`: the catalog lists the model's exact id, under its
    provider or under the bridge's, and no id twice. -/
def CatalogEntry (k : Nat) (model : ModelRef) (entry : Entry) : Prop :=
  entry.attempt = k ∧ entry.answer = .catalog (.ok true) ∧
    ((∃ catalog, entry.call = .corroborateAgentCatalog catalog ∧
        Lists catalog model.id model.provider) ∨
     (∃ catalog transportProvider,
        entry.call = .corroborateBridgedAgentCatalog catalog transportProvider ∧
        Lists catalog model.id (some transportProvider)))

/-- An accepted active-model call of attempt `k`. -/
def ActiveEntry (k : Nat) (model : ModelRef) (entry : Entry) : Prop :=
  entry.attempt = k ∧ entry.answer = .active (.ok ()) ∧
    ∃ active, entry.call = .corroborateActiveModel active ∧
      active.id = model.id ∧ active.provider = model.provider

/-- The catalog of attempt `k` was corroborated. -/
def CatalogCorroborated (log : List Entry) (k : Nat) (model : ModelRef) : Prop :=
  ∃ entry ∈ log, CatalogEntry k model entry

/-- The catalog of attempt `k` was corroborated, and after it the active model. -/
def Corroborated (log : List Entry) (k : Nat) (model : ModelRef) : Prop :=
  ∃ before between after catalog active,
    log = before ++ catalog :: between ++ active :: after ∧
      CatalogEntry k model catalog ∧ ActiveEntry k model active

theorem CatalogCorroborated.append {log : List Entry} {k : Nat} {model : ModelRef}
    (h : CatalogCorroborated log k model) (entry : Entry) :
    CatalogCorroborated (log ++ [entry]) k model := by
  obtain ⟨e, he, hcat⟩ := h
  exact ⟨e, List.mem_append_left _ he, hcat⟩

theorem Corroborated.append {log : List Entry} {k : Nat} {model : ModelRef}
    (h : Corroborated log k model) (entry : Entry) :
    Corroborated (log ++ [entry]) k model := by
  obtain ⟨before, between, after, catalog, active, rfl, hcat, hact⟩ := h
  exact ⟨before, between, after ++ [entry], catalog, active, by simp, hcat, hact⟩

/-- The active model closes the corroboration that the catalog opened. -/
theorem CatalogCorroborated.close {log : List Entry} {k : Nat} {model : ModelRef}
    (h : CatalogCorroborated log k model) {entry : Entry} (hact : ActiveEntry k model entry) :
    Corroborated (log ++ [entry]) k model := by
  obtain ⟨e, he, hcat⟩ := h
  obtain ⟨before, between, rfl⟩ := List.append_of_mem he
  exact ⟨before, between, [], e, entry, rfl, hcat, hact⟩

/-! ## The invariant -/

/-- The coupling of attempt, selected model, phase, corroboration and observer. -/
structure Inv (policy : ResolvedModelRoutePolicy) (log : List Entry) (cells : Progress)
    (m : BackendTaskStateMachine) : Prop where
  policy_eq : m.routePolicy = policy
  selected : policy.routes[retries log]? = some m.selectedModel
  live : m.phase ≠ .stopped → m.attempt = some (.pristine (retries log))
  finished : m.phase = .stopped → m.attempt = none
  catalog : m.phase = .agentCatalogCorroborated →
    CatalogCorroborated log (retries log) m.selectedModel
  active : m.phase = .activeModelCorroborated ∨ m.phase = .running →
    Corroborated log (retries log) m.selectedModel
  watched : m.phase = .running → ∃ cell, m.observer = some cell ∧ cell < cells.length
  unwatched : m.phase ≠ .running → m.observer = none

/-- The invariant of a driver: it constrains the machine as long as there is one, and the
    attempt index never leaves the list. -/
structure DriverInv (policy : ResolvedModelRoutePolicy) (d : Driver) : Prop where
  bounded : retries d.log < policy.routes.length
  machine : ∀ m, d.machine = some m → Inv policy d.log d.cells m

theorem Inv.bounded {policy : ResolvedModelRoutePolicy} {log : List Entry} {cells : Progress}
    {m : BackendTaskStateMachine} (h : Inv policy log cells m) :
    retries log < policy.routes.length :=
  (List.getElem?_eq_some_iff.mp h.selected).1

theorem start_inv {taskId : BackendTaskId} {projectId : ProjectId} {sessionId : SessionId}
    {prompt : String} {policy : ResolvedModelRoutePolicy} {m : BackendTaskStateMachine}
    (h : prepare taskId projectId sessionId prompt policy = .ok m) :
    DriverInv policy (Driver.start m) := by
  rw [prepare] at h
  split at h
  · cases h
  · cases h
    refine ⟨List.length_pos_iff.mpr policy.nonempty, ?_⟩
    intro m hm
    cases hm
    exact {
      policy_eq := rfl
      selected := policy.getElem?_zero
      live := fun _ => rfl
      finished := fun hph => by cases hph
      catalog := fun hph => by cases hph
      active := fun hph => by rcases hph with hph | hph <;> cases hph
      watched := fun hph => by cases hph
      unwatched := fun _ => rfl }

/-- A call that is rejected, or that does not concern the machine, keeps the invariant: the
    history grows by an entry that decides no fallback, and no cell disappears. -/
theorem Inv.keep {policy : ResolvedModelRoutePolicy} {log : List Entry} {cells cells' : Progress}
    {m : BackendTaskStateMachine} (h : Inv policy log cells m) {entry : Entry}
    (hretry : entry.answer.isRetry = false) (hcells : cells.length ≤ cells'.length) :
    Inv policy (log ++ [entry]) cells' m := by
  have hr : retries (log ++ [entry]) = retries log := by
    rw [retries_append, hretry]; rfl
  exact {
    policy_eq := h.policy_eq
    selected := by rw [hr]; exact h.selected
    live := by rw [hr]; exact h.live
    finished := h.finished
    catalog := fun hph => by rw [hr]; exact (h.catalog hph).append entry
    active := fun hph => by rw [hr]; exact (h.active hph).append entry
    watched := fun hph => by
      obtain ⟨cell, hcell, hlt⟩ := h.watched hph
      exact ⟨cell, hcell, Nat.lt_of_lt_of_le hlt hcells⟩
    unwatched := h.unwatched }

/-- An accepted catalog moves to the next phase. -/
theorem Inv.afterCatalog {policy : ResolvedModelRoutePolicy} {log : List Entry}
    {cells : Progress} {m : BackendTaskStateMachine} (h : Inv policy log cells m)
    (hph : m.phase = .prepared) {entry : Entry}
    (hentry : CatalogEntry (retries log) m.selectedModel entry) :
    Inv policy (log ++ [entry]) cells { m with phase := .agentCatalogCorroborated } := by
  have hr : retries (log ++ [entry]) = retries log := by
    rw [retries_append, hentry.2.1]; rfl
  exact {
    policy_eq := h.policy_eq
    selected := by rw [hr]; exact h.selected
    live := fun _ => by rw [hr]; exact h.live (by rw [hph]; simp)
    finished := fun hst => by cases hst
    catalog := fun _ => by
      rw [hr]
      exact ⟨entry, List.mem_append_right _ List.mem_cons_self, hentry⟩
    active := fun hact => by rcases hact with hact | hact <;> cases hact
    watched := fun hrun => by cases hrun
    unwatched := fun _ => h.unwatched (by rw [hph]; simp) }

/-- An accepted active model moves to the next phase. -/
theorem Inv.afterActive {policy : ResolvedModelRoutePolicy} {log : List Entry}
    {cells : Progress} {m : BackendTaskStateMachine} (h : Inv policy log cells m)
    (hph : m.phase = .agentCatalogCorroborated) {entry : Entry}
    (hentry : ActiveEntry (retries log) m.selectedModel entry) :
    Inv policy (log ++ [entry]) cells { m with phase := .activeModelCorroborated } := by
  have hr : retries (log ++ [entry]) = retries log := by
    rw [retries_append, hentry.2.1]; rfl
  exact {
    policy_eq := h.policy_eq
    selected := by rw [hr]; exact h.selected
    live := fun _ => by rw [hr]; exact h.live (by rw [hph]; simp)
    finished := fun hst => by cases hst
    catalog := fun hcat => by cases hcat
    active := fun _ => by rw [hr]; exact (h.catalog hph).close hentry
    watched := fun hrun => by cases hrun
    unwatched := fun _ => h.unwatched (by rw [hph]; simp) }

/-- Beginning inference hands out the next cell. -/
theorem Inv.afterBegin {policy : ResolvedModelRoutePolicy} {log : List Entry}
    {cells : Progress} {m : BackendTaskStateMachine} (h : Inv policy log cells m)
    (hph : m.phase = .activeModelCorroborated) {entry : Entry}
    (hretry : entry.answer.isRetry = false) :
    Inv policy (log ++ [entry]) (cells ++ [AttemptProgress.idle])
      { m with observer := some cells.length, phase := .running } := by
  have hr : retries (log ++ [entry]) = retries log := by
    rw [retries_append, hretry]; rfl
  exact {
    policy_eq := h.policy_eq
    selected := by rw [hr]; exact h.selected
    live := fun _ => by rw [hr]; exact h.live (by rw [hph]; simp)
    finished := fun hst => by cases hst
    catalog := fun hcat => by cases hcat
    active := fun _ => by rw [hr]; exact (h.active (Or.inl hph)).append entry
    watched := fun _ => ⟨cells.length, rfl, by rw [List.length_append]; exact Nat.lt_succ_self _⟩
    unwatched := fun hrun => absurd rfl hrun }

/-- A stop ends the attempt for good. -/
theorem Inv.afterStop {policy : ResolvedModelRoutePolicy} {log : List Entry}
    {cells : Progress} {m : BackendTaskStateMachine} (h : Inv policy log cells m)
    {entry : Entry} (hretry : entry.answer.isRetry = false) :
    Inv policy (log ++ [entry]) cells
      { m with attempt := none, observer := none, phase := .stopped } := by
  have hr : retries (log ++ [entry]) = retries log := by
    rw [retries_append, hretry]; rfl
  exact {
    policy_eq := h.policy_eq
    selected := by rw [hr]; exact h.selected
    live := fun hst => absurd rfl hst
    finished := fun _ => rfl
    catalog := fun hcat => by cases hcat
    active := fun hact => by rcases hact with hact | hact <;> cases hact
    watched := fun hrun => by cases hrun
    unwatched := fun _ => rfl }

/-- A fallback starts the next attempt from nothing. -/
theorem Inv.afterRetry {policy : ResolvedModelRoutePolicy} {log : List Entry}
    {cells : Progress} {m : BackendTaskStateMachine} (h : Inv policy log cells m)
    {model : ModelRef} (hnext : policy.routes[retries log + 1]? = some model)
    {entry : Entry} (hretry : entry.answer.isRetry = true) :
    Inv policy (log ++ [entry]) cells
      { m with
        attempt := some (.pristine (retries log + 1)), observer := none,
        selectedModel := model, phase := .prepared } := by
  have hr : retries (log ++ [entry]) = retries log + 1 := by
    rw [retries_append, hretry]; rfl
  exact {
    policy_eq := h.policy_eq
    selected := by rw [hr]; exact hnext
    live := fun _ => by rw [hr]
    finished := fun hst => by cases hst
    catalog := fun hcat => by cases hcat
    active := fun hact => by rcases hact with hact | hact <;> cases hact
    watched := fun hrun => by cases hrun
    unwatched := fun _ => rfl }

/-! ## One step -/

/-- What one call does, as the later proofs use it: the answer and the state after it. -/
theorem step_eq {d : Driver} {call : Call} {answer : Answer}
    {machine : Option BackendTaskStateMachine} {cells : Progress}
    (h : respond d.machine d.cells call = (answer, machine, cells)) :
    step d call =
      { machine := machine
        cells := cells
        log := d.log ++ [{ attempt := retries d.log, call := call, answer := answer }] } := by
  rw [step, h]

/-- The decision on a live attempt of the driver's machine. -/
theorem decide_cases {policy : ResolvedModelRoutePolicy} {log : List Entry} {cells : Progress}
    {m : BackendTaskStateMachine} (h : Inv policy log cells m) (failure : RouteFailureClass) :
    (m.phase = .stopped ∧ m.decideFailure cells failure =
      (.error (routingError "backend_task_failure_in_invalid_phase"), m)) ∨
    (∃ reason, m.phase ≠ .stopped ∧ m.decideFailure cells failure =
      (.ok (.stop reason), { m with attempt := none, observer := none, phase := .stopped })) ∨
    (∃ model, m.phase ≠ .stopped ∧ m.decideFailure cells failure =
      (.ok .retryConfiguredFallback,
        { m with
          attempt := some (.pristine (retries log + 1)), observer := none,
          selectedModel := model, phase := .prepared }) ∧
      policy.routes[retries log + 1]? = some model ∧
      (withObserved (.pristine (retries log)) cells m.observer).observableProgressStarted =
        false) := by
  by_cases hph : m.phase = .stopped
  · exact Or.inl ⟨hph, decideFailure_stopped cells failure hph⟩
  · right
    have hidx : (RouteAttemptState.pristine (retries log)).routeIndex <
        m.routePolicy.routes.length := by
      rw [h.policy_eq]; exact h.bounded
    rcases m.decideFailure_cases cells failure (h.live hph) hidx hph with
      ⟨reason, hdec⟩ | ⟨model, hdec, hnext, hquiet, -⟩
    · exact Or.inl ⟨reason, hph, hdec⟩
    · rw [h.policy_eq] at hnext
      exact Or.inr ⟨model, hph, hdec, hnext, hquiet⟩

/-- The two catalog calls, once the check has answered. -/
theorem inv_catalog {policy : ResolvedModelRoutePolicy} {log : List Entry} {cells : Progress}
    {m : BackendTaskStateMachine} (h : Inv policy log cells m) (call : Call)
    (answer : Result Bool)
    (htrue : answer = .ok true → m.phase = .prepared ∧
      CatalogEntry (retries log) m.selectedModel
        { attempt := retries log, call := call, answer := .catalog (.ok true) }) :
    Inv policy
      (log ++ [{ attempt := retries log, call := call
                 answer := .catalog (m.afterCatalogCheck answer).1 }])
      cells (m.afterCatalogCheck answer).2 := by
  rcases answer with e | b
  · exact h.keep rfl (Nat.le_refl _)
  · cases b with
    | false => exact h.keep rfl (Nat.le_refl _)
    | true => exact h.afterCatalog (htrue rfl).1 (htrue rfl).2

/-- **Step lemma.**  Every call, accepted or rejected, preserves the invariant. -/
theorem inv_step (policy : ResolvedModelRoutePolicy) (d : Driver) (call : Call)
    (h : DriverInv policy d) : DriverInv policy (step d call) := by
  -- it is enough to look at the machine: a machine in the invariant bounds the fallbacks, and
  -- a driver that has none any more decides none
  have hmachine : ∀ m, (step d call).machine = some m →
      Inv policy (step d call).log (step d call).cells m := by
    cases hd : d.machine with
    | none =>
      intro m hm
      have hnone : (step d call).machine = none := by
        rw [step_machine, hd]
        exact (respond_gone d.cells call).1
      rw [hnone] at hm
      cases hm
    | some m =>
      have hinv : Inv policy d.log d.cells m := h.machine m hd
      intro m' hm'
      cases call with
      | observe observer event =>
        have hstep : (step d (.observe observer event)).machine = some m := by
          simp only [step, respond, hd]
          split <;> rfl
        rw [hstep] at hm'
        cases hm'
        simp only [step, respond, hd]
        split
        · exact hinv.keep rfl (Nat.le_of_eq (List.length_modify ..).symm)
        · exact hinv.keep rfl (Nat.le_refl _)
      | corroborateAgentCatalog catalog =>
        simp only [step, respond, hd] at hm' ⊢
        cases hm'
        refine inv_catalog hinv _ _ (fun htrue => ?_)
        obtain ⟨hph, hlists⟩ := agentCatalogCheck_true htrue
        exact ⟨hph, rfl, rfl, Or.inl ⟨catalog, rfl, hlists⟩⟩
      | corroborateBridgedAgentCatalog catalog transportProvider =>
        simp only [step, respond, hd] at hm' ⊢
        cases hm'
        refine inv_catalog hinv _ _ (fun htrue => ?_)
        obtain ⟨hph, hlists⟩ := bridgedAgentCatalogCheck_true htrue
        exact ⟨hph, rfl, rfl, Or.inr ⟨catalog, transportProvider, rfl, hlists⟩⟩
      | corroborateActiveModel active =>
        simp only [step, respond, hd, corroborateActiveModel] at hm' ⊢
        cases hcheck : m.activeModelCheck active with
        | error e =>
          rw [hcheck] at hm'
          cases hm'
          exact hinv.keep rfl (Nat.le_refl _)
        | ok u =>
          rw [hcheck] at hm'
          cases hm'
          obtain ⟨hph, hid, hprov⟩ := activeModelCheck_ok hcheck
          exact hinv.afterActive hph ⟨rfl, rfl, active, rfl, hid.symm, hprov.symm⟩
      | beginInference =>
        simp only [step, respond, hd, beginInference] at hm' ⊢
        cases hcheck : m.requirePhase .activeModelCorroborated with
        | error e =>
          rw [hcheck] at hm'
          cases hm'
          exact hinv.keep rfl (Nat.le_refl _)
        | ok u =>
          rw [hcheck] at hm'
          cases hm'
          exact hinv.afterBegin (requirePhase_ok hcheck) rfl
      | decideFailure failure =>
        simp only [step, respond, hd] at hm' ⊢
        rcases decide_cases hinv failure with
          ⟨-, hdec⟩ | ⟨reason, -, hdec⟩ | ⟨model, -, hdec, hnext, -⟩
        · rw [hdec] at hm' ⊢
          cases hm'
          exact hinv.keep rfl (Nat.le_refl _)
        · rw [hdec] at hm' ⊢
          cases hm'
          exact hinv.afterStop rfl
        · rw [hdec] at hm' ⊢
          cases hm'
          exact hinv.afterRetry hnext rfl
      | complete turn =>
        simp only [step, respond, hd] at hm'
        cases hm'
  refine ⟨?_, hmachine⟩
  cases hd : (step d call).machine with
  | some m => exact (hmachine m hd).bounded
  | none =>
    have hquiet : (d.answer call).isRetry = false := by
      rw [Driver.answer]
      cases hm : d.machine with
      | none => exact (respond_gone d.cells call).2.1
      | some m =>
        rw [step_machine, hm] at hd
        obtain ⟨turn, rfl⟩ := respond_takes hd
        rfl
    rw [retries_step, hquiet]
    exact h.bounded

/-- The run lemma: every sequence of calls keeps the invariant. -/
theorem run_inv {policy : ResolvedModelRoutePolicy} {d : Driver} (h : DriverInv policy d)
    (calls : List Call) : DriverInv policy (Runs.play step d calls) :=
  Runs.play_invariant step (fun d call hd => inv_step policy d call hd) h calls

/-- The attempt a machine holds is the one the history counts. -/
theorem Inv.attempt_index {policy : ResolvedModelRoutePolicy} {log : List Entry}
    {cells : Progress} {m : BackendTaskStateMachine} (h : Inv policy log cells m)
    {attempt : RouteAttemptState} (hatt : m.attempt = some attempt) :
    attempt.routeIndex = retries log := by
  by_cases hph : m.phase = .stopped
  · rw [h.finished hph] at hatt; cases hatt
  · rw [h.live hph] at hatt
    cases hatt
    rfl

/-! ## Attempts that nothing follows -/

/-- The machine has stopped. -/
def Stopped (d : Driver) : Prop := ∀ m, d.machine = some m → m.phase = .stopped

/-- The live attempt runs under the observer `cell`. -/
def Watching (cell : Nat) (d : Driver) : Prop :=
  cell < d.cells.length ∧
    ∀ m, d.machine = some m → m.phase = .running ∧ m.observer = some cell

/-- No fallback can follow: the machine has stopped, or its running attempt is observed to have
    made progress. -/
def Committed (d : Driver) : Prop :=
  ∀ m, d.machine = some m → m.phase = .stopped ∨
    (m.phase = .running ∧ ∃ cell progress,
      m.observer = some cell ∧ d.cells[cell]? = some progress ∧ progress.started = true)

/-- What a call other than an observation does to a machine that is running or has stopped:
    nothing, a failure decision, or the end of the machine. -/
theorem respond_late {m : BackendTaskStateMachine} (cells : Progress) (call : Call)
    (hph : m.phase = .stopped ∨ m.phase = .running) :
    (∃ observer event, call = .observe observer event) ∨
    (∃ failure, call = .decideFailure failure) ∨
    (respond (some m) cells call).2.1 = none ∨
    (∃ answer, respond (some m) cells call = (answer, some m, cells) ∧
      answer.isDecision = false) := by
  have hne : m.phase ≠ .prepared ∧ m.phase ≠ .agentCatalogCorroborated ∧
      m.phase ≠ .activeModelCorroborated := by
    rcases hph with hph | hph <;> rw [hph] <;> simp
  have hafter : ∀ answer : Result Bool, answer ≠ .ok true →
      m.afterCatalogCheck answer = (answer, m) := by
    intro answer hanswer
    rcases answer with e | b
    · rfl
    · cases b with
      | false => rfl
      | true => exact absurd rfl hanswer
  cases call with
  | observe observer event => exact Or.inl ⟨observer, event, rfl⟩
  | decideFailure failure => exact Or.inr (Or.inl ⟨failure, rfl⟩)
  | complete turn => exact Or.inr (Or.inr (Or.inl rfl))
  | corroborateAgentCatalog catalog =>
    have hm := hafter (m.agentCatalogCheck catalog)
      (fun h => hne.1 (agentCatalogCheck_true h).1)
    exact Or.inr (Or.inr (Or.inr ⟨_, by rw [respond, corroborateAgentCatalog, hm], rfl⟩))
  | corroborateBridgedAgentCatalog catalog transportProvider =>
    have hm := hafter (m.bridgedAgentCatalogCheck catalog transportProvider)
      (fun h => hne.1 (bridgedAgentCatalogCheck_true h).1)
    exact Or.inr (Or.inr (Or.inr ⟨_, by rw [respond, corroborateBridgedAgentCatalog, hm], rfl⟩))
  | corroborateActiveModel active =>
    cases hcheck : m.activeModelCheck active with
    | error e =>
      exact Or.inr (Or.inr (Or.inr ⟨_, by rw [respond, corroborateActiveModel, hcheck], rfl⟩))
    | ok u => exact absurd (activeModelCheck_ok hcheck).1 hne.2.1
  | beginInference =>
    cases hcheck : m.requirePhase .activeModelCorroborated with
    | error e => exact Or.inr (Or.inr (Or.inr ⟨_, by rw [respond, beginInference, hcheck], rfl⟩))
    | ok u => exact absurd (requirePhase_ok hcheck) hne.2.2

/-- An observation answers without deciding, keeps the machine and never lowers a flag. -/
theorem respond_observe (machine : Option BackendTaskStateMachine) (cells : Progress)
    (observer : Nat) (event : AgentEvent) :
    (respond machine cells (.observe observer event)).1.isDecision = false ∧
    (respond machine cells (.observe observer event)).2.1 = machine ∧
    (respond machine cells (.observe observer event)).2.2 =
      cells.modify observer (fun progress => progress.observe event) := by
  rw [respond]
  by_cases hlt : observer < cells.length
  · rw [if_pos hlt]
    exact ⟨rfl, rfl, rfl⟩
  · rw [if_neg hlt]
    exact ⟨rfl, rfl, (List.modify_eq_self (Nat.le_of_not_lt hlt)).symm⟩

/-- No cell ever disappears. -/
theorem cells_mono (d : Driver) (call : Call) :
    d.cells.length ≤ (step d call).cells.length := by
  rw [step_cells]
  cases call with
  | observe observer event =>
    have hlen : (respond d.machine d.cells (.observe observer event)).2.2.length =
        d.cells.length := by
      rw [(respond_observe d.machine d.cells observer event).2.2, List.length_modify]
    exact Nat.le_of_eq hlen.symm
  | beginInference =>
    cases d.machine with
    | none => exact Nat.le_refl _
    | some m =>
      simp only [respond, beginInference]
      cases m.requirePhase .activeModelCorroborated with
      | error e => exact Nat.le_refl _
      | ok u =>
        rw [List.length_append]
        exact Nat.le_succ _
  | _ => cases d.machine <;> exact Nat.le_refl _

theorem isRetry_of_not_decision {answer : Answer} (h : answer.isDecision = false) :
    answer.isRetry = false := by
  cases hr : answer.isRetry with
  | false => rfl
  | true =>
    cases answer with
    | decided decision =>
      cases decision with
      | error e => cases hr
      | ok decision => cases h
    | _ => cases hr

/-- A started cell stays started, whatever is observed anywhere. -/
theorem started_modify {cells : Progress} {cell : Nat} {progress : AttemptProgress}
    (hcell : cells[cell]? = some progress) (hstarted : progress.started = true)
    (observer : Nat) (event : AgentEvent) :
    ∃ progress', (cells.modify observer (fun p => p.observe event))[cell]? = some progress' ∧
      progress'.started = true := by
  rw [List.getElem?_modify, hcell]
  by_cases heq : observer = cell
  · refine ⟨progress.observe event, by simp [heq], ?_⟩
    rw [AttemptProgress.started_observe, hstarted]
    rfl
  · exact ⟨progress, by simp [heq], hstarted⟩

/-- A committed attempt is never followed by a fallback, and stays committed. -/
theorem committed_step {policy : ResolvedModelRoutePolicy} {d : Driver} (call : Call)
    (hinv : DriverInv policy d) (h : Committed d) :
    Committed (step d call) ∧ (d.answer call).isRetry = false := by
  cases hd : d.machine with
  | none =>
    obtain ⟨hnone, hretry, -⟩ := respond_gone d.cells call
    refine ⟨?_, by rw [Driver.answer, hd]; exact hretry⟩
    intro m hm
    rw [step_machine, hd, hnone] at hm
    cases hm
  | some m =>
    have hm := h m hd
    have hph : m.phase = .stopped ∨ m.phase = .running := hm.imp_right And.left
    rcases respond_late d.cells call hph with
      ⟨observer, event, rfl⟩ | ⟨failure, rfl⟩ | hnone | ⟨answer, hsame, hquiet⟩
    · -- an observation: the machine is the same, a started cell stays started
      obtain ⟨hdec, hmach, hcells⟩ := respond_observe d.machine d.cells observer event
      refine ⟨?_, isRetry_of_not_decision hdec⟩
      intro m' hm'
      rw [step_machine, hmach, hd] at hm'
      cases hm'
      rcases hm with hst | ⟨hrun, cell, progress, hobs, hcell, hstarted⟩
      · exact Or.inl hst
      · obtain ⟨progress', hcell', hstarted'⟩ := started_modify hcell hstarted observer event
        exact Or.inr ⟨hrun, cell, progress', hobs, by rw [step_cells, hcells]; exact hcell',
          hstarted'⟩
    · -- a decision: refused on a stopped machine, and a stop on a running one
      have hresp : respond (some m) d.cells (.decideFailure failure) =
          (.decided (m.decideFailure d.cells failure).1,
            some (m.decideFailure d.cells failure).2, d.cells) := rfl
      rcases decide_cases (hinv.machine m hd) failure with
        ⟨hst, hdec⟩ | ⟨reason, -, hdec⟩ | ⟨model, hns, -, -, hquiet⟩
      · refine ⟨?_, by rw [Driver.answer, hd, hresp, hdec]; rfl⟩
        intro m' hm'
        rw [step_machine, hd, hresp, hdec] at hm'
        cases hm'
        exact Or.inl hst
      · refine ⟨?_, by rw [Driver.answer, hd, hresp, hdec]; rfl⟩
        intro m' hm'
        rw [step_machine, hd, hresp, hdec] at hm'
        cases hm'
        exact Or.inl rfl
      · -- the policy saw the progress, so a fallback is out of the question
        rcases hm with hst | ⟨-, cell, progress, hobs, hcell, hstarted⟩
        · exact absurd hst hns
        · rw [hobs, withObserved_started hcell hstarted] at hquiet
          cases hquiet
    · refine ⟨?_, ?_⟩
      · intro m' hm'
        rw [step_machine, hd, hnone] at hm'
        cases hm'
      · obtain ⟨turn, rfl⟩ := respond_takes hnone
        rw [Driver.answer, hd]
        rfl
    · refine ⟨?_, by rw [Driver.answer, hd, hsame]; exact isRetry_of_not_decision hquiet⟩
      intro m' hm'
      rw [step_machine, hd, hsame] at hm'
      cases hm'
      rw [step_cells, hd, hsame]
      exact hm

/-- Along a run, a committed attempt stays the last one. -/
theorem committed_run {policy : ResolvedModelRoutePolicy} {d : Driver}
    (hinv : DriverInv policy d) (h : Committed d) (calls : List Call) :
    Committed (Runs.play step d calls) ∧
      retries (Runs.play step d calls).log = retries d.log := by
  have hrun := Runs.play_invariant step
    (I := fun t => DriverInv policy t ∧ Committed t ∧ retries t.log = retries d.log)
    (fun t call ⟨hi, hc, hr⟩ => by
      obtain ⟨hc', hretry⟩ := committed_step call hi hc
      exact ⟨inv_step policy t call hi, hc', by rw [retries_step, hretry, hr]; rfl⟩)
    ⟨hinv, h, rfl⟩ calls
  exact ⟨hrun.2.1, hrun.2.2⟩

/-- A stopped machine keeps its phase. -/
theorem stopped_step {d : Driver} (call : Call) (h : Stopped d) : Stopped (step d call) := by
  intro m' hm'
  cases hd : d.machine with
  | none =>
    rw [step_machine, hd, (respond_gone d.cells call).1] at hm'
    cases hm'
  | some m =>
    have hst : m.phase = .stopped := h m hd
    rcases respond_late d.cells call (Or.inl hst) with
      ⟨observer, event, rfl⟩ | ⟨failure, rfl⟩ | hnone | ⟨answer, hsame, -⟩
    · rw [step_machine, (respond_observe d.machine d.cells observer event).2.1, hd] at hm'
      cases hm'
      exact hst
    · have hresp : (respond (some m) d.cells (.decideFailure failure)).2.1 =
          some (m.decideFailure d.cells failure).2 := rfl
      rw [step_machine, hd, hresp, decideFailure_stopped d.cells failure hst] at hm'
      cases hm'
      exact hst
    · rw [step_machine, hd, hnone] at hm'
      cases hm'
    · rw [step_machine, hd, hsame] at hm'
      cases hm'
      exact hst

/-- Until its failure is decided, a running attempt keeps its observer. -/
theorem watching_step {policy : ResolvedModelRoutePolicy} {cell : Nat} {d : Driver} (call : Call)
    (hinv : DriverInv policy d) (h : Watching cell d)
    (hundecided : (d.answer call).isDecision = false) : Watching cell (step d call) := by
  refine ⟨Nat.lt_of_lt_of_le h.1 (cells_mono d call), ?_⟩
  intro m' hm'
  cases hd : d.machine with
  | none =>
    rw [step_machine, hd, (respond_gone d.cells call).1] at hm'
    cases hm'
  | some m =>
    have hrun := h.2 m hd
    rcases respond_late d.cells call (Or.inr hrun.1) with
      ⟨observer, event, rfl⟩ | ⟨failure, rfl⟩ | hnone | ⟨answer, hsame, -⟩
    · rw [step_machine, (respond_observe d.machine d.cells observer event).2.1, hd] at hm'
      cases hm'
      exact hrun
    · -- a running machine never refuses a decision
      have hans : d.answer (.decideFailure failure) =
          .decided (m.decideFailure d.cells failure).1 := by
        rw [Driver.answer, hd]; rfl
      rw [hans] at hundecided
      rcases decide_cases (hinv.machine m hd) failure with
        ⟨hst, -⟩ | ⟨reason, -, hdec⟩ | ⟨model, -, hdec, -, -⟩
      · rw [hst] at hrun; cases hrun.1
      · rw [hdec] at hundecided; cases hundecided
      · rw [hdec] at hundecided; cases hundecided
    · rw [step_machine, hd, hnone] at hm'
      cases hm'
    · rw [step_machine, hd, hsame] at hm'
      cases hm'
      exact hrun

/-- Beginning inference makes the machine watch the cell it answered with. -/
theorem watching_of_begun {d : Driver} {cell : Nat}
    (h : d.answer .beginInference = .begun (.ok cell)) :
    Watching cell (step d .beginInference) := by
  cases hd : d.machine with
  | none => rw [Driver.answer, hd] at h; cases h
  | some m =>
    rw [Driver.answer, hd] at h
    rw [Watching, step_machine, step_cells, hd]
    simp only [respond, beginInference] at h ⊢
    cases hcheck : m.requirePhase .activeModelCorroborated with
    | error e => rw [hcheck] at h; cases h
    | ok u =>
      rw [hcheck] at h
      cases h
      refine ⟨by rw [List.length_append]; exact Nat.lt_succ_self _, ?_⟩
      intro m' hm'
      cases hm'
      exact ⟨rfl, rfl⟩

/-- Progress observed on the live attempt's own observer commits it. -/
theorem committed_of_observe {cell : Nat} {d : Driver} (h : Watching cell d)
    {event : AgentEvent} (hprogress : isProgress event = true) :
    Committed (step d (.observe cell event)) := by
  obtain ⟨-, hmach, hcells⟩ := respond_observe d.machine d.cells cell event
  intro m hm
  rw [step_machine, hmach] at hm
  obtain ⟨hrun, hobs⟩ := h.2 m hm
  have hlt : cell < d.cells.length := h.1
  have hget : d.cells[cell]? = some d.cells[cell] := List.getElem?_eq_getElem hlt
  refine Or.inr ⟨hrun, cell, d.cells[cell].observe event, hobs, ?_, ?_⟩
  · rw [step_cells, hcells, List.getElem?_modify, hget]
    simp
  · rw [AttemptProgress.started_observe, hprogress, Bool.or_true]

/-- While no failure is decided, no fallback is. -/
theorem watching_run {policy : ResolvedModelRoutePolicy} {cell : Nat} {d : Driver}
    (hinv : DriverInv policy d) (h : Watching cell d) (calls : List Call)
    (hundecided : decisions (Runs.play step d calls).log = decisions d.log) :
    Watching cell (Runs.play step d calls) ∧
      retries (Runs.play step d calls).log = retries d.log := by
  have hrun := Runs.play_invariant_const step (f := fun t => decisions t.log)
    (I := fun t => DriverInv policy t ∧ Watching cell t ∧ retries t.log = retries d.log)
    decisions_mono
    (fun t call ⟨hi, hw, hr⟩ hconst => by
      have hquiet : (t.answer call).isDecision = false := by
        rw [decisions_step] at hconst
        cases hdec : (t.answer call).isDecision with
        | false => rfl
        | true => rw [hdec, Bool.toNat_true] at hconst; omega
      refine ⟨inv_step policy t call hi, watching_step call hi hw hquiet, ?_⟩
      rw [retries_step, isRetry_of_not_decision hquiet, hr]
      rfl)
    ⟨hinv, h, rfl⟩ calls hundecided
  exact ⟨hrun.2.1, hrun.2.2⟩

/-! ## The law of the machine -/

/-- **The law of the backend task machine.**  For every resolved policy and every sequence of
    calls, accepted or rejected, with `d` the driver after `calls` and `later` any continuation:

    * the selected model is the route at the attempt index;
    * the attempt index strictly increases across fallbacks and stays inside the route list;
    * a stopped machine stays stopped, and no further attempt begins;
    * progress observed on an attempt's own observer, between `beginInference` and the first
      failure decision after it, forbids every later attempt;
    * a completed outcome names the route at its attempt index, corroborated in that attempt. -/
theorem backend_task_machine_law {taskId : BackendTaskId} {projectId : ProjectId}
    {sessionId : SessionId} {prompt : String} {policy : ResolvedModelRoutePolicy}
    {m₀ : BackendTaskStateMachine}
    (hprepare : prepare taskId projectId sessionId prompt policy = .ok m₀)
    (calls later : List Call) :
    let d := Runs.play step (Driver.start m₀) calls
    let d' := Runs.play step d later
    (∀ m, d.machine = some m →
      policy.routes[retries d.log]? = some m.selectedModel ∧
      ∀ attempt, m.attempt = some attempt → attempt.routeIndex = retries d.log) ∧
    (retries d'.log < policy.routes.length ∧
      ∀ m m' attempt attempt', d.machine = some m → d'.machine = some m' →
        m.attempt = some attempt → m'.attempt = some attempt' →
        (retries d.log < retries d'.log → attempt.routeIndex < attempt'.routeIndex) ∧
        (retries d.log = retries d'.log → attempt.routeIndex = attempt'.routeIndex) ∧
        attempt'.routeIndex < policy.routes.length) ∧
    (Stopped d → Stopped d' ∧ retries d'.log = retries d.log) ∧
    (∀ cell between event, d.answer .beginInference = .begun (.ok cell) →
      let begun := step d .beginInference
      let observing := Runs.play step begun between
      decisions observing.log = decisions begun.log → isProgress event = true →
      retries (Runs.play step (step observing (.observe cell event)) later).log =
        retries d.log) ∧
    (∀ turn outcome, d.answer (.complete turn) = .completed (.ok outcome) →
      policy.routes[outcome.attemptIndex]? = some outcome.model ∧
      outcome.attemptIndex = retries d.log ∧
      Corroborated d.log outcome.attemptIndex outcome.model) := by
  intro d d'
  have hd : DriverInv policy d := run_inv (start_inv hprepare) calls
  have hd' : DriverInv policy d' := run_inv hd later
  refine ⟨?_, ⟨hd'.bounded, ?_⟩, ?_, ?_, ?_⟩
  · intro m hm
    exact ⟨(hd.machine m hm).selected, fun _ hatt => (hd.machine m hm).attempt_index hatt⟩
  · intro m m' attempt attempt' hm hm' hatt hatt'
    have hi := (hd.machine m hm).attempt_index hatt
    have hi' := (hd'.machine m' hm').attempt_index hatt'
    have hb := hd'.bounded
    exact ⟨fun _ => by omega, fun _ => by omega, by omega⟩
  · intro hst
    refine ⟨?_, (committed_run hd (fun m hm => Or.inl (hst m hm)) later).2⟩
    exact Runs.play_invariant step (fun _ call => stopped_step call) hst later
  · intro cell between event hbegun begun observing hundecided hprogress
    have hbinv : DriverInv policy begun := inv_step policy d _ hd
    obtain ⟨hwatch, hsame⟩ :=
      watching_run hbinv (watching_of_begun hbegun) between hundecided
    have hoinv : DriverInv policy observing := run_inv hbinv between
    have hlast := committed_run (inv_step policy observing (.observe cell event) hoinv)
      (committed_of_observe hwatch hprogress) later
    have hobs : retries (step observing (.observe cell event)).log = retries observing.log := by
      rw [retries_step, Driver.answer,
        isRetry_of_not_decision (respond_observe _ _ cell event).1]
      rfl
    have hbeg : retries begun.log = retries d.log := by
      rw [show begun.log = (step d .beginInference).log from rfl, retries_step, hbegun]
      rfl
    rw [hlast.2, hobs, hsame, hbeg]
  · intro turn outcome hanswer
    cases hm : d.machine with
    | none => rw [Driver.answer, hm] at hanswer; cases hanswer
    | some m =>
      rw [Driver.answer, hm] at hanswer
      have hcomplete : m.complete turn = .ok outcome := by
        injection hanswer
      obtain ⟨hph, -, -, attempt, hatt, hidx, hmodel⟩ := complete_ok hcomplete
      have hinv := hd.machine m hm
      have hk : outcome.attemptIndex = retries d.log := by
        rw [hidx]; exact hinv.attempt_index hatt
      rw [hk, hmodel]
      exact ⟨hinv.selected, rfl, hinv.active (Or.inr hph)⟩

/-- Two routes, with fallback on a timeout. -/
def twoRoutes : ResolvedModelRoutePolicy :=
  { routes := [⟨"gpt-a", none, some "openai"⟩, ⟨"gpt-b", none, some "openai"⟩]
    fallbackOn := [.timeout]
    fallbackBoundary := .beforeResponseOnly
    nonempty := by decide
    bounded := by decide
    distinct := by decide }

/-- After one fallback the second route is selected, and the index is still inside the list. -/
theorem backend_task_machine_law_twoRoutes :
    ∃ m₀, prepare ⟨1⟩ ⟨2⟩ ⟨"session_1"⟩ "build it" twoRoutes = .ok m₀ ∧
      retries (Runs.play step (Driver.start m₀) [.decideFailure .timeout]).log = 1 ∧
      retries (Runs.play step (Runs.play step (Driver.start m₀) [.decideFailure .timeout])
        [.decideFailure .timeout]).log < twoRoutes.routes.length := by
  have hprepare : ∃ m₀, prepare ⟨1⟩ ⟨2⟩ ⟨"session_1"⟩ "build it" twoRoutes = .ok m₀ := ⟨_, rfl⟩
  obtain ⟨m₀, h⟩ := hprepare
  refine ⟨m₀, h, ?_, ?_⟩
  · cases h
    decide
  · exact (backend_task_machine_law h [.decideFailure .timeout] [.decideFailure .timeout]).2.1.1

end VibeCoder.TaskRuns
