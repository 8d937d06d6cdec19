/-
  Runs of the permission broker: turns, prompts, answers and their acknowledgements, in any
  order.

  One event is one critical section of the source.  The network call of an answer lies BETWEEN
  two events: `respond` reserves the request, and `acknowledge` or `fail` settles the answer at
  any later time, also after its turn has finished and another turn of the same session and
  connection has begun.  The worker of an abandoned turn keeps delivering prompts, so `observe`
  is not tied to the active turn.

  The ghost `answers` keeps every answer a user gave to a registered request.  The law one wants
  — a standing grant exists only for a scope that was answered `AllowSession` — holds of every
  run in which no late `AllowSession` acknowledgement meets a DIFFERENT request under its own
  identity (`grants_follow_answers`).  Request ids may be reused by a later turn, and then the
  acknowledgement grants the scope of the newer request (`reused_identity_grants`).
-/
import VibeCoder.Lib.Run
import VibeCoder.Permission

namespace VibeCoder.PermissionRuns

open PermissionState

/-- `ActiveTurn`, the slot of the `TurnRegistry`. -/
structure ActiveTurn where
  sessionId : SessionId
  connectionGeneration : Nat
  workerFinished : Bool
  deriving DecidableEq, Repr

/-- An answer between its reservation and its acknowledgement. -/
structure Response where
  pending : PendingPermission
  decision : PermissionDecision

/-- The broker, the active turn and the answers on the wire; `answers` is a ghost. -/
structure Broker where
  registry : PermissionState
  active : Option ActiveTurn
  inFlight : List Response
  answers : List Response

inductive Event where
  /-- `TurnRegistry::begin`. -/
  | beginTurn (sessionId : SessionId) (generation : Nat)
  /-- A `PermissionRequest` reaches the callback of a turn's worker. -/
  | observe (sessionId : SessionId) (generation : Nat) (requestId action description : String)
  /-- `mark_worker_finished`. -/
  | workerFinished (sessionId : SessionId) (generation : Nat)
  /-- `respond_to_permission` up to the network call; `verified` is the outcome of its checks of
      the connection, the capability and the session binding. -/
  | respond (sessionId : SessionId) (requestId : String) (decision : PermissionDecision)
      (verified : Bool)
  /-- The network call of an answer returned `Ok`. -/
  | acknowledge (response : Nat)
  /-- The network call of an answer failed. -/
  | fail (response : Nat)
  /-- The lease of a turn is completed or dropped. -/
  | finishTurn (sessionId : SessionId) (generation : Nat)

/-- `PermissionRegistry::new()` and an idle connection. -/
def Broker.new : Broker :=
  { registry := PermissionState.empty, active := none, inFlight := [], answers := [] }

/-- The turn `active_generation` finds: the session's own, while its worker runs. -/
def Broker.activeGeneration (b : Broker) (sessionId : SessionId) : Option Nat :=
  match b.active with
  | some turn =>
    if turn.sessionId = sessionId ∧ turn.workerFinished = false then
      some turn.connectionGeneration
    else none
  | none => none

/-- One critical section. -/
def step (b : Broker) : Event → Broker
  | .beginTurn sessionId generation =>
    match b.active with
    | some _ => b
    | none =>
      { b with active := some {
          sessionId := sessionId
          connectionGeneration := generation
          workerFinished := false } }
  | .observe sessionId generation requestId action description =>
    match b.registry.observeRequest sessionId generation requestId action description with
    | (.error _, registry) => { b with registry := registry }
    | (.ok (.prompt _), registry) => { b with registry := registry }
    | (.ok (.autoApprove pending), registry) =>
      -- the callback answers by itself, with a single-use `Allow`
      { b with
        registry := registry
        inFlight := b.inFlight ++ [{ pending := pending, decision := .allowOnce }] }
  | .workerFinished sessionId generation =>
    match b.active with
    | some turn =>
      if turn.sessionId = sessionId ∧ turn.connectionGeneration = generation then
        { b with active := some { turn with workerFinished := true } }
      else b
    | none => b
  | .respond sessionId requestId decision verified =>
    match b.activeGeneration sessionId with
    | none => b
    | some generation =>
      if verified = false then b
      else
        match b.registry.beginResponse sessionId requestId generation with
        | (.error _, registry) => { b with registry := registry }
        | (.ok pending, registry) =>
          { b with
            registry := registry
            inFlight := b.inFlight ++ [{ pending := pending, decision := decision }]
            answers := b.answers ++ [{ pending := pending, decision := decision }] }
  | .acknowledge response =>
    match b.inFlight[response]? with
    | none => b
    | some r =>
      { b with
        registry := (b.registry.completeResponse r.pending r.decision).2
        inFlight := b.inFlight.eraseIdx response }
  | .fail response =>
    match b.inFlight[response]? with
    | none => b
    | some r =>
      { b with
        registry := b.registry.abortResponse r.pending
        inFlight := b.inFlight.eraseIdx response }
  | .finishTurn sessionId generation =>
    { b with
      registry := b.registry.finishTurn sessionId generation
      active := b.active.filter (fun turn =>
        !(turn.sessionId == sessionId && turn.connectionGeneration == generation)) }

/-! ## Grants follow answers -/

/-- A user answered `AllowSession` to a request of exactly this scope. -/
def AnsweredAllowSession (b : Broker) (key : SessionGrantKey) : Prop :=
  ∃ answer ∈ b.answers, answer.decision = .allowSession ∧ answer.pending.scopeKey = key

/-- Every standing grant was answered. -/
def GrantsAnswered (b : Broker) : Prop :=
  ∀ key ∈ b.registry.sessionGrants, AnsweredAllowSession b key

/-- An `AllowSession` answer that is acknowledged now finds, if it finds a request being answered
    under its own identity, one of the same action and description. -/
def MeetsOwnRequest (b : Broker) : Event → Prop
  | .acknowledge response =>
    ∀ r current, b.inFlight[response]? = some r → r.decision = .allowSession →
      b.registry.get r.pending.key = some current → current.identity = r.pending.identity →
      current.responding = true → current.scopeKey = r.pending.scopeKey
  | _ => True

/-- What carries the law along a run: the `AllowSession` answers still on the wire were given by
    a user too. -/
structure Inv (b : Broker) : Prop where
  grants : GrantsAnswered b
  wire : ∀ r ∈ b.inFlight, r.decision = .allowSession → AnsweredAllowSession b r.pending.scopeKey

theorem Inv.mono {b b' : Broker} (h : Inv b)
    (hgrants : b'.registry.sessionGrants = b.registry.sessionGrants)
    (hwire : ∀ r ∈ b'.inFlight, r ∈ b.inFlight ∨ r.decision ≠ .allowSession)
    (hanswers : b'.answers = b.answers) : Inv b' := by
  have hans : ∀ key, AnsweredAllowSession b key → AnsweredAllowSession b' key := by
    intro key hkey
    rw [AnsweredAllowSession, hanswers]
    exact hkey
  refine ⟨fun key hkey => hans key (h.grants key (hgrants ▸ hkey)), fun r hr hdec => ?_⟩
  rcases hwire r hr with hold | hne
  · exact hans _ (h.wire r hold hdec)
  · exact absurd hdec hne

/-- **Step lemma.** -/
theorem inv_step (b : Broker) (event : Event) (h : Inv b) (hok : MeetsOwnRequest b event) :
    Inv (step b event) := by
  cases event with
  | beginTurn sessionId generation =>
    rw [step]
    cases b.active with
    | some turn => exact h
    | none => exact h.mono rfl (fun r hr => Or.inl hr) rfl
  | observe sessionId generation requestId action description =>
    rw [step]
    have hgrants := b.registry.observeRequest_grants sessionId generation requestId action
      description
    rcases hobs : b.registry.observeRequest sessionId generation requestId action description
      with ⟨observation, registry⟩
    rw [hobs] at hgrants
    match observation with
    | .error e => exact h.mono hgrants (fun r hr => Or.inl hr) rfl
    | .ok (.prompt request) => exact h.mono hgrants (fun r hr => Or.inl hr) rfl
    | .ok (.autoApprove pending) =>
      refine h.mono hgrants (fun r hr => ?_) rfl
      rcases List.mem_append.mp hr with hold | hnew
      · exact Or.inl hold
      · rw [List.mem_singleton.mp hnew]
        exact Or.inr (by simp)
  | workerFinished sessionId generation =>
    rw [step]
    cases b.active with
    | none => exact h
    | some turn =>
      dsimp only
      split
      · exact h.mono rfl (fun r hr => Or.inl hr) rfl
      · exact h
  | respond sessionId requestId decision verified =>
    rw [step]
    cases b.activeGeneration sessionId with
    | none => exact h
    | some generation =>
      dsimp only
      split
      · exact h
      · have hgrants := b.registry.beginResponse_grants sessionId requestId generation
        rcases hbegin : b.registry.beginResponse sessionId requestId generation
          with ⟨answer, registry⟩
        rw [hbegin] at hgrants
        match answer with
        | .error e => exact h.mono hgrants (fun r hr => Or.inl hr) rfl
        | .ok pending =>
          -- the new answer is on the wire and among the answers at the same time
          have hans : ∀ key, AnsweredAllowSession b key →
              AnsweredAllowSession { b with
                registry := registry
                inFlight := b.inFlight ++ [{ pending := pending, decision := decision }]
                answers := b.answers ++ [{ pending := pending, decision := decision }] } key := by
            intro key hkey
            obtain ⟨a, ha, hdec, hscope⟩ := hkey
            exact ⟨a, List.mem_append_left _ ha, hdec, hscope⟩
          refine ⟨fun key hkey => hans key (h.grants key (hgrants ▸ hkey)),
            fun r hr hdec => ?_⟩
          rcases List.mem_append.mp hr with hold | hnew
          · exact hans _ (h.wire r hold hdec)
          · exact ⟨r, List.mem_append_right _ hnew, hdec, rfl⟩
  | acknowledge response =>
    rw [step]
    cases hget : b.inFlight[response]? with
    | none => exact h
    | some r =>
      have hmem : r ∈ b.inFlight := List.mem_of_getElem? hget
      refine ⟨fun key hkey => ?_, fun r' hr' hdec => ?_⟩
      · rcases completeResponse_grants hkey with hold | ⟨hdec, current, hcur, hid, hresp, hscope⟩
        · exact h.grants key hold
        · -- the scope granted is the one registered now; by the discipline it is the answer's own
          have hown : current.scopeKey = r.pending.scopeKey :=
            hok r current hget hdec hcur hid hresp
          have hans : AnsweredAllowSession b r.pending.scopeKey := h.wire r hmem hdec
          rw [← hscope, hown]
          exact hans
      · exact h.wire r' (List.mem_of_mem_eraseIdx hr') hdec
  | fail response =>
    rw [step]
    cases hget : b.inFlight[response]? with
    | none => exact h
    | some r =>
      exact h.mono (b.registry.abortResponse_grants r.pending)
        (fun r' hr' => Or.inl (List.mem_of_mem_eraseIdx hr')) rfl
  | finishTurn sessionId generation => exact h.mono rfl (fun r hr => Or.inl hr) rfl

/-- **Grants follow answers.**  In every run in which each acknowledged `AllowSession` answer
    meets its own request, every standing grant is for a scope a user answered `AllowSession`. -/
theorem grants_follow_answers (events : List Event)
    (hok : Runs.Disciplined step MeetsOwnRequest Broker.new events) :
    GrantsAnswered (Runs.play step Broker.new events) :=
  (Runs.play_disciplined step inv_step
    ⟨fun _ hkey => absurd hkey List.not_mem_nil,
      fun _ hr => absurd hr List.not_mem_nil⟩ hok).grants

/-- The first request is granted for the session and asked again without a prompt; the second one
    is only registered. -/
def answeredForSession : List Event :=
  [ .beginTurn ⟨"session_1"⟩ 7,
    .observe ⟨"session_1"⟩ 7 "req-1" "bash" "run tests",
    .respond ⟨"session_1"⟩ "req-1" .allowSession true,
    .acknowledge 0,
    .observe ⟨"session_1"⟩ 7 "req-2" "bash" "install packages" ]

theorem grants_follow_answers_answeredForSession :
    GrantsAnswered (Runs.play step Broker.new answeredForSession) := by
  refine grants_follow_answers answeredForSession
    ⟨trivial, trivial, trivial, ?_, trivial, trivial⟩
  intro r current hr _ hget _ _
  -- the only answer on the wire is the one to the only registered request
  cases hr
  cases hget
  rfl

/-- What a late acknowledgement does when its identity is registered again: it grants the scope
    of the request registered NOW. -/
theorem reused_identity_grants (b : Broker) {response : Nat} {r : Response}
    {current : PendingPermission} (hr : b.inFlight[response]? = some r)
    (hdec : r.decision = .allowSession) (hget : b.registry.get r.pending.key = some current)
    (hid : current.identity = r.pending.identity) (hresp : current.responding = true) :
    current.scopeKey ∈ (step b (.acknowledge response)).registry.sessionGrants := by
  rw [step, hr]
  dsimp only
  rw [hdec]
  exact completeResponse_grants_current hget hid hresp

/-- A turn ends while its `AllowSession` answer is on the wire; the next turn reuses the request
    id for another command, which the user allows once. -/
def lateAcknowledgement : List Event :=
  [ .beginTurn ⟨"session_1"⟩ 7,
    .observe ⟨"session_1"⟩ 7 "req-1" "bash" "run tests",
    .respond ⟨"session_1"⟩ "req-1" .allowSession true,
    .finishTurn ⟨"session_1"⟩ 7,
    .beginTurn ⟨"session_1"⟩ 7,
    .observe ⟨"session_1"⟩ 7 "req-1" "bash" "rm -rf build",
    .respond ⟨"session_1"⟩ "req-1" .allowOnce true,
    .acknowledge 0 ]

/-- After that run there is a standing grant nobody gave. -/
theorem not_every_grant_answered :
    ¬ ∀ events : List Event, GrantsAnswered (Runs.play step Broker.new events) := by
  intro h
  have hgrant : (⟨"session_1", "bash", "rm -rf build"⟩ : SessionGrantKey) ∈
      (Runs.play step Broker.new lateAcknowledgement).registry.sessionGrants := by decide
  obtain ⟨answer, hmem, hdec, hscope⟩ := h lateAcknowledgement _ hgrant
  have hscopes : ∀ scope ∈ ((Runs.play step Broker.new lateAcknowledgement).answers.filter
      (fun a => a.decision = .allowSession)).map (fun a => a.pending.scopeKey),
      scope = ⟨"session_1", "bash", "run tests"⟩ := by decide
  have hthis := hscopes answer.pending.scopeKey
    (List.mem_map_of_mem (List.mem_filter.mpr ⟨hmem, by simpa using hdec⟩))
  rw [hscope] at hthis
  exact absurd hthis (by decide)

end VibeCoder.PermissionRuns
