/-
  The permission broker of the Jcode adapter (`vibecoder-agent-jcode/src/permission.rs`).

  A prompt of the running turn is registered under its request id; an answer is given in two
  steps, `beginResponse` before the network call and `completeResponse` (or `abortResponse`)
  after it, with no lock held in between.

  The `HashMap` and the two `HashSet`s are lists.  What makes the pending list a map is a field
  of the state: no two entries have the same request id.  A `PendingPermission` carries, besides
  the request shown to the user, the scope a standing grant would have; the two agree by
  construction, which is a field as well.

  Left out: the poisoned-lock errors (no critical section of the broker can panic).
-/
import VibeCoder.Domain

namespace VibeCoder

def maxRequestIdBytes : Nat := 256
def maxActionBytes : Nat := 256
def maxDescriptionBytes : Nat := 16 * 1024
def maxPermissionRequestsPerTurn : Nat := 256

/-- `PermissionIdentity`. -/
structure PermissionIdentity where
  sessionId : String
  requestId : String
  connectionGeneration : Nat
  deriving DecidableEq, Repr

/-- `SessionGrantKey`: the scope of a standing grant. -/
structure SessionGrantKey where
  sessionId : String
  action : String
  description : String
  deriving DecidableEq, Repr

/-- `(!description.trim().is_empty()).then(|| description)`. -/
def reasonOf (description : String) : Option String :=
  if blank description then none else some description

/-- `PendingPermission`; the request and the scope speak of the same session and action, and the
    reason shown is the scope's description. -/
structure PendingPermission where
  request : PermissionRequest
  connectionGeneration : Nat
  scopeKey : SessionGrantKey
  responding : Bool
  scope_session : scopeKey.sessionId = request.sessionId.value
  scope_action : scopeKey.action = request.action
  scope_reason : request.reason = reasonOf scopeKey.description

namespace PendingPermission

/-- `PendingPermission::identity`. -/
def identity (p : PendingPermission) : PermissionIdentity :=
  { sessionId := p.request.sessionId.value
    requestId := p.request.requestId
    connectionGeneration := p.connectionGeneration }

/-- The key of an entry in `pending_by_request_id`. -/
def key (p : PendingPermission) : String := p.request.requestId

/-- The entry with its `responding` flag set. -/
def setResponding (p : PendingPermission) (responding : Bool) : PendingPermission :=
  { p with responding := responding }

@[simp] theorem setResponding_key (p : PendingPermission) (b : Bool) :
    (p.setResponding b).key = p.key := rfl

@[simp] theorem setResponding_scopeKey (p : PendingPermission) (b : Bool) :
    (p.setResponding b).scopeKey = p.scopeKey := rfl

end PendingPermission

/-- `PermissionObservation`. -/
inductive PermissionObservation where
  | prompt (request : PermissionRequest)
  | autoApprove (pending : PendingPermission)

/-- `PermissionState`. -/
structure PermissionState where
  pending : List PendingPermission
  resolvedThisTurn : List PermissionIdentity
  sessionGrants : List SessionGrantKey
  distinct : (pending.map PendingPermission.key).Nodup

namespace PermissionState

/-- `PermissionState::default()`. -/
def empty : PermissionState :=
  { pending := [], resolvedThisTurn := [], sessionGrants := [], distinct := List.nodup_nil }

/-- `pending_by_request_id.get(request_id)`. -/
def get (s : PermissionState) (requestId : String) : Option PendingPermission :=
  s.pending.find? (fun p => p.key == requestId)

/-- `insert` of a request id that is not registered. -/
def insertNew (s : PermissionState) (p : PendingPermission)
    (hnew : p.key ∉ s.pending.map PendingPermission.key) : PermissionState :=
  { s with
    pending := p :: s.pending
    distinct := by rw [List.map_cons, List.nodup_cons]; exact ⟨hnew, s.distinct⟩ }

/-- `get_mut(request_id)` followed by setting `responding`. -/
def setResponding (s : PermissionState) (requestId : String) (responding : Bool) :
    PermissionState :=
  { s with
    pending := s.pending.map
      (fun p => if p.key = requestId then p.setResponding responding else p)
    distinct := by
      have hkeys : (PendingPermission.key ∘ fun p : PendingPermission =>
          if p.key = requestId then p.setResponding responding else p) =
          PendingPermission.key := by
        funext p
        rw [Function.comp_apply]
        split
        · exact p.setResponding_key responding
        · rfl
      rw [List.map_map, hkeys]
      exact s.distinct }

/-- `retain` on the pending entries; `remove` is the case of one request id. -/
def retain (s : PermissionState) (keep : PendingPermission → Bool) : PermissionState :=
  { s with
    pending := s.pending.filter keep
    distinct := (List.filter_sublist.map _).nodup s.distinct }

end PermissionState

/-! ## Validation -/

/-- `request_id_is_safe_for_response`. -/
def requestIdIsSafeForResponse (value : String) : Bool :=
  !blank value && decide (len value ≤ maxRequestIdBytes) && !hasControl value

/-- `validate_request_id`. -/
def validateRequestId (value : String) : Result Unit :=
  if !requestIdIsSafeForResponse value then
    .error (.invalidRequest "permission request id has an invalid format")
  else .ok ()

/-- `validate_action`. -/
def validateAction (value : String) : Result Unit :=
  if blank value || decide (len value > maxActionBytes) || hasControl value then
    .error (.agent "Jcode permission request reported an invalid action")
  else .ok ()

/-- `validate_description`: control characters other than `\n`, `\r` and `\t` are refused. -/
def validateDescription (value : String) : Result Unit :=
  if decide (len value > maxDescriptionBytes) ||
      value.toList.any (fun ch => isControl ch && !(ch == '\n' || ch == '\r' || ch == '\t')) then
    .error (.agent "Jcode permission request description is invalid or too large")
  else .ok ()

/-! ## The registry -/

namespace PermissionState

/-- The three validations at the head of `observe_request`. -/
def validateObserved (requestId action description : String) : Result Unit := do
  validateRequestId requestId
  validateAction action
  validateDescription description

/-- The entry `observe_request` registers. -/
def entryOf (sessionId : SessionId) (generation : Nat) (requestId action description : String)
    (responding : Bool) : PendingPermission :=
  { request := {
      requestId := requestId
      sessionId := sessionId
      action := action
      reason := reasonOf description }
    connectionGeneration := generation
    scopeKey := { sessionId := sessionId.value, action := action, description := description }
    responding := responding
    scope_session := rfl
    scope_action := rfl
    scope_reason := rfl }

/-- `observe_request`: a request already covered by a standing grant is answered at once, any
    other one prompts. -/
def observeRequest (s : PermissionState) (sessionId : SessionId) (generation : Nat)
    (requestId action description : String) :
    Result PermissionObservation × PermissionState :=
  match validateObserved requestId action description with
  | .error e => (.error e, s)
  | .ok () =>
    let granted := decide ((entryOf sessionId generation requestId action description
      false).scopeKey ∈ s.sessionGrants)
    let entry := entryOf sessionId generation requestId action description granted
    if hdup : requestId ∈ s.pending.map PendingPermission.key ∨
        entry.identity ∈ s.resolvedThisTurn then
      (.error (.agent "Jcode repeated a permission request id within the active turn"), s)
    else if s.pending.length + s.resolvedThisTurn.length ≥ maxPermissionRequestsPerTurn then
      (.error (.agent "Jcode exceeded the permission-request budget for one turn"), s)
    else
      (.ok (if granted then .autoApprove entry else .prompt entry.request),
        s.insertNew entry (fun hin => hdup (Or.inl hin)))

/-- `begin_response`: the entry is reserved, and the answer works on a copy of it. -/
def beginResponse (s : PermissionState) (sessionId : SessionId) (requestId : String)
    (generation : Nat) : Result PendingPermission × PermissionState :=
  match validateRequestId requestId with
  | .error e => (.error e, s)
  | .ok () =>
    match s.get requestId with
    | none =>
      (.error (.invalidRequest
        "permission request is unknown, already resolved, or no longer active"), s)
    | some pending =>
      if pending.request.sessionId ≠ sessionId ∨ pending.connectionGeneration ≠ generation then
        (.error (.invalidRequest
          "permission request does not belong to this active session/connection"), s)
      else if pending.responding then
        (.error (.invalidRequest
          "permission request already has a response in progress"), s)
      else (.ok (pending.setResponding true), s.setResponding requestId true)

/-- `complete_response`: the entry registered under the same identity is removed, and what is
    granted is the scope of that entry. -/
def completeResponse (s : PermissionState) (pending : PendingPermission)
    (decision : PermissionDecision) : Result Unit × PermissionState :=
  match s.get pending.key with
  | none =>
    (.error (.agent "permission response acknowledgement lost its pending request"), s)
  | some current =>
    if current.identity ≠ pending.identity ∨ current.responding = false then
      (.error (.agent
        "permission response acknowledgement no longer matches the active request"), s)
    else
      let removed := s.retain (fun p => p.key ≠ pending.key)
      let resolved := { removed with
        resolvedThisTurn := removed.resolvedThisTurn.insert current.identity }
      (.ok (), if decision = .allowSession then
        { resolved with sessionGrants := resolved.sessionGrants.insert current.scopeKey }
        else resolved)

/-- `abort_response`. -/
def abortResponse (s : PermissionState) (pending : PendingPermission) : PermissionState :=
  match s.get pending.key with
  | none => s
  | some current =>
    if current.identity = pending.identity then s.setResponding pending.key false else s

/-- `finish_turn`: everything the turn registered or resolved is forgotten; the standing grants
    stay. -/
def finishTurn (s : PermissionState) (sessionId : SessionId) (generation : Nat) :
    PermissionState :=
  let kept := s.retain
    (fun p => p.request.sessionId ≠ sessionId ∨ p.connectionGeneration ≠ generation)
  { kept with
    resolvedThisTurn := kept.resolvedThisTurn.filter
      (fun i => i.sessionId ≠ sessionId.value ∨ i.connectionGeneration ≠ generation) }

/-! ## What each operation does to the standing grants -/

/-- Observing a request grants nothing. -/
theorem observeRequest_grants (s : PermissionState) (sessionId : SessionId) (generation : Nat)
    (requestId action description : String) :
    (s.observeRequest sessionId generation requestId action description).2.sessionGrants =
      s.sessionGrants := by
  rw [observeRequest]
  cases validateObserved requestId action description with
  | error e => rfl
  | ok u =>
    dsimp only
    split
    · rfl
    · split
      · rfl
      · rfl

/-- Beginning a response grants nothing. -/
theorem beginResponse_grants (s : PermissionState) (sessionId : SessionId) (requestId : String)
    (generation : Nat) :
    (s.beginResponse sessionId requestId generation).2.sessionGrants = s.sessionGrants := by
  rw [beginResponse]
  cases validateRequestId requestId with
  | error e => rfl
  | ok u =>
    cases s.get requestId with
    | none => rfl
    | some pending =>
      dsimp only
      split
      · rfl
      · split
        · rfl
        · rfl

/-- Aborting a response grants nothing. -/
theorem abortResponse_grants (s : PermissionState) (pending : PendingPermission) :
    (s.abortResponse pending).sessionGrants = s.sessionGrants := by
  rw [abortResponse]
  cases s.get pending.key with
  | none => rfl
  | some current =>
    dsimp only
    split
    · rfl
    · rfl

/-- Completing a response grants nothing new, except when the decision is `AllowSession` and the
    entry now registered under the response's identity is being answered: then exactly that
    entry's scope. -/
theorem completeResponse_grants {s : PermissionState} {pending : PendingPermission}
    {decision : PermissionDecision} {key : SessionGrantKey}
    (h : key ∈ (s.completeResponse pending decision).2.sessionGrants) :
    key ∈ s.sessionGrants ∨
      (decision = .allowSession ∧ ∃ current, s.get pending.key = some current ∧
        current.identity = pending.identity ∧ current.responding = true ∧
        current.scopeKey = key) := by
  rw [completeResponse] at h
  cases hget : s.get pending.key with
  | none => rw [hget] at h; exact Or.inl h
  | some current =>
    rw [hget] at h
    dsimp only at h
    split at h
    · exact Or.inl h
    · rename_i hmatch
      push Not at hmatch
      by_cases hdec : decision = .allowSession
      · rw [if_pos hdec] at h
        rcases List.mem_insert_iff.mp h with rfl | hold
        · exact Or.inr ⟨hdec, current, rfl, hmatch.1, by simpa using hmatch.2, rfl⟩
        · exact Or.inl hold
      · rw [if_neg hdec] at h
        exact Or.inl h

/-- Conversely, an `AllowSession` answer that completes grants whatever scope is registered under
    its identity at that moment. -/
theorem completeResponse_grants_current {s : PermissionState}
    {pending current : PendingPermission} (hget : s.get pending.key = some current)
    (hid : current.identity = pending.identity) (hresp : current.responding = true) :
    current.scopeKey ∈ (s.completeResponse pending .allowSession).2.sessionGrants := by
  have hmatch : ¬ (current.identity ≠ pending.identity ∨ current.responding = false) := by
    rw [hid, hresp]; simp
  rw [completeResponse, hget]
  dsimp only
  rw [if_neg hmatch, if_pos rfl]
  exact List.mem_insert_self

/-- Only a granted scope is answered without a prompt. -/
theorem observeRequest_autoApprove {s : PermissionState} {sessionId : SessionId}
    {generation : Nat} {requestId action description : String} {pending : PendingPermission}
    (h : (s.observeRequest sessionId generation requestId action description).1 =
      .ok (.autoApprove pending)) : pending.scopeKey ∈ s.sessionGrants := by
  rw [observeRequest] at h
  cases hv : validateObserved requestId action description with
  | error e => rw [hv] at h; cases h
  | ok u =>
    rw [hv] at h
    dsimp only at h
    split at h
    · cases h
    · split at h
      · cases h
      · rename_i hdup hbudget
        split at h
        · rename_i hgranted
          cases h
          exact of_decide_eq_true hgranted
        · cases h

/-! ## What each operation does to the registered requests -/

theorem mem_setResponding {s : PermissionState} {requestId : String} {b : Bool}
    {p : PendingPermission} (h : p ∈ (s.setResponding requestId b).pending) :
    (p ∈ s.pending ∧ p.key ≠ requestId) ∨
      ∃ q ∈ s.pending, q.key = requestId ∧ p = q.setResponding b := by
  obtain ⟨q, hq, hp⟩ := List.mem_map.mp h
  split at hp
  · rename_i hkey
    exact Or.inr ⟨q, hq, hkey, hp.symm⟩
  · rename_i hkey
    subst hp
    exact Or.inl ⟨hq, hkey⟩

theorem mem_of_get {s : PermissionState} {requestId : String} {p : PendingPermission}
    (h : s.get requestId = some p) : p ∈ s.pending ∧ p.key = requestId :=
  ⟨List.mem_of_find?_eq_some h, by simpa using List.find?_some h⟩

/-- A refused observation registers nothing; any other one registers just this request. -/
theorem observeRequest_cases (s : PermissionState) (sessionId : SessionId) (generation : Nat)
    (requestId action description : String) :
    (∃ e, s.observeRequest sessionId generation requestId action description = (.error e, s)) ∨
      (∃ registry, s.observeRequest sessionId generation requestId action description =
          (.ok (.prompt (entryOf sessionId generation requestId action description false).request),
            registry) ∧
        requestId ∉ s.pending.map PendingPermission.key ∧ registry.pending =
          entryOf sessionId generation requestId action description false :: s.pending) ∨
      ∃ registry, s.observeRequest sessionId generation requestId action description =
          (.ok (.autoApprove (entryOf sessionId generation requestId action description true)),
            registry) ∧
        requestId ∉ s.pending.map PendingPermission.key ∧ registry.pending =
          entryOf sessionId generation requestId action description true :: s.pending := by
  unfold observeRequest
  cases validateObserved requestId action description with
  | error e => exact Or.inl ⟨e, rfl⟩
  | ok u =>
    dsimp only
    split
    · exact Or.inl ⟨_, rfl⟩
    · split
      · exact Or.inl ⟨_, rfl⟩
      · rename_i hdup hbudget
        have hnew : requestId ∉ s.pending.map PendingPermission.key := fun h => hdup (Or.inl h)
        by_cases hgranted : (entryOf sessionId generation requestId action description
            false).scopeKey ∈ s.sessionGrants
        · simp only [hgranted, decide_true, if_true]
          exact Or.inr (Or.inr ⟨_, rfl, hnew, rfl⟩)
        · simp only [hgranted, decide_false, Bool.false_eq_true, if_false]
          exact Or.inr (Or.inl ⟨_, rfl, hnew, rfl⟩)

/-- A response begins only on a request of its own session that nobody is answering. -/
theorem beginResponse_cases (s : PermissionState) (sessionId : SessionId) (requestId : String)
    (generation : Nat) :
    (∃ e, s.beginResponse sessionId requestId generation = (.error e, s)) ∨
      ∃ current ∈ s.pending, current.key = requestId ∧ current.request.sessionId = sessionId ∧
        current.responding = false ∧ s.beginResponse sessionId requestId generation =
          (.ok (current.setResponding true), s.setResponding requestId true) := by
  unfold beginResponse
  cases validateRequestId requestId with
  | error e => exact Or.inl ⟨e, rfl⟩
  | ok u =>
    cases hget : s.get requestId with
    | none => exact Or.inl ⟨_, rfl⟩
    | some current =>
      dsimp only
      split
      · exact Or.inl ⟨_, rfl⟩
      · split
        · exact Or.inl ⟨_, rfl⟩
        · rename_i hown hfree
          push Not at hown
          obtain ⟨hmem, hkey⟩ := mem_of_get hget
          exact Or.inr ⟨current, hmem, hkey, hown.1, by simpa using hfree, rfl⟩

/-- A completed response registers nothing. -/
theorem mem_completeResponse {s : PermissionState} {pending p : PendingPermission}
    {decision : PermissionDecision}
    (h : p ∈ (s.completeResponse pending decision).2.pending) : p ∈ s.pending := by
  unfold completeResponse at h
  cases hget : s.get pending.key with
  | none => rw [hget] at h; exact h
  | some current =>
    rw [hget] at h
    dsimp only at h
    split at h
    · exact h
    · have hretained : p ∈ (s.retain (fun p => p.key ≠ pending.key)).pending := by
        split at h
        · exact h
        · exact h
      exact List.mem_of_mem_filter hretained

/-- An aborted response releases the request registered under its identity, if there is one. -/
theorem abortResponse_cases (s : PermissionState) (pending : PendingPermission) :
    s.abortResponse pending = s ∨
      (∃ current ∈ s.pending, current.key = pending.key ∧ current.identity = pending.identity ∧
        s.abortResponse pending = s.setResponding pending.key false) := by
  unfold abortResponse
  cases hget : s.get pending.key with
  | none => exact Or.inl rfl
  | some current =>
    dsimp only
    split
    · rename_i hid
      obtain ⟨hmem, hkey⟩ := mem_of_get hget
      exact Or.inr ⟨current, hmem, hkey, hid, rfl⟩
    · exact Or.inl rfl

theorem mem_finishTurn {s : PermissionState} {sessionId : SessionId} {generation : Nat}
    {p : PendingPermission} (h : p ∈ (s.finishTurn sessionId generation).pending) :
    p ∈ s.pending :=
  List.mem_of_mem_filter h

end PermissionState

end VibeCoder
