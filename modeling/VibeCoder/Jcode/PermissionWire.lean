/-
  Permission decisions on their way to Jcode (`run_options` and `fail_permission_protocol` of
  `turn.rs`, `respond_to_permission` of `runtime.rs`), over the broker of `permission.rs` and the
  turns of `TurnRuns`.

  Three parties send decisions: a user's response, the callback of the worker under a standing
  grant, and the same callback when it fails closed.  Each send is one entry of `wire`, answered
  at any later time; the critical sections before and after it are events of their own, so that
  turns may end, requests may be repeated and other decisions may be sent in between.

  1. **What Jcode hears.**  Upstream a decision carries a session and a request id only.  A
     delivered decision therefore concerns the request of the turn it was meant for (`turn`), and
     the request of the turn that observed this id last (`heard`): the two differ when a late
     decision arrives after another turn has observed the same id.

  2. **The law** (`OneDecision`) — of the decisions that concern one request at most one is
     delivered, and no `Allow` after a `Deny`.

  3. **When it holds** (`one_decision_law`) — the reservation in the broker coordinates user
     responses and standing grants in every order; the callback's fail-closed denial, a repeated
     request id and the release after a failed call are not coordinated, and the law holds in
     every run in which these meet only untouched requests.
-/
import Mathlib.Data.List.Nodup
import VibeCoder.Permission
import VibeCoder.Jcode.TurnRuns

namespace VibeCoder.Jcode.PermissionWire

open PermissionState

/-! ## The system -/

/-- `jcode_sdk::PermissionDecision`, the two the adapter sends. -/
inductive Upstream where
  | allow
  | deny
  deriving DecidableEq, Repr

/-- What a user's decision becomes upstream: `AllowSession` is local. -/
def upstreamOf : PermissionDecision → Upstream
  | .allowOnce | .allowSession => .allow
  | .deny => .deny

/-- Where the `on_event` callback of a worker stands. -/
inductive Phase where
  | idle
  /-- A prompt is registered, `dispatch_event` is next. -/
  | dispatching (requestId : String)
  /-- The callback waits for a network call of its own. -/
  | waiting
  /-- The automatic `Allow` was acknowledged or failed. -/
  | allowed (pending : PendingPermission)
  | refused (pending : PendingPermission)
  /-- `fail_permission_protocol` is entered. -/
  | failing (requestId : String)
  /-- The cancel at its end. -/
  | cancelling

/-- The callback of one turn; `supported` is `permissions_supported`. -/
structure Callback where
  supported : Bool
  phase : Phase

/-- Who sent a decision, with what is settled after the network call. -/
inductive Sender where
  | user (pending : PendingPermission) (decision : PermissionDecision)
  | autoApproval (pending : PendingPermission)
  | failClosed

/-- A decision on the wire; `turn` is the turn whose request it answers. -/
structure Send where
  turn : Nat
  sessionId : SessionId
  requestId : String
  decision : Upstream
  sender : Sender

/-- A user's response whose network call is over. -/
structure Answer where
  pending : PendingPermission
  decision : PermissionDecision
  accepted : Bool

/-- A decision delivered upstream. -/
structure Delivery where
  sessionId : SessionId
  requestId : String
  decision : Upstream
  turn : Nat
  heard : Nat
  deriving DecidableEq, Repr

/-- The adapter.  `owner` is the turn whose callback registered an id, `latest` the turn that
    observed it last; these, `delivered` and `failed` are ghosts. -/
structure Wire where
  turns : TurnSystem
  registry : PermissionState
  callbacks : List Callback
  swept : List Nat
  wire : List Send
  answered : List Answer
  owner : String → Nat
  latest : SessionId → String → Nat
  delivered : List Delivery
  failed : List (SessionId × String × Nat)

inductive Event where
  /-- An event of the turns; `supported` is the capability a started turn finds. -/
  | turn (event : Jcode.Event) (supported : Bool)
  /-- `PermissionRegistry::finish_turn`, once the lease of the turn is gone. -/
  | finishTurn (turn : Nat)
  /-- A `PermissionRequest` of its session reaches the callback of a turn. -/
  | observe (turn : Nat) (requestId action description : String)
  /-- The event consumer took the prompt, or is gone, or panicked. -/
  | dispatched (turn : Nat) (accepted : Bool)
  /-- `complete_response` or `abort_response` of an automatic approval. -/
  | settle (turn : Nat)
  /-- `fail_permission_protocol` up to its first network call. -/
  | failClosed (turn : Nat)
  | cancelled (turn : Nat)
  /-- `respond_to_permission` up to the network call; `verified` is the outcome of its checks of
      the connection, the capability and the session binding. -/
  | respond (sessionId : SessionId) (requestId : String) (decision : PermissionDecision)
      (verified : Bool)
  /-- A network call is over. -/
  | network (send : Nat) (ok : Bool)
  /-- `complete_response` or `abort_response` of a user's response. -/
  | acknowledge (answer : Nat)

namespace Wire

/-- A fresh adapter. -/
def new : Wire :=
  { turns := TurnSystem.new, registry := PermissionState.empty, callbacks := [], swept := [],
    wire := [], answered := [], owner := fun _ => 0, latest := fun _ _ => 0, delivered := [],
    failed := [] }

def setPhase (s : Wire) (k : Nat) (phase : Phase) : Wire :=
  { s with callbacks := s.callbacks.modify k (fun c => { c with phase := phase }) }

/-- The turn and the callback of a worker that is running. -/
def running (s : Wire) (k : Nat) : Option (Turn × Callback) :=
  match s.turns.turns[k]?, s.callbacks[k]? with
  | some t, some c => if t.worker = .running then some (t, c) else none
  | some _, none => none
  | none, _ => none

/-- The worker is inside its callback. -/
def busy (s : Wire) (k : Nat) : Bool :=
  match s.callbacks[k]? with
  | some ⟨_, .idle⟩ => false
  | some _ => true
  | none => false

/-- The id is registered by turn `k`. -/
def register (s : Wire) (k : Nat) (requestId : String) (registry : PermissionState) : Wire :=
  { s with
    registry := registry
    owner := fun id => if id = requestId then k else s.owner id }

/-- Turn `k` has observed the id. -/
def hear (s : Wire) (k : Nat) (sessionId : SessionId) (requestId : String) : Wire :=
  { s with
    latest := fun session id =>
      if session = sessionId ∧ id = requestId then k else s.latest session id }

end Wire

/-- `observe_request` and what the callback does with its answer. -/
def observe (s : Wire) (k : Nat) (t : Turn) (supported : Bool)
    (requestId action description : String) : Wire :=
  let s := s.hear k t.sessionId requestId
  if !supported then s.setPhase k (.failing requestId)
  else
    match s.registry.observeRequest t.sessionId t.generation requestId action description with
    | (.error _, _) => s.setPhase k (.failing requestId)
    | (.ok (.prompt _), registry) =>
      (s.register k requestId registry).setPhase k (.dispatching requestId)
    | (.ok (.autoApprove pending), registry) =>
      let allow : Send :=
        { turn := k
          sessionId := t.sessionId
          requestId := requestId
          decision := .allow
          sender := .autoApproval pending }
      { (s.register k requestId registry).setPhase k .waiting with wire := s.wire ++ [allow] }

/-- `complete_response` or `abort_response` after the automatic `Allow`. -/
def settle (s : Wire) (k : Nat) : Phase → Wire
  | .allowed pending =>
    match s.registry.completeResponse pending .allowOnce with
    | (.ok (), registry) => { s.setPhase k .idle with registry := registry }
    | (.error _, registry) => { s.setPhase k (.failing pending.key) with registry := registry }
  | .refused pending =>
    { s.setPhase k (.failing pending.key) with registry := s.registry.abortResponse pending }
  | .idle | .dispatching _ | .waiting | .failing _ | .cancelling => s

/-- `fail_permission_protocol`: deny if the id may be reflected, then cancel. -/
def failClosed (s : Wire) (k : Nat) (t : Turn) (requestId : String) : Wire :=
  if requestIdIsSafeForResponse requestId then
    let deny : Send :=
      { turn := k
        sessionId := t.sessionId
        requestId := requestId
        decision := .deny
        sender := .failClosed }
    { s.setPhase k .waiting with
      wire := s.wire ++ [deny]
      failed := (t.sessionId, requestId, k) ::
        (t.sessionId, requestId, s.latest t.sessionId requestId) :: s.failed }
  else s.setPhase k .cancelling

/-- `respond_to_permission` up to its network call. -/
def respond (s : Wire) (sessionId : SessionId) (requestId : String)
    (decision : PermissionDecision) : Wire :=
  match s.turns.registry.activeGeneration sessionId with
  | none => s
  | some generation =>
    match s.registry.beginResponse sessionId requestId generation with
    | (.error _, registry) => { s with registry := registry }
    | (.ok pending, registry) =>
      let response : Send :=
        { turn := s.owner requestId
          sessionId := sessionId
          requestId := requestId
          decision := upstreamOf decision
          sender := .user pending decision }
      { s with registry := registry, wire := s.wire ++ [response] }

/-- The network call of `w` is over. -/
def answer (s : Wire) (i : Nat) (w : Send) (ok : Bool) : Wire :=
  let delivery : Delivery :=
    { sessionId := w.sessionId
      requestId := w.requestId
      decision := w.decision
      turn := w.turn
      heard := s.latest w.sessionId w.requestId }
  let s := { s with
    wire := s.wire.eraseIdx i
    delivered := if ok then s.delivered ++ [delivery] else s.delivered }
  match w.sender with
  | .user pending decision =>
    let given : Answer := { pending := pending, decision := decision, accepted := ok }
    { s with answered := s.answered ++ [given] }
  | .autoApproval pending => s.setPhase w.turn (if ok then .allowed pending else .refused pending)
  | .failClosed => s.setPhase w.turn .cancelling

/-- One event; an event that is not possible changes nothing. -/
def step (s : Wire) : Event → Wire
  | .turn event supported =>
    let turns := Jcode.step s.turns event
    let next := { s with
      turns := turns
      callbacks := if turns.turns.length = s.turns.turns.length then s.callbacks
        else s.callbacks ++ [{ supported := supported, phase := .idle }] }
    match event with
    -- the callback runs on the worker's own thread
    | .workerFinished k | .workerPanicked k => if s.busy k then s else next
    | _ => next
  | .finishTurn k =>
    match s.turns.turns[k]? with
    | none => s
    | some t =>
      if t.lease = .gone ∧ k ∉ s.swept then
        { s with
          registry := s.registry.finishTurn t.sessionId t.generation
          swept := k :: s.swept }
      else s
  | .observe k requestId action description =>
    match s.running k with
    | some (t, ⟨supported, .idle⟩) => observe s k t supported requestId action description
    | _ => s
  | .dispatched k accepted =>
    match s.running k with
    | some (_, ⟨_, .dispatching requestId⟩) =>
      s.setPhase k (if accepted then .idle else .failing requestId)
    | _ => s
  | .settle k =>
    match s.running k with
    | some (_, c) => settle s k c.phase
    | none => s
  | .failClosed k =>
    match s.running k with
    | some (t, ⟨_, .failing requestId⟩) => failClosed s k t requestId
    | _ => s
  | .cancelled k =>
    match s.running k with
    | some (_, ⟨_, .cancelling⟩) => s.setPhase k .idle
    | _ => s
  | .respond sessionId requestId decision verified =>
    if s.turns.gateTaken || !verified then s else respond s sessionId requestId decision
  | .network i ok =>
    match s.wire[i]? with
    | none => s
    | some w => answer s i w ok
  | .acknowledge i =>
    match s.answered[i]? with
    | none => s
    | some a =>
      { s with
        registry := if a.accepted then (s.registry.completeResponse a.pending a.decision).2
          else s.registry.abortResponse a.pending
        answered := s.answered.eraseIdx i }

/-! ## The law -/

/-- The decision concerns the request of turn `k` under this session and id. -/
def Delivery.Concerns (d : Delivery) (sessionId : SessionId) (requestId : String) (k : Nat) :
    Prop :=
  d.sessionId = sessionId ∧ d.requestId = requestId ∧ (d.turn = k ∨ d.heard = k)

instance (d : Delivery) (sessionId : SessionId) (requestId : String) (k : Nat) :
    Decidable (d.Concerns sessionId requestId k) := by
  unfold Delivery.Concerns
  infer_instance

/-- **One decision per request.** -/
structure OneDecision (s : Wire) : Prop where
  once : ∀ sessionId requestId k (i j : Nat) (d e : Delivery), s.delivered[i]? = some d →
    s.delivered[j]? = some e → d.Concerns sessionId requestId k →
    e.Concerns sessionId requestId k → i = j
  denyIsFinal : ∀ sessionId requestId k (i j : Nat) (d e : Delivery), s.delivered[i]? = some d →
    s.delivered[j]? = some e → d.Concerns sessionId requestId k →
    e.Concerns sessionId requestId k → i < j → d.decision = .deny → e.decision ≠ .allow

/-- No decision for the request is on the wire, and none that concerns it was delivered. -/
def Untouched (s : Wire) (sessionId : SessionId) (requestId : String) (k : Nat) : Prop :=
  (∀ w ∈ s.wire, ¬(w.sessionId = sessionId ∧ w.requestId = requestId)) ∧
    ∀ d ∈ s.delivered, ¬d.Concerns sessionId requestId k

instance (s : Wire) (sessionId : SessionId) (requestId : String) (k : Nat) :
    Decidable (Untouched s sessionId requestId k) := by
  unfold Untouched
  infer_instance

/-- The request an entry stands for, as the broker and as Jcode see it, is untouched. -/
def FreshEntry (s : Wire) (p : PendingPermission) : Prop :=
  Untouched s p.request.sessionId p.key (s.owner p.key) ∧
    Untouched s p.request.sessionId p.key (s.latest p.request.sessionId p.key)

instance (s : Wire) (p : PendingPermission) : Decidable (FreshEntry s p) := by
  unfold FreshEntry
  infer_instance

/-- The callback has failed the request of the entry closed. -/
def FailedEntry (s : Wire) (p : PendingPermission) : Prop :=
  (p.request.sessionId, p.key, s.owner p.key) ∈ s.failed ∨
    (p.request.sessionId, p.key, s.latest p.request.sessionId p.key) ∈ s.failed

instance (s : Wire) (p : PendingPermission) : Decidable (FailedEntry s p) := by
  unfold FailedEntry
  infer_instance

/-- A release after a failed network call finds an untouched request, if any. -/
def ReleasesFresh (s : Wire) (pending : PendingPermission) : Prop :=
  ∀ p ∈ s.registry.pending, p.key = pending.key → p.identity = pending.identity → FreshEntry s p

instance (s : Wire) (pending : PendingPermission) : Decidable (ReleasesFresh s pending) := by
  unfold ReleasesFresh
  infer_instance

/-- What has to hold of an event: the callback observes a request and fails it closed, and a
    failed call releases it, only while it is untouched; and nobody answers a request that was
    failed closed. -/
def Orderly (s : Wire) : Event → Prop
  | .observe k requestId _ _ =>
    match s.running k with
    | some (t, _) => Untouched s t.sessionId requestId k
    | none => True
  | .failClosed k =>
    match s.running k with
    | some (t, ⟨_, .failing requestId⟩) =>
      Untouched s t.sessionId requestId k ∧
        Untouched s t.sessionId requestId (s.latest t.sessionId requestId)
    | _ => True
  | .settle k =>
    match s.running k with
    | some (_, ⟨_, .refused pending⟩) => ReleasesFresh s pending
    | _ => True
  | .acknowledge i =>
    match s.answered[i]? with
    | some a => a.accepted = false → ReleasesFresh s a.pending
    | none => True
  | .respond sessionId requestId _ _ =>
    ∀ p ∈ s.registry.pending, p.key = requestId → p.request.sessionId = sessionId →
      ¬FailedEntry s p
  | .turn _ _ | .finishTurn _ | .dispatched _ _ | .cancelled _ | .network _ _ => True

instance decidableOrderly (s : Wire) : (event : Event) → Decidable (Orderly s event)
  | .observe k requestId _ _ =>
    match h : s.running k with
    | some (t, _) => decidable_of_iff (Untouched s t.sessionId requestId k) (by simp [Orderly, h])
    | none => .isTrue (by simp [Orderly, h])
  | .failClosed k =>
    match h : s.running k with
    | some (t, ⟨_, .failing requestId⟩) =>
      decidable_of_iff (Untouched s t.sessionId requestId k ∧
        Untouched s t.sessionId requestId (s.latest t.sessionId requestId)) (by simp [Orderly, h])
    | some (_, ⟨_, .idle⟩) | some (_, ⟨_, .dispatching _⟩) | some (_, ⟨_, .waiting⟩)
    | some (_, ⟨_, .allowed _⟩) | some (_, ⟨_, .refused _⟩) | some (_, ⟨_, .cancelling⟩)
    | none => .isTrue (by simp [Orderly, h])
  | .settle k =>
    match h : s.running k with
    | some (_, ⟨_, .refused pending⟩) =>
      decidable_of_iff (ReleasesFresh s pending) (by simp [Orderly, h])
    | some (_, ⟨_, .idle⟩) | some (_, ⟨_, .dispatching _⟩) | some (_, ⟨_, .waiting⟩)
    | some (_, ⟨_, .allowed _⟩) | some (_, ⟨_, .failing _⟩) | some (_, ⟨_, .cancelling⟩)
    | none => .isTrue (by simp [Orderly, h])
  | .acknowledge i =>
    match h : s.answered[i]? with
    | some a =>
      decidable_of_iff (a.accepted = false → ReleasesFresh s a.pending) (by simp [Orderly, h])
    | none => .isTrue (by simp [Orderly, h])
  | .respond sessionId requestId _ _ =>
    inferInstanceAs (Decidable (∀ p ∈ s.registry.pending, p.key = requestId →
      p.request.sessionId = sessionId → ¬FailedEntry s p))
  | .turn _ _ | .finishTurn _ | .dispatched _ _ | .cancelled _ | .network _ _ => .isTrue trivial

/-! ## What one event preserves -/

/-- What is known of a request nobody is answering: a decision on the wire for it is a denial of
    the callback, and a delivered one that concerns it was. -/
structure CleanEntry (s : Wire) (p : PendingPermission) : Prop where
  wire : ∀ w ∈ s.wire, w.sessionId = p.request.sessionId → w.requestId = p.key →
    (w.sessionId, w.requestId, w.turn) ∈ s.failed ∧
      (w.sessionId, w.requestId, s.latest w.sessionId w.requestId) ∈ s.failed
  delivered : ∀ k, k = s.owner p.key ∨ k = s.latest p.request.sessionId p.key →
    (p.request.sessionId, p.key, k) ∉ s.failed →
      ∀ d ∈ s.delivered, ¬d.Concerns p.request.sessionId p.key k

/-- What carries the law along a run. -/
structure Inv (s : Wire) : Prop where
  once : s.delivered.Pairwise (fun d e => ∀ sessionId requestId k,
    d.Concerns sessionId requestId k → ¬e.Concerns sessionId requestId k)
  single : s.wire.Pairwise (fun w v => ¬(w.sessionId = v.sessionId ∧ w.requestId = v.requestId))
  clean : ∀ w ∈ s.wire, ∀ d ∈ s.delivered, ¬d.Concerns w.sessionId w.requestId w.turn ∧
    ¬d.Concerns w.sessionId w.requestId (s.latest w.sessionId w.requestId)
  entries : ∀ p ∈ s.registry.pending, p.responding = false → CleanEntry s p

theorem inv_new : Inv Wire.new :=
  ⟨List.Pairwise.nil, List.Pairwise.nil, fun _ hw => absurd hw List.not_mem_nil,
    fun _ hp => absurd hp List.not_mem_nil⟩

/-- Nothing is sent, heard or delivered, and no request becomes answerable. -/
theorem Inv.frame {s s' : Wire} (h : Inv s) (hwire : s'.wire = s.wire)
    (hdelivered : s'.delivered = s.delivered) (howner : s'.owner = s.owner)
    (hlatest : s'.latest = s.latest) (hfailed : s'.failed = s.failed)
    (hpending : ∀ p ∈ s'.registry.pending, p.responding = false → p ∈ s.registry.pending) :
    Inv s' := by
  refine ⟨?_, ?_, ?_, fun p hp hfree => ?_⟩
  · rw [hdelivered]
    exact h.once
  · rw [hwire]
    exact h.single
  · rw [hwire, hdelivered, hlatest]
    exact h.clean
  · obtain ⟨hw, hd⟩ := h.entries p (hpending p hp hfree) hfree
    refine ⟨?_, ?_⟩
    · rw [hwire, hfailed, hlatest]
      exact hw
    · rw [howner, hlatest, hfailed, hdelivered]
      exact hd

/-- An answerable request that was not failed closed is untouched. -/
theorem CleanEntry.fresh {s : Wire} {p : PendingPermission} (h : CleanEntry s p)
    (hfailed : ¬FailedEntry s p) : FreshEntry s p := by
  have hwire : ∀ w ∈ s.wire, ¬(w.sessionId = p.request.sessionId ∧ w.requestId = p.key) := by
    intro w hw hfor
    have hmark := (h.wire w hw hfor.1 hfor.2).2
    rw [hfor.1, hfor.2] at hmark
    exact hfailed (Or.inr hmark)
  exact ⟨⟨hwire, h.delivered _ (Or.inl rfl) fun hmem => hfailed (Or.inl hmem)⟩,
    ⟨hwire, h.delivered _ (Or.inr rfl) fun hmem => hfailed (Or.inr hmem)⟩⟩

/-- An untouched request is as it should be, whatever was failed closed. -/
theorem FreshEntry.clean {s : Wire} {p : PendingPermission} (h : FreshEntry s p) :
    CleanEntry s p := by
  refine ⟨fun w hw hsession hid => absurd ⟨hsession, hid⟩ (h.1.1 w hw), fun k hk _ => ?_⟩
  rcases hk with rfl | rfl
  · exact h.1.2
  · exact h.2.2

/-- A turn observes an untouched request. -/
theorem Inv.hear {s : Wire} (h : Inv s) {k : Nat} {sessionId : SessionId} {requestId : String}
    (hok : Untouched s sessionId requestId k) : Inv (s.hear k sessionId requestId) := by
  refine ⟨h.once, h.single, fun w hw d hd => ⟨(h.clean w hw d hd).1, ?_⟩,
    fun p hp hfree => ⟨fun w hw hsession hid => ?_, fun j hj hnot d hd => ?_⟩⟩
  · have hother : ¬(w.sessionId = sessionId ∧ w.requestId = requestId) := hok.1 w hw
    have hsame : (s.hear k sessionId requestId).latest w.sessionId w.requestId =
        s.latest w.sessionId w.requestId := if_neg hother
    rw [hsame]
    exact (h.clean w hw d hd).2
  · have hother : ¬(w.sessionId = sessionId ∧ w.requestId = requestId) := hok.1 w hw
    have hsame : (s.hear k sessionId requestId).latest w.sessionId w.requestId =
        s.latest w.sessionId w.requestId := if_neg hother
    rw [hsame]
    exact (h.entries p hp hfree).wire w hw hsession hid
  · by_cases hkey : p.request.sessionId = sessionId ∧ p.key = requestId
    · rcases hj with rfl | rfl
      · exact (h.entries p hp hfree).delivered _ (Or.inl rfl) hnot d hd
      · have hnew : (s.hear k sessionId requestId).latest p.request.sessionId p.key = k :=
          if_pos hkey
        rw [hnew, hkey.1, hkey.2]
        exact hok.2 d hd
    · have hsame : (s.hear k sessionId requestId).latest p.request.sessionId p.key =
          s.latest p.request.sessionId p.key := if_neg hkey
      rw [hsame] at hj
      exact (h.entries p hp hfree).delivered j hj hnot d hd

/-- A send for a request that is untouched for the turn it answers and for the turn that observed
    it last, while no entry of this id is answerable or all of them are failed closed. -/
theorem Inv.send {s : Wire} (h : Inv s) {w : Send} {f : List (SessionId × String × Nat)}
    {r : PermissionState}
    (hturn : Untouched s w.sessionId w.requestId w.turn)
    (hlatest : Untouched s w.sessionId w.requestId (s.latest w.sessionId w.requestId))
    (hfailed : s.failed ⊆ f)
    (hpending : ∀ p ∈ r.pending, p.responding = false → p ∈ s.registry.pending ∧
      (p.key = w.requestId → (w.sessionId, w.requestId, w.turn) ∈ f ∧
        (w.sessionId, w.requestId, s.latest w.sessionId w.requestId) ∈ f)) :
    Inv { s with registry := r, wire := s.wire ++ [w], failed := f } := by
  refine ⟨h.once, ?_, fun v hv d hd => ?_, fun p hp hfree => ?_⟩
  · refine List.pairwise_append.mpr ⟨h.single, List.pairwise_singleton _ _, fun v hv u hu => ?_⟩
    rw [List.mem_singleton.mp hu]
    exact hturn.1 v hv
  · rcases List.mem_append.mp hv with hold | hnew
    · exact h.clean v hold d hd
    · rw [List.mem_singleton.mp hnew]
      exact ⟨hturn.2 d hd, hlatest.2 d hd⟩
  · obtain ⟨hmem, hmark⟩ := hpending p hp hfree
    have hclean := h.entries p hmem hfree
    refine ⟨fun v hv hsession hid => ?_, fun k hk hnot => hclean.delivered k hk fun hin =>
      hnot (hfailed hin)⟩
    rcases List.mem_append.mp hv with hold | hnew
    · have hmarked := hclean.wire v hold hsession hid
      exact ⟨hfailed hmarked.1, hfailed hmarked.2⟩
    · rw [List.mem_singleton.mp hnew] at hid ⊢
      exact hmark hid.symm

/-- The callback observes a request: the registered entries, the sends and the deliveries. -/
theorem inv_observe {s : Wire} (h : Inv s) {k : Nat} {t : Turn} {supported : Bool}
    {requestId action description : String} (hok : Untouched s t.sessionId requestId k) :
    Inv (observe s k t supported requestId action description) := by
  have hheard : Inv (s.hear k t.sessionId requestId) := h.hear hok
  have hlatest : (s.hear k t.sessionId requestId).latest t.sessionId requestId = k :=
    if_pos ⟨rfl, rfl⟩
  have hhere : Untouched (s.hear k t.sessionId requestId) t.sessionId requestId k := hok
  unfold observe
  generalize s.hear k t.sessionId requestId = s at hheard hlatest hhere
  dsimp only
  -- entries of other ids keep their owner
  have hothers : ∀ registry : PermissionState, ∀ p ∈ s.registry.pending,
      p.key ≠ requestId → p.responding = false →
      CleanEntry (s.register k requestId registry) p := by
    intro registry p hp hkey hfree
    obtain ⟨hw, hd⟩ := hheard.entries p hp hfree
    refine ⟨hw, fun j hj => hd j ?_⟩
    have howner : (s.register k requestId registry).owner p.key = s.owner p.key := if_neg hkey
    rw [howner] at hj
    exact hj
  have hkeys : ∀ p ∈ s.registry.pending,
      requestId ∉ s.registry.pending.map PendingPermission.key → p.key ≠ requestId := by
    intro p hp hnew heq
    exact hnew (heq ▸ List.mem_map_of_mem hp)
  split
  · exact hheard.frame rfl rfl rfl rfl rfl fun p hp _ => hp
  · rcases s.registry.observeRequest_cases t.sessionId t.generation requestId action description
      with ⟨e, hobs⟩ | ⟨registry, hobs, hnew, hpending⟩ | ⟨registry, hobs, hnew, hpending⟩
    · rw [hobs]
      exact hheard.frame rfl rfl rfl rfl rfl fun p hp _ => hp
    · rw [hobs]
      have hregistered : Inv (s.register k requestId registry) := by
        refine ⟨hheard.once, hheard.single, hheard.clean, fun p hp hfree => ?_⟩
        have hp : p ∈ registry.pending := hp
        rw [hpending] at hp
        rcases List.mem_cons.mp hp with rfl | hold
        · have howner : (s.register k requestId registry).owner requestId = k := if_pos rfl
          refine FreshEntry.clean ⟨?_, ?_⟩
          · show Untouched _ t.sessionId requestId ((s.register k requestId registry).owner
              requestId)
            rw [howner]
            exact hhere
          · show Untouched _ t.sessionId requestId (s.latest t.sessionId requestId)
            rw [hlatest]
            exact hhere
        · exact hothers registry p hold (hkeys p hold hnew) hfree
      exact hregistered.frame rfl rfl rfl rfl rfl fun p hp _ => hp
    · rw [hobs]
      -- the new entry is being answered: it asks for nothing yet
      have hregistered : Inv { s with owner := (s.register k requestId registry).owner } := by
        refine ⟨hheard.once, hheard.single, hheard.clean, fun p hp hfree => ?_⟩
        exact hothers s.registry p hp (hkeys p hp hnew) hfree
      have hsent := hregistered.send (r := registry) (f := s.failed)
        (w := {
          turn := k
          sessionId := t.sessionId
          requestId := requestId
          decision := .allow
          sender := .autoApproval
            (entryOf t.sessionId t.generation requestId action description true) })
        hhere (by dsimp only; rw [hlatest]; exact hhere) (fun x hx => hx) (by
          intro p hp hfree
          rw [hpending] at hp
          rcases List.mem_cons.mp hp with rfl | hold
          · cases hfree
          · exact ⟨hold, fun heq => absurd heq (hkeys p hold hnew)⟩)
      exact hsent.frame rfl rfl rfl rfl rfl fun p hp _ => hp

/-- A failed call releases the request registered under its identity. -/
theorem Inv.abort {s : Wire} (h : Inv s) {pending : PendingPermission}
    (hok : ReleasesFresh s pending) :
    Inv { s with registry := s.registry.abortResponse pending } := by
  rcases s.registry.abortResponse_cases pending with hsame | ⟨current, hmem, hkey, hid, hrelease⟩
  · rw [hsame]
    exact h
  · rw [hrelease]
    refine ⟨h.once, h.single, h.clean, fun p hp hfree => ?_⟩
    rcases mem_setResponding hp with ⟨hold, -⟩ | ⟨q, hq, hqkey, rfl⟩
    · have hclean := h.entries p hold hfree
      exact ⟨hclean.wire, hclean.delivered⟩
    · -- request ids are distinct, so the released entry is the one the condition speaks of
      have hqc : q = current :=
        List.inj_on_of_nodup_map s.registry.distinct hq hmem (hqkey.trans hkey.symm)
      have hfresh : FreshEntry s current := hok current hmem hkey hid
      subst hqc
      exact FreshEntry.clean hfresh

/-- A user's response is reserved and sent. -/
theorem inv_respond {s : Wire} (h : Inv s) {sessionId : SessionId} {requestId : String}
    {decision : PermissionDecision}
    (hok : ∀ p ∈ s.registry.pending, p.key = requestId → p.request.sessionId = sessionId →
      ¬FailedEntry s p) : Inv (respond s sessionId requestId decision) := by
  unfold respond
  split
  · exact h
  · rename_i generation hgen
    rcases s.registry.beginResponse_cases sessionId requestId generation
      with ⟨e, hbegin⟩ | ⟨current, hmem, hkey, hsession, hfree, hbegin⟩
    · rw [hbegin]
      exact h
    · rw [hbegin]
      have hfresh := (h.entries current hmem hfree).fresh (hok current hmem hkey hsession)
      unfold FreshEntry at hfresh
      rw [hkey, hsession] at hfresh
      refine h.send (f := s.failed) hfresh.1 hfresh.2 (fun x hx => hx) (fun p hp hpfree => ?_)
      rcases mem_setResponding hp with ⟨hold, hother⟩ | ⟨q, hq, hqkey, rfl⟩
      · exact ⟨hold, fun heq => absurd heq hother⟩
      · cases hpfree

/-- The callback fails a request closed. -/
theorem inv_failClosed {s : Wire} (h : Inv s) {k : Nat} {t : Turn} {requestId : String}
    (hturn : Untouched s t.sessionId requestId k)
    (hlatest : Untouched s t.sessionId requestId (s.latest t.sessionId requestId)) :
    Inv (failClosed s k t requestId) := by
  unfold failClosed
  split
  · have hsent := h.send (r := s.registry)
      (w := { turn := k, sessionId := t.sessionId, requestId := requestId, decision := .deny,
              sender := .failClosed })
      (f := (t.sessionId, requestId, k) ::
        (t.sessionId, requestId, s.latest t.sessionId requestId) :: s.failed)
      hturn hlatest (fun x hx => List.mem_cons_of_mem _ (List.mem_cons_of_mem _ hx))
      (fun p hp _ => ⟨hp, fun _ => ⟨List.mem_cons_self,
        List.mem_cons_of_mem _ List.mem_cons_self⟩⟩)
    exact hsent.frame rfl rfl rfl rfl rfl fun p hp _ => hp
  · exact h.frame rfl rfl rfl rfl rfl fun p hp _ => hp

/-- A decision leaves the wire, delivered or not. -/
theorem Inv.arrive {s : Wire} (h : Inv s) {i : Nat} {w : Send} (hw : s.wire[i]? = some w) :
    Inv { s with wire := s.wire.eraseIdx i } ∧
      Inv { s with
        wire := s.wire.eraseIdx i
        delivered := s.delivered ++ [{
          sessionId := w.sessionId
          requestId := w.requestId
          decision := w.decision
          turn := w.turn
          heard := s.latest w.sessionId w.requestId }] } := by
  have hmem : w ∈ s.wire := List.mem_of_getElem? hw
  have hlt : i < s.wire.length := (List.getElem?_eq_some_iff.mp hw).1
  -- no other send is for this request
  have hrest : ∀ v ∈ s.wire.eraseIdx i,
      ¬(v.sessionId = w.sessionId ∧ v.requestId = w.requestId) := by
    intro v hv hsame
    obtain ⟨j, hj, hji⟩ := List.mem_eraseIdx_iff_getElem?.mp hv
    have hpair := List.pairwise_iff_getElem.mp h.single
    have hjlt : j < s.wire.length := (List.getElem?_eq_some_iff.mp hji).1
    have hvj : s.wire[j] = v := (List.getElem?_eq_some_iff.mp hji).2
    have hwi : s.wire[i] = w := (List.getElem?_eq_some_iff.mp hw).2
    rcases Nat.lt_or_gt_of_ne hj with hlt' | hgt
    · exact hpair j i hjlt hlt hlt' (by rw [hvj, hwi]; exact hsame)
    · exact hpair i j hlt hjlt hgt (by rw [hvj, hwi]; exact ⟨hsame.1.symm, hsame.2.symm⟩)
  have hgone : Inv { s with wire := s.wire.eraseIdx i } := by
    refine ⟨h.once, h.single.sublist (List.eraseIdx_sublist _ _),
      fun v hv => h.clean v (List.mem_of_mem_eraseIdx hv), fun p hp hfree => ?_⟩
    have hclean := h.entries p hp hfree
    exact ⟨fun v hv => hclean.wire v (List.mem_of_mem_eraseIdx hv), hclean.delivered⟩
  refine ⟨hgone, ?_, hgone.single, fun v hv d hd => ?_, fun p hp hfree => ?_⟩
  · refine List.pairwise_append.mpr ⟨h.once, List.pairwise_singleton _ _, fun d hd e he => ?_⟩
    rw [List.mem_singleton.mp he]
    rintro sessionId requestId k hdk ⟨rfl, rfl, hk⟩
    rcases hk with rfl | rfl
    · exact (h.clean w hmem d hd).1 hdk
    · exact (h.clean w hmem d hd).2 hdk
  · rcases List.mem_append.mp hd with hold | hnew
    · exact hgone.clean v hv d hold
    · rw [List.mem_singleton.mp hnew]
      have hother := hrest v hv
      exact ⟨fun hc => hother ⟨hc.1.symm, hc.2.1.symm⟩, fun hc => hother ⟨hc.1.symm, hc.2.1.symm⟩⟩
  · have hclean := h.entries p hp hfree
    refine ⟨(hgone.entries p hp hfree).wire, fun k hk hnot d hd => ?_⟩
    rcases List.mem_append.mp hd with hold | hnew
    · exact hclean.delivered k hk hnot d hold
    · rw [List.mem_singleton.mp hnew]
      rintro ⟨hsession, hid, hwho⟩
      -- a decision was on the wire, so the request had been failed closed
      have hmark := hclean.wire w hmem hsession hid
      dsimp only at hsession hid hwho
      rw [hsession, hid] at hmark
      rcases hwho with hturn | hheard
      · exact hnot (hturn ▸ hmark.1)
      · rw [hsession, hid] at hheard
        exact hnot (hheard ▸ hmark.2)

theorem inv_answer {s : Wire} (h : Inv s) {i : Nat} {w : Send} {ok : Bool}
    (hw : s.wire[i]? = some w) : Inv (answer s i w ok) := by
  obtain ⟨hgone, hdelivered⟩ := h.arrive hw
  have hnext : Inv { s with
      wire := s.wire.eraseIdx i
      delivered := if ok then s.delivered ++ [{
          sessionId := w.sessionId
          requestId := w.requestId
          decision := w.decision
          turn := w.turn
          heard := s.latest w.sessionId w.requestId }]
        else s.delivered } := by
    cases ok with
    | true => exact hdelivered
    | false => exact hgone
  unfold answer
  dsimp only
  split
  · exact hnext.frame rfl rfl rfl rfl rfl fun p hp _ => hp
  · exact hnext.frame rfl rfl rfl rfl rfl fun p hp _ => hp
  · exact hnext.frame rfl rfl rfl rfl rfl fun p hp _ => hp

/-- **Step lemma.** -/
theorem inv_step (s : Wire) (event : Event) (h : Inv s) (hok : Orderly s event) :
    Inv (step s event) := by
  cases event with
  | turn event supported =>
    have hnext : ∀ turns callbacks, Inv { s with turns := turns, callbacks := callbacks } :=
      fun _ _ => h.frame rfl rfl rfl rfl rfl fun p hp _ => hp
    unfold step
    dsimp only
    split
    · split
      · exact h
      · exact hnext _ _
    · split
      · exact h
      · exact hnext _ _
    · exact hnext _ _
  | finishTurn k =>
    unfold step
    dsimp only
    split
    · exact h
    · split
      · exact h.frame rfl rfl rfl rfl rfl fun p hp _ => mem_finishTurn hp
      · exact h
  | observe k requestId action description =>
    unfold Orderly at hok
    unfold step
    dsimp only at hok ⊢
    split
    · rename_i t supported hrun
      rw [hrun] at hok
      exact inv_observe h hok
    · exact h
  | dispatched k accepted =>
    unfold step
    dsimp only
    split
    · exact h.frame rfl rfl rfl rfl rfl fun p hp _ => hp
    · exact h
  | settle k =>
    unfold Orderly at hok
    unfold step
    dsimp only at hok ⊢
    split
    · rename_i t c hrun
      obtain ⟨supported, phase⟩ := c
      rw [hrun] at hok
      cases phase with
      | allowed pending =>
        have hcomplete : ∀ registry answer,
            s.registry.completeResponse pending .allowOnce = (answer, registry) →
            ∀ p ∈ registry.pending, p.responding = false → p ∈ s.registry.pending := by
          intro registry answer hdone p hp _
          have hp' : p ∈ (s.registry.completeResponse pending .allowOnce).2.pending := by
            rw [hdone]
            exact hp
          exact mem_completeResponse hp'
        unfold settle
        dsimp only
        split
        · rename_i registry hdone
          exact h.frame rfl rfl rfl rfl rfl (hcomplete registry _ hdone)
        · rename_i e registry hdone
          exact h.frame rfl rfl rfl rfl rfl (hcomplete registry _ hdone)
      | refused pending =>
        have hreleased := h.abort hok
        exact hreleased.frame rfl rfl rfl rfl rfl fun p hp _ => hp
      | idle => exact h
      | dispatching requestId => exact h
      | waiting => exact h
      | failing requestId => exact h
      | cancelling => exact h
    · exact h
  | failClosed k =>
    unfold Orderly at hok
    unfold step
    dsimp only at hok ⊢
    split
    · rename_i t supported requestId hrun
      rw [hrun] at hok
      exact inv_failClosed h hok.1 hok.2
    · exact h
  | cancelled k =>
    unfold step
    dsimp only
    split
    · exact h.frame rfl rfl rfl rfl rfl fun p hp _ => hp
    · exact h
  | respond sessionId requestId decision verified =>
    unfold step
    dsimp only
    split
    · exact h
    · exact inv_respond h hok
  | network i ok =>
    unfold step
    dsimp only
    split
    · exact h
    · rename_i w hw
      exact inv_answer h hw
  | acknowledge i =>
    unfold Orderly at hok
    unfold step
    dsimp only at hok ⊢
    split
    · exact h
    · rename_i a ha
      rw [ha] at hok
      split
      · exact h.frame rfl rfl rfl rfl rfl fun p hp _ => mem_completeResponse hp
      · rename_i hrefused
        have hreleased := h.abort (hok (by simpa using hrefused))
        exact hreleased.frame rfl rfl rfl rfl rfl fun p hp _ => hp

/-! ## Every run -/

theorem Inv.oneDecision {s : Wire} (h : Inv s) : OneDecision s := by
  have honce : ∀ sessionId requestId k (i j : Nat) (d e : Delivery), s.delivered[i]? = some d →
      s.delivered[j]? = some e → d.Concerns sessionId requestId k →
      e.Concerns sessionId requestId k → i = j := by
    intro sessionId requestId k i j d e hi hj hd he
    obtain ⟨hilt, rfl⟩ := List.getElem?_eq_some_iff.mp hi
    obtain ⟨hjlt, rfl⟩ := List.getElem?_eq_some_iff.mp hj
    have hpair := List.pairwise_iff_getElem.mp h.once
    rcases Nat.lt_trichotomy i j with hlt | heq | hgt
    · exact absurd he (hpair i j hilt hjlt hlt sessionId requestId k hd)
    · exact heq
    · exact absurd hd (hpair j i hjlt hilt hgt sessionId requestId k he)
  refine ⟨honce, fun sessionId requestId k i j d e hi hj hd he hlt _ => ?_⟩
  have heq := honce sessionId requestId k i j d e hi hj hd he
  omega

/-- **One decision law.**  In every run in which the callback observes and fails closed, and a
    failed call releases, only untouched requests, and nobody answers a request that was failed
    closed: at most one decision is delivered for each request, and no `Allow` after a `Deny`. -/
theorem one_decision_law (events : List Event)
    (hok : Runs.Disciplined step Orderly Wire.new events) :
    Runs.Always step OneDecision Wire.new events :=
  Runs.always_disciplined step inv_step (fun _ h => h.oneDecision) inv_new hok

/-- A request is granted for the session, the next one of its kind is approved by the callback,
    and a third is failed closed when its prompt finds no consumer. -/
def threeSenders : List Event :=
  [ .turn (.startTurn ⟨"session_1"⟩ 7) true, .turn (.spawn 0 true) true,
    .observe 0 "req-1" "bash" "run tests", .dispatched 0 true,
    .respond ⟨"session_1"⟩ "req-1" .allowSession true, .network 0 true, .acknowledge 0,
    .observe 0 "req-2" "bash" "run tests", .network 0 true, .settle 0,
    .observe 0 "req-3" "bash" "deploy", .dispatched 0 false, .failClosed 0, .network 0 true,
    .cancelled 0 ]

theorem one_decision_law_threeSenders :
    Runs.Disciplined step Orderly Wire.new threeSenders ∧
      (Runs.play step Wire.new threeSenders).delivered.map Delivery.decision =
        [.allow, .allow, .deny] ∧
      Runs.Always step OneDecision Wire.new threeSenders := by
  have hok : Runs.Disciplined step Orderly Wire.new threeSenders := by decide
  exact ⟨hok, by decide, one_decision_law threeSenders hok⟩

/-- The event consumer forwards a prompt and panics; the callback denies the request, which stays
    registered, and the user's answer follows. -/
def answerAfterDenial : List Event :=
  [ .turn (.startTurn ⟨"session_1"⟩ 7) true, .turn (.spawn 0 true) true,
    .observe 0 "req-1" "bash" "run tests", .dispatched 0 false, .failClosed 0, .network 0 true,
    .respond ⟨"session_1"⟩ "req-1" .allowOnce true, .network 0 true ]

/-- An `Allow` is delivered for a request that was denied. -/
theorem not_every_run_one_decision :
    ¬ (∀ events : List Event, Runs.Always step OneDecision Wire.new events) ∧
      (Runs.play step Wire.new answerAfterDenial).delivered =
        [⟨⟨"session_1"⟩, "req-1", .deny, 0, 0⟩, ⟨⟨"session_1"⟩, "req-1", .allow, 0, 0⟩] := by
  have hrun : (Runs.play step Wire.new answerAfterDenial).delivered =
      [⟨⟨"session_1"⟩, "req-1", .deny, 0, 0⟩, ⟨⟨"session_1"⟩, "req-1", .allow, 0, 0⟩] := by
    decide
  refine ⟨fun h => ?_, hrun⟩
  have hlaw := (h answerAfterDenial).last.once ⟨"session_1"⟩ "req-1" 0 0 1
  rw [hrun] at hlaw
  have hsame := hlaw _ _ rfl rfl ⟨rfl, rfl, Or.inl rfl⟩ ⟨rfl, rfl, Or.inl rfl⟩
  cases hsame

end VibeCoder.Jcode.PermissionWire
