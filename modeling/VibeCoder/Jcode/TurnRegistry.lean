/-
  The active-turn slot of the Jcode adapter (`vibecoder-agent-jcode/src/turn.rs`).

  One bridge connection serves one session at a time, so the registry holds at most one turn.  An
  entry is found again by its session and its connection generation; it carries no number of its
  own, and two turns of one session on one connection are indistinguishable in it.

  Each function here is one critical section of the `active` mutex; who holds the second lock,
  `control_gate`, is part of the system of `TurnRuns`.

  Left out: the poisoned-lock errors (no critical section can panic).
-/
import VibeCoder.Domain

namespace VibeCoder.Jcode

/-- `ActiveTurn`. -/
structure ActiveTurn where
  sessionId : SessionId
  connectionGeneration : Nat
  cancelRequested : Bool
  workerFinished : Bool
  deriving DecidableEq, Repr

/-- The entry is the one `session_id` and `generation` name. -/
def ActiveTurn.isFor (turn : ActiveTurn) (sessionId : SessionId) (generation : Nat) : Bool :=
  turn.sessionId == sessionId && turn.connectionGeneration == generation

/-- `TurnRegistry`: what its `active` mutex guards. -/
structure TurnRegistry where
  active : Option ActiveTurn
  deriving DecidableEq, Repr

namespace TurnRegistry

/-- `TurnRegistry::new()`. -/
def new : TurnRegistry := { active := none }

/-- The entry a turn starts with. -/
def fresh (sessionId : SessionId) (generation : Nat) : ActiveTurn :=
  { sessionId := sessionId
    connectionGeneration := generation
    cancelRequested := false
    workerFinished := false }

/-- `begin`. -/
def begin (r : TurnRegistry) (sessionId : SessionId) (generation : Nat) :
    Result Unit × TurnRegistry :=
  match r.active with
  | some existing =>
    (.error (.invalidRequest
      ("a Jcode turn is already running for session " ++ existing.sessionId.value)), r)
  | none => (.ok (), { active := some (fresh sessionId generation) })

/-- `has_active`. -/
def hasActive (r : TurnRegistry) : Bool := r.active.isSome

/-- `active_generation`: a turn is found by its session while its worker runs. -/
def activeGeneration (r : TurnRegistry) (sessionId : SessionId) : Option Nat :=
  match r.active with
  | some turn =>
    if turn.sessionId = sessionId ∧ turn.workerFinished = false then
      some turn.connectionGeneration
    else none
  | none => none

/-- `mark_worker_finished`. -/
def markWorkerFinished (r : TurnRegistry) (sessionId : SessionId) (generation : Nat) :
    Result Unit × TurnRegistry :=
  match r.active with
  -- the async caller may have been dropped and its lease already cleared the slot
  | none => (.ok (), r)
  | some turn =>
    if !turn.isFor sessionId generation then
      (.error (.agent "Jcode worker completion did not match the active turn"), r)
    else (.ok (), { active := some { turn with workerFinished := true } })

/-- `mark_cancel_acknowledged`. -/
def markCancelAcknowledged (r : TurnRegistry) (sessionId : SessionId) :
    Result Bool × TurnRegistry :=
  match r.active with
  -- completion wins a race with the acknowledgement
  | none => (.ok false, r)
  | some turn =>
    if turn.sessionId ≠ sessionId then
      (.error (.invalidRequest "the requested session does not own the active Jcode turn"), r)
    else (.ok true, { active := some { turn with cancelRequested := true } })

/-- `finish`. -/
def finish (r : TurnRegistry) (sessionId : SessionId) (generation : Nat) :
    Result Bool × TurnRegistry :=
  match r.active with
  | none => (.error (.agent "Jcode active-turn state disappeared before completion"), r)
  | some turn =>
    if !turn.isFor sessionId generation then
      (.error (.agent "Jcode active-turn identity changed before completion"), r)
    else (.ok turn.cancelRequested, { active := none })

/-- `should_cancel_abandoned`. -/
def shouldCancelAbandoned (r : TurnRegistry) (sessionId : SessionId) (generation : Nat) : Bool :=
  match r.active with
  | none => false
  | some turn => turn.isFor sessionId generation && !turn.workerFinished

/-- `force_clear`. -/
def forceClear (r : TurnRegistry) (sessionId : SessionId) (generation : Nat) : TurnRegistry :=
  match r.active with
  | none => r
  | some turn => if turn.isFor sessionId generation then { active := none } else r

end TurnRegistry

/-- `ensure_workspace_quiescent`: `root` is the answer of `canonical_project_root`. -/
def ensureWorkspaceQuiescent (r : TurnRegistry) (root : Result Unit) : Result Unit :=
  if r.hasActive then
    .error (.invalidRequest "workspace checkpoint/rollback requires Jcode to have no active turn")
  else root

/-! ## What the functions do to the entry of a turn -/

namespace TurnRegistry

theorem isFor_self (sessionId : SessionId) (generation : Nat) (cancelled finished : Bool) :
    (ActiveTurn.mk sessionId generation cancelled finished).isFor sessionId generation = true := by
  simp [ActiveTurn.isFor]

theorem begin_ok {r r' : TurnRegistry} {sessionId : SessionId} {generation : Nat}
    (h : r.begin sessionId generation = (.ok (), r')) :
    r.active = none ∧ r'.active = some (fresh sessionId generation) := by
  unfold begin at h
  cases hactive : r.active with
  | some existing => rw [hactive] at h; cases h
  | none => rw [hactive] at h; cases h; exact ⟨rfl, rfl⟩

theorem begin_error {r r' : TurnRegistry} {sessionId : SessionId} {generation : Nat}
    {e : VibeCoderError} (h : r.begin sessionId generation = (.error e, r')) : r' = r := by
  unfold begin at h
  cases hactive : r.active with
  | some existing => rw [hactive] at h; cases h; rfl
  | none => rw [hactive] at h; cases h

theorem activeGeneration_some {r : TurnRegistry} {sessionId : SessionId} {generation : Nat}
    (h : r.activeGeneration sessionId = some generation) :
    ∃ cancelled, r.active = some ⟨sessionId, generation, cancelled, false⟩ := by
  unfold activeGeneration at h
  cases hactive : r.active with
  | none => rw [hactive] at h; cases h
  | some turn =>
    rw [hactive] at h
    dsimp only at h
    split at h
    · rename_i hturn
      obtain ⟨session, gen, cancelled, finished⟩ := turn
      obtain ⟨hsession, hfinished⟩ := hturn
      dsimp only at hsession hfinished h
      cases h
      subst hsession hfinished
      exact ⟨cancelled, rfl⟩
    · cases h

/-- A running turn is found. -/
theorem activeGeneration_of_active {r : TurnRegistry} {sessionId : SessionId} {generation : Nat}
    {cancelled : Bool} (h : r.active = some ⟨sessionId, generation, cancelled, false⟩) :
    r.activeGeneration sessionId = some generation := by
  unfold activeGeneration
  rw [h]
  exact if_pos ⟨rfl, rfl⟩

theorem markWorkerFinished_own {r : TurnRegistry} {sessionId : SessionId} {generation : Nat}
    {cancelled finished : Bool} (h : r.active = some ⟨sessionId, generation, cancelled, finished⟩) :
    r.markWorkerFinished sessionId generation =
      (.ok (), { active := some ⟨sessionId, generation, cancelled, true⟩ }) := by
  unfold markWorkerFinished
  rw [h]
  simp [ActiveTurn.isFor]

theorem markCancelAcknowledged_own {r : TurnRegistry} {sessionId : SessionId} {generation : Nat}
    {cancelled finished : Bool} (h : r.active = some ⟨sessionId, generation, cancelled, finished⟩) :
    r.markCancelAcknowledged sessionId =
      (.ok true, { active := some ⟨sessionId, generation, true, finished⟩ }) := by
  unfold markCancelAcknowledged
  rw [h]
  simp

theorem finish_own {r : TurnRegistry} {sessionId : SessionId} {generation : Nat}
    {cancelled finished : Bool} (h : r.active = some ⟨sessionId, generation, cancelled, finished⟩) :
    r.finish sessionId generation = (.ok cancelled, { active := none }) := by
  unfold finish
  rw [h]
  simp [ActiveTurn.isFor]

theorem forceClear_own {r : TurnRegistry} {sessionId : SessionId} {generation : Nat}
    {cancelled finished : Bool} (h : r.active = some ⟨sessionId, generation, cancelled, finished⟩) :
    r.forceClear sessionId generation = { active := none } := by
  unfold forceClear
  rw [h]
  simp [ActiveTurn.isFor]

end TurnRegistry

end VibeCoder.Jcode
