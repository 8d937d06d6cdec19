/-
  Failed calls of the command approval policy (`vibecoder-command-policy`).

  1. **Calls** — every operation of the engine that can fail, with the state it leaves.

  2. **One lemma a call** — a request, a decision and a revocation check everything before they
     change anything; the other two only read.

  3. **The exception** (`error_keeps_state_iff`) — an invalidation drops the pending requests of its
     project first, and fails then if the epoch of the project cannot be advanced.
-/
import VibeCoder.CommandPolicyRuns

namespace VibeCoder.CommandPolicyRuns

open CommandPolicyState

/-! ## Calls -/

/-- The operations of `CommandPolicyEngine`. -/
inductive Call where
  | requestCommand (uuid : BitVec 128) (sessionId : SessionId) (projectId : ProjectId)
      (command : CommandSpec)
  | decide (sessionId : SessionId) (projectId : ProjectId) (approval : CommandApprovalRequest)
      (decision : CommandApprovalDecision)
  | revokePendingForSession (sessionId : SessionId)
  | invalidateProjectAuthorizations (projectId : ProjectId)
  | validateExecutionEnvelope (envelope : CommandExecutionEnvelope)
  | pendingCount

/-- The answer without its value. -/
def ended {α : Type} (r : Result α × CommandPolicyState) : Result Unit × CommandPolicyState :=
  (r.1.map (fun _ => ()), r.2)

/-- Whether a call fails, and the state it leaves. -/
def Call.perform (config : CommandPolicyConfig) (s : CommandPolicyState) :
    Call → Result Unit × CommandPolicyState
  | .requestCommand uuid sessionId projectId command =>
    ended (s.requestCommand config uuid sessionId projectId command)
  | .decide sessionId projectId approval decision =>
    ended (s.decide sessionId projectId approval decision)
  | .revokePendingForSession sessionId => ended (s.revokePendingForSession sessionId)
  | .invalidateProjectAuthorizations projectId => ended (s.invalidateProjectAuthorizations projectId)
  | .validateExecutionEnvelope envelope => (s.validateExecutionEnvelope envelope, s)
  | .pendingCount => (.ok (), s)

/-- The state is as it was if the call failed. -/
def Atomic (s : CommandPolicyState) (r : Result Unit × CommandPolicyState) : Prop :=
  ∀ e, r.1 = .error e → r.2 = s

/-! ## One lemma a call -/

variable {config : CommandPolicyConfig} {s : CommandPolicyState}

theorem atomic_of_same {r : Result Unit × CommandPolicyState} (h : r.2 = s) : Atomic s r :=
  fun _ _ => h

/-- Nothing is promised of a call that succeeds. -/
theorem atomic_of_ok {α : Type} {r : Result α × CommandPolicyState} {a : α} (h : r.1 = .ok a) :
    Atomic s (ended r) := by
  intro e he
  change r.1.map (fun _ => ()) = .error e at he
  rw [h] at he
  cases he

theorem atomic_requestCommand (uuid : BitVec 128) (sessionId : SessionId) (projectId : ProjectId)
    (command : CommandSpec) :
    Atomic s (ended (s.requestCommand config uuid sessionId projectId command)) := by
  rcases requestCommand_cases config s uuid sessionId projectId command with ⟨hsame, -⟩ | h
  · exact atomic_of_same hsame
  · obtain ⟨approval, -, hcall⟩ := h
    exact atomic_of_ok (congrArg Prod.fst hcall)

/-- A decision that fails has failed before it removes the request. -/
theorem atomic_decide (sessionId : SessionId) (projectId : ProjectId)
    (approval : CommandApprovalRequest) (decision : CommandApprovalDecision) :
    Atomic s (ended (s.decide sessionId projectId approval decision)) := by
  rw [CommandPolicyState.decide]
  cases s.checkDecision sessionId projectId approval decision with
  | error e => exact atomic_of_same rfl
  | ok pending =>
    cases decision with
    | deny => exact atomic_of_ok rfl
    | allowOnce => exact atomic_of_ok rfl

theorem atomic_revokePendingForSession (sessionId : SessionId) :
    Atomic s (ended (s.revokePendingForSession sessionId)) := by
  rw [revokePendingForSession]
  split
  · exact atomic_of_same rfl
  · exact atomic_of_ok rfl

/-- The project still waits for a decision. -/
def Waiting (s : CommandPolicyState) (projectId : ProjectId) : Prop :=
  ∃ p ∈ s.pending, p.projectId = projectId

theorem dropProject_eq_iff {projectId : ProjectId} :
    dropProject s projectId = s ↔ ¬ Waiting s projectId := by
  have hpending : dropProject s projectId = s ↔
      s.pending.filter (fun p => p.projectId != projectId) = s.pending := by
    constructor
    · exact fun h => congrArg CommandPolicyState.pending h
    · intro h
      unfold dropProject
      rw [h]
  rw [hpending, List.filter_eq_self]
  constructor
  · rintro h ⟨p, hp, rfl⟩
    have hne := h p hp
    simp at hne
  · intro h p hp
    rw [bne_iff_ne]
    exact fun heq => h ⟨p, hp, heq⟩

/-- **An invalidation** is the exception. -/
theorem atomic_invalidate_iff (projectId : ProjectId) :
    Atomic s (ended (s.invalidateProjectAuthorizations projectId)) ↔
      ¬ (s.projectEpochs projectId ≥ u64Max ∧ Waiting s projectId) := by
  rw [invalidateProjectAuthorizations]
  dsimp only
  split
  · rename_i hmax
    -- the requests of the project are gone by now
    have hfailed : Atomic s (ended ((.error (commandError "command_project_epoch_overflow"),
        dropProject s projectId) : Result Unit × CommandPolicyState)) ↔
        dropProject s projectId = s :=
      ⟨fun h => h _ rfl, fun h => atomic_of_same h⟩
    refine hfailed.trans (dropProject_eq_iff.trans ?_)
    constructor
    · exact fun h hboth => h hboth.2
    · exact fun h hwaiting => h ⟨hmax, hwaiting⟩
  · rename_i hroom
    constructor
    · exact fun _ hboth => hroom hboth.1
    · exact fun _ => atomic_of_ok rfl

/-! ## The law -/

/-- An invalidation of a project that still waits for a decision, and whose epoch cannot be advanced. -/
def HalfDone (s : CommandPolicyState) (call : Call) : Prop :=
  ∃ projectId, call = .invalidateProjectAuthorizations projectId ∧
    s.projectEpochs projectId ≥ u64Max ∧ Waiting s projectId

/-- **Failed calls.**  A call that fails leaves the engine as it was, but for an invalidation of a
    project with a pending request and no epoch left. -/
theorem error_keeps_state_iff (config : CommandPolicyConfig) (s : CommandPolicyState) (call : Call) :
    (∀ e, (call.perform config s).1 = .error e → (call.perform config s).2 = s) ↔
      ¬ HalfDone s call := by
  have hother : (∀ projectId, call ≠ .invalidateProjectAuthorizations projectId) →
      ¬ HalfDone s call := by
    rintro hne ⟨projectId, rfl, -⟩
    exact hne projectId rfl
  cases call with
  | requestCommand uuid sessionId projectId command =>
    exact iff_of_true (atomic_requestCommand uuid sessionId projectId command) (hother nofun)
  | decide sessionId projectId approval decision =>
    exact iff_of_true (atomic_decide sessionId projectId approval decision) (hother nofun)
  | revokePendingForSession sessionId =>
    exact iff_of_true (atomic_revokePendingForSession sessionId) (hother nofun)
  | validateExecutionEnvelope envelope => exact iff_of_true (atomic_of_same rfl) (hother nofun)
  | pendingCount => exact iff_of_true (atomic_of_same rfl) (hother nofun)
  | invalidateProjectAuthorizations projectId =>
    refine (atomic_invalidate_iff projectId).trans (not_congr ?_)
    constructor
    · exact fun h => ⟨projectId, rfl, h⟩
    · rintro ⟨other, heq, h⟩
      cases heq
      exact h

/-- An engine with one pending request, in a project without an epoch left. -/
def exhausted : CommandPolicyState where
  pending := [{
    requestId := hyphenated 1
    sessionId := ⟨"session_1"⟩
    projectId := ⟨0⟩
    command := { program := .runtimeTool "node", args := ["build.mjs"], workingDir := "." } }]
  projectEpochs := fun _ => u64Max

/-- The invalidation fails, and has dropped the request. -/
theorem failed_invalidation_drops_request :
    ¬ ∀ e, ((Call.invalidateProjectAuthorizations ⟨0⟩).perform
        ⟨["node"], false⟩ exhausted).1 = .error e →
      ((Call.invalidateProjectAuthorizations ⟨0⟩).perform ⟨["node"], false⟩ exhausted).2 =
        exhausted := by
  intro h
  have hsame := congrArg (fun t : CommandPolicyState => t.pending.length) (h _ rfl)
  revert hsame
  decide

end VibeCoder.CommandPolicyRuns
