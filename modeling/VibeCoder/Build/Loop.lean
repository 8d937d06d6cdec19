/-
  The guard of a repair loop (`vibecoder-build-loop`): it counts repair attempts and repeated
  failures, and says whether another repair or rebuild may begin.

  Methods that take `&mut self` return the answer together with the guard after the call.  The
  cancellation flag is shared with its holders: it is a field here, and a request sets it between
  two calls.  Every call reads it at most once, so a request that arrives during a call is one that
  arrived before or after it.

  A loop id comes from `Uuid::new_v4`; another guard is one with another id.
-/
import VibeCoder.Build.Repair

namespace VibeCoder.Build

def maxRepairAttempts : Nat := 8
def maxSameFailureOccurrences : Nat := 4

/-- `u8::saturating_add(1)`. -/
def saturatingSucc (n : Nat) : Nat := min (n + 1) 255

/-- `BuildRepairLoopPolicy`. -/
structure BuildRepairLoopPolicy where
  maxRepairAttempts : Nat
  maxSameFailureOccurrences : Nat
  deriving DecidableEq, Repr

/-- `BuildRepairLoopPolicy::default`. -/
def BuildRepairLoopPolicy.default : BuildRepairLoopPolicy :=
  { maxRepairAttempts := 3
    maxSameFailureOccurrences := 2 }

/-- `BuildRepairLoopPolicy::validate`. -/
def BuildRepairLoopPolicy.validate (policy : BuildRepairLoopPolicy) :
    Result BuildRepairLoopPolicy :=
  if policy.maxRepairAttempts = 0 ∨ policy.maxRepairAttempts > Build.maxRepairAttempts then
    .error (buildError "build_loop_retry_budget_invalid")
  else if policy.maxSameFailureOccurrences < 2 ∨
      policy.maxSameFailureOccurrences > Build.maxSameFailureOccurrences then
    .error (buildError "build_loop_same_failure_limit_invalid")
  else .ok policy

/-- A policy that was accepted. -/
structure BuildRepairLoopPolicy.Valid (policy : BuildRepairLoopPolicy) : Prop where
  attempts_pos : 0 < policy.maxRepairAttempts
  attempts_le : policy.maxRepairAttempts ≤ Build.maxRepairAttempts
  two_le_same : 2 ≤ policy.maxSameFailureOccurrences
  same_le : policy.maxSameFailureOccurrences ≤ Build.maxSameFailureOccurrences

theorem validate_eq_ok {policy accepted : BuildRepairLoopPolicy}
    (h : policy.validate = .ok accepted) : accepted = policy ∧ policy.Valid := by
  unfold BuildRepairLoopPolicy.validate at h
  split at h
  · cases h
  rename_i hattempts
  split at h
  · cases h
  rename_i hsame
  rw [not_or] at hattempts hsame
  cases h
  exact ⟨rfl, by omega, by omega, by omega, by omega⟩

/-- `BuildRepairLoopStopReason`. -/
inductive BuildRepairLoopStopReason where
  | succeeded
  | cancelled
  | timedOut
  | retryBudgetExhausted
  | repeatedFailure
  | repairTurnCancelled
  deriving DecidableEq, Repr

/-- `LoopPhase`. -/
inductive LoopPhase where
  | awaitingBuildResult
  | repairRunning (attempt : Nat)
  | awaitingRebuild (attempt : Nat)
  | terminal (reason : BuildRepairLoopStopReason)
  deriving DecidableEq, Repr

/-- `BuildRepairLoopId(Uuid)`. -/
structure BuildRepairLoopId where
  uuid : BitVec 128
  deriving DecidableEq, Repr

/-- `RepairAttemptPermit`. -/
structure RepairAttemptPermit where
  loopId : BuildRepairLoopId
  projectId : ProjectId
  attempt : Nat
  fingerprintSha256 : List Char
  evidence : BuildFailureEvidence

/-- `RebuildAttemptPermit`. -/
structure RebuildAttemptPermit where
  loopId : BuildRepairLoopId
  projectId : ProjectId
  target : BuildTargetKind
  attempt : Nat
  deriving DecidableEq

/-- `RepairAuthorization`. -/
inductive RepairAuthorization where
  | repair (permit : RepairAttemptPermit)
  | stop (reason : BuildRepairLoopStopReason)

/-- `BuildRepairLoopGuard`. -/
structure BuildRepairLoopGuard where
  loopId : BuildRepairLoopId
  projectId : ProjectId
  target : BuildTargetKind
  policy : BuildRepairLoopPolicy
  cancelRequested : Bool
  phase : LoopPhase
  repairAttemptsStarted : Nat
  lastFailureFingerprint : Option (List Char)
  sameFailureOccurrences : Nat
  valid : policy.Valid

namespace BuildRepairLoopGuard

/-- `BuildRepairLoopGuard::new`, with the id that was drawn. -/
def new (loopId : BuildRepairLoopId) (projectId : ProjectId) (target : BuildTargetKind)
    (policy : BuildRepairLoopPolicy) : Result BuildRepairLoopGuard :=
  match h : policy.validate with
  | .error e => .error e
  | .ok _ =>
    .ok {
      loopId := loopId
      projectId := projectId
      target := target
      policy := policy
      cancelRequested := false
      phase := .awaitingBuildResult
      repairAttemptsStarted := 0
      lastFailureFingerprint := none
      sameFailureOccurrences := 0
      valid := (validate_eq_ok h).2 }

/-- `BuildRepairLoopCancellation::request`. -/
def requestCancel (guard : BuildRepairLoopGuard) : BuildRepairLoopGuard :=
  { guard with cancelRequested := true }

/-- `stop_reason`. -/
def stopReason (guard : BuildRepairLoopGuard) : Option BuildRepairLoopStopReason :=
  match guard.phase with
  | .terminal reason => some reason
  | .awaitingBuildResult | .repairRunning _ | .awaitingRebuild _ =>
    if guard.cancelRequested then some .cancelled else none

/-- The guard stopped for a reason. -/
def stopWith (guard : BuildRepairLoopGuard) (reason : BuildRepairLoopStopReason) :
    BuildRepairLoopGuard :=
  { guard with phase := .terminal reason }

/-- The result is one of the build that the guard looks after. -/
def inScope (guard : BuildRepairLoopGuard) (result : BuildResult) : Prop :=
  result.projectId = guard.projectId ∧ result.target = guard.target

instance (guard : BuildRepairLoopGuard) (result : BuildResult) :
    Decidable (guard.inScope result) :=
  inferInstanceAs (Decidable (_ ∧ _))

/-- `finish_nonfailed_build`. -/
def finishNonfailedBuild (guard : BuildRepairLoopGuard) (result : BuildResult) :
    Result BuildRepairLoopStopReason × BuildRepairLoopGuard :=
  if ¬ guard.inScope result then (.error (buildError "build_loop_result_scope_mismatch"), guard)
  else if guard.phase ≠ .awaitingBuildResult then
    (.error (buildError "build_loop_not_awaiting_build_result"), guard)
  else
    match result.state with
    | .succeeded => (.ok .succeeded, guard.stopWith .succeeded)
    | .cancelled => (.ok .cancelled, guard.stopWith .cancelled)
    | .timedOut => (.ok .timedOut, guard.stopWith .timedOut)
    | .failed =>
      (.error (buildError "build_loop_failed_result_requires_repair_authorization"), guard)
    | .queued | .running =>
      (.error (buildError "build_loop_requires_terminal_build_result"), guard)

/-- The guard after a failure was counted. -/
def countFailure (guard : BuildRepairLoopGuard) (fingerprint : List Char) : BuildRepairLoopGuard :=
  if guard.lastFailureFingerprint = some fingerprint then
    { guard with sameFailureOccurrences := saturatingSucc guard.sameFailureOccurrences }
  else
    { guard with
      lastFailureFingerprint := some fingerprint
      sameFailureOccurrences := 1 }

/-- `authorize_repair`, from where a failure is counted. -/
def decideRepair (guard : BuildRepairLoopGuard) (evidence : BuildFailureEvidence) :
    RepairAuthorization × BuildRepairLoopGuard :=
  let counted := guard.countFailure evidence.fingerprintSha256
  if counted.sameFailureOccurrences ≥ counted.policy.maxSameFailureOccurrences then
    (.stop .repeatedFailure, counted.stopWith .repeatedFailure)
  else if counted.repairAttemptsStarted ≥ counted.policy.maxRepairAttempts then
    (.stop .retryBudgetExhausted, counted.stopWith .retryBudgetExhausted)
  else
    let attempt := saturatingSucc counted.repairAttemptsStarted
    (.repair {
        loopId := counted.loopId
        projectId := counted.projectId
        attempt := attempt
        fingerprintSha256 := evidence.fingerprintSha256
        evidence := evidence },
      { counted with
        repairAttemptsStarted := attempt
        phase := .repairRunning attempt })

/-- `authorize_repair`. -/
def authorizeRepair (sha256 : Sha256) (guard : BuildRepairLoopGuard) (result : BuildResult) :
    Result RepairAuthorization × BuildRepairLoopGuard :=
  if ¬ guard.inScope result then (.error (buildError "build_loop_result_scope_mismatch"), guard)
  else if guard.phase ≠ .awaitingBuildResult then
    (.error (buildError "build_loop_not_awaiting_build_result"), guard)
  else
    match result.state with
    | .succeeded => (.ok (.stop .succeeded), guard.stopWith .succeeded)
    | .cancelled => (.ok (.stop .cancelled), guard.stopWith .cancelled)
    | .timedOut => (.ok (.stop .timedOut), guard.stopWith .timedOut)
    | .queued | .running =>
      (.error (buildError "build_loop_requires_terminal_build_result"), guard)
    | .failed =>
      if guard.cancelRequested then (.ok (.stop .cancelled), guard.stopWith .cancelled)
      else
        match BuildRepairPlan.fromFailedBuild sha256 result with
        | .error e => (.error e, guard)
        | .ok plan =>
          let (authorization, guard) := guard.decideRepair plan.evidence
          (.ok authorization, guard)

/-- `verify_repair_permit`. -/
def verifyRepairPermit (guard : BuildRepairLoopGuard) (permit : RepairAttemptPermit) :
    Result Unit :=
  if permit.loopId ≠ guard.loopId ∨ permit.projectId ≠ guard.projectId then
    .error (buildError "build_loop_repair_permit_scope_mismatch")
  else
    match guard.phase with
    | .repairRunning attempt =>
      if attempt ≠ permit.attempt then .error (buildError "build_loop_repair_attempt_mismatch")
      else .ok ()
    | .awaitingBuildResult | .awaitingRebuild _ | .terminal _ =>
      .error (buildError "build_loop_repair_not_running")

/-- `finish_repair`. -/
def finishRepair (guard : BuildRepairLoopGuard) (permit : RepairAttemptPermit) (turn : TurnResult)
    (observedFingerprint : List Char) : Result Unit × BuildRepairLoopGuard :=
  match guard.verifyRepairPermit permit with
  | .error e => (.error e, guard)
  | .ok () =>
    if permit.fingerprintSha256 ≠ observedFingerprint then
      (.error (buildError "build_loop_repair_fingerprint_mismatch"), guard)
    else if guard.cancelRequested then (.ok (), guard.stopWith .cancelled)
    else if turn.cancelled then (.ok (), guard.stopWith .repairTurnCancelled)
    else (.ok (), { guard with phase := .awaitingRebuild permit.attempt })

/-- `rebuild_permit`. -/
def rebuildPermit (guard : BuildRepairLoopGuard) : Result RebuildAttemptPermit :=
  if guard.cancelRequested then .error .cancelled
  else
    match guard.phase with
    | .awaitingRebuild attempt =>
      .ok {
        loopId := guard.loopId
        projectId := guard.projectId
        target := guard.target
        attempt := attempt }
    | .awaitingBuildResult | .repairRunning _ | .terminal _ =>
      .error (buildError "build_loop_not_awaiting_rebuild")

/-- `mark_rebuild_prepared`. -/
def markRebuildPrepared (guard : BuildRepairLoopGuard) (permit : RebuildAttemptPermit) :
    Result Unit × BuildRepairLoopGuard :=
  if permit.loopId ≠ guard.loopId ∨ permit.projectId ≠ guard.projectId ∨
      permit.target ≠ guard.target then
    (.error (buildError "build_loop_rebuild_permit_scope_mismatch"), guard)
  else
    match guard.phase with
    | .awaitingRebuild attempt =>
      if attempt ≠ permit.attempt then
        (.error (buildError "build_loop_rebuild_attempt_mismatch"), guard)
      else if guard.cancelRequested then (.error .cancelled, guard.stopWith .cancelled)
      else (.ok (), { guard with phase := .awaitingBuildResult })
    | .awaitingBuildResult | .repairRunning _ | .terminal _ =>
      (.error (buildError "build_loop_not_awaiting_rebuild"), guard)

end BuildRepairLoopGuard

/-! ## The Core's part -/

/-- `WebsiteBuildStage`. -/
inductive WebsiteBuildStage where
  | dependencyInstall
  | buildScript
  deriving DecidableEq, Repr

/-- `WebsiteBuildPipelineState`. -/
inductive WebsiteBuildPipelineState where
  | noBuildRequired
  | awaitingApproval (stage : WebsiteBuildStage)
  | running (stage : WebsiteBuildStage)
  | succeeded
  | failed
  | cancelled
  | timedOut
  deriving DecidableEq, Repr

/-- `WebsiteBuildStageCompletion`: what is read of its pipeline, and its result. -/
structure WebsiteBuildStageCompletion where
  projectId : ProjectId
  pipelineState : WebsiteBuildPipelineState
  result : BuildResult

/-- `record_guarded_website_build_completion`. -/
def recordGuardedWebsiteBuildCompletion (guard : BuildRepairLoopGuard)
    (completion : WebsiteBuildStageCompletion) :
    Result (Option BuildRepairLoopStopReason) × BuildRepairLoopGuard :=
  if guard.projectId ≠ completion.projectId ∨ guard.target ≠ .website then
    (.error (buildError "build_loop_project_scope_mismatch"), guard)
  else
    match completion.pipelineState with
    | .awaitingApproval _ | .failed => (.ok none, guard)
    | .succeeded | .cancelled | .timedOut =>
      match guard.finishNonfailedBuild completion.result with
      | (.ok reason, guard) => (.ok (some reason), guard)
      | (.error e, guard) => (.error e, guard)
    | .noBuildRequired | .running _ =>
      (.error (buildError "build_loop_website_completion_state_invalid"), guard)

/-- `request_build_repair_loop_cancel`: the flag first, then the outstanding approvals. -/
def requestBuildRepairLoopCancel (guard : BuildRepairLoopGuard) (commandPolicy : CommandPolicyState) :
    Result Unit × BuildRepairLoopGuard × CommandPolicyState :=
  let (answer, commandPolicy) := commandPolicy.invalidateProjectAuthorizations guard.projectId
  (answer, guard.requestCancel, commandPolicy)

end VibeCoder.Build
