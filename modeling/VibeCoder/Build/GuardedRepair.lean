/-
  One guarded repair turn (`run_guarded_build_repair_turn`, `vibecoder-core`): the guard issues a
  permit, the repair turn runs, and the permit is handed back to the guard.

  The guard is borrowed for the whole call, so that nobody else moves it; its cancellation flag is
  shared, and read again after the turn.

  1. **The call** — as a program of the core over what its surroundings answer.

  2. **The turn** — it succeeds just when everything it asks for does (`repairTurn_cases`).

  3. **Settling** — an error of the turn leaves through the `?` with the permit, and the guard in
     the phase that only this permit ends: the call settles the guard iff no permit was issued, or
     nothing in the turn failed (`settled_iff_smooth`).
-/
import VibeCoder.Build.LoopRuns
import VibeCoder.Core.Programs

namespace VibeCoder.Build

open Resume

/-! ## The call -/

/-- `BuildRepairTurnOutcome`. -/
structure BuildRepairTurnOutcome where
  checkpoint : CheckpointMetadata
  failure : BuildFailureEvidence
  turn : TurnResult

/-- `GuardedBuildRepairTurnOutcome`. -/
structure GuardedBuildRepairTurnOutcome where
  attempt : Nat
  repair : BuildRepairTurnOutcome
  stopReason : Option BuildRepairLoopStopReason

/-- `GuardedBuildRepairDecision`. -/
inductive GuardedBuildRepairDecision where
  | repairTurn (outcome : GuardedBuildRepairTurnOutcome)
  | stop (reason : BuildRepairLoopStopReason)

variable (config : CoreConfig) (sha256 : Sha256)

/-- `run_first_build_repair_turn`. -/
def runFirstBuildRepairTurn (project : ProjectId) (session : SessionId)
    (failedBuild : BuildResult) (model : Option ModelRef) : CoreM BuildRepairTurnOutcome := do
  let plan ← resume (BuildRepairPlan.fromFailedBuild sha256 failedBuild)
  let (checkpoint, turn) ← VibeCoder.runFirstBuildRepairTurn config project session
    (.ok { projectId := plan.evidence.projectId, prompt := String.ofList plan.prompt }) model
  pure { checkpoint := checkpoint, failure := plan.evidence, turn := turn }

/-- What a call answers, and the guard it leaves. -/
abbrev GuardedAnswer : Type := Result GuardedBuildRepairDecision × BuildRepairLoopGuard

/-- `run_guarded_build_repair_turn`, of a guard whose cancellation flag is `flag`. -/
def runGuardedBuildRepairTurn (flag : Flag) (guard : BuildRepairLoopGuard) (project : ProjectId)
    (session : SessionId) (failedBuild : BuildResult) (model : Option ModelRef) :
    CoreM GuardedAnswer :=
  if guard.projectId ≠ project ∨ guard.target ≠ failedBuild.target then
    pure (.error (buildError "build_loop_project_scope_mismatch"), guard)
  else
    match guard.authorizeRepair sha256 failedBuild with
    | (.error e, guard) => pure (.error e, guard)
    | (.ok (.stop reason), guard) => pure (.ok (.stop reason), guard)
    | (.ok (.repair permit), guard) => do
      match ← settle (runFirstBuildRepairTurn config sha256 project session failedBuild model) with
      | .error e => pure (.error e, guard)
      | .ok repair =>
        let requested ← act (.isRequested flag)
        let guard := if requested then guard.requestCancel else guard
        match guard.finishRepair permit repair.turn repair.failure.fingerprintSha256 with
        | (.error e, guard) => pure (.error e, guard)
        | (.ok (), guard) =>
          if repair.failure.fingerprintSha256 ≠ permit.fingerprintSha256 then
            pure (.error (buildError "build_loop_repair_evidence_changed"), guard)
          else do
            let requested ← act (.isRequested flag)
            let guard := if requested then guard.requestCancel else guard
            pure (.ok (.repairTurn {
              attempt := permit.attempt
              repair := repair
              stopReason := guard.stopReason }), guard)

/-- What the surroundings answer in the course of one call: other calls, the workspace, the process
    runtime, the agent, the command policy and the checkpoint store. -/
structure RepairSurroundings where
  lifecycle : Result Unit
  verifyProject : Result Unit
  activeForProject : Result Nat
  workspaceQuiescent : Result Unit
  sessionBinding : Result Unit
  invalidateBefore : Result Unit
  createCheckpoint : Result CheckpointMetadata
  turn : Result TurnResult
  invalidateAfter : Result Unit
  /-- A cancellation request arrived while the turn ran, .. -/
  requestedInTurn : Bool
  /-- .. or by the time the stop reason is read. -/
  requestedAfter : Bool

/-- How far a call is. -/
inductive RepairStage where
  | preparing
  | turnEnded
  | finished
  deriving DecidableEq, Repr

/-- The answer to one operation.  The call performs no others. -/
def RepairSurroundings.answer (surroundings : RepairSurroundings) (o : Op) (stage : RepairStage) :
    Result o.Val × RepairStage :=
  match o with
  | .acquire _ => (surroundings.lifecycle, stage)
  | .release _ | .beginTurn _ _ _ _ => (.ok (), stage)
  | .query (.verifyProject _) => (surroundings.verifyProject, stage)
  | .query (.activeForProject _) => (surroundings.activeForProject, stage)
  | .query (.ensureWorkspaceQuiescent _) => (surroundings.workspaceQuiescent, stage)
  | .query (.verifySessionProjectBinding _ _) => (surroundings.sessionBinding, stage)
  | .createCheckpoint _ _ => (surroundings.createCheckpoint, stage)
  | .endTurn _ _ => (.ok ([], surroundings.turn), .turnEnded)
  | .invalidateAuthorizations _ _ =>
    match stage with
    | .preparing => (surroundings.invalidateBefore, stage)
    | .turnEnded | .finished => (surroundings.invalidateAfter, stage)
  | .isRequested _ =>
    match stage with
    | .preparing | .turnEnded => (.ok surroundings.requestedInTurn, .finished)
    | .finished => (.ok surroundings.requestedAfter, stage)
  | _ => (.error (.invalidRequest "operation_not_performed"), stage)

/-- Run a part of a call. -/
def RepairSurroundings.run {α : Type} (surroundings : RepairSurroundings) (p : CoreM α)
    (stage : RepairStage) : Result α × RepairStage :=
  let ran := runAlone (fun (_ : Unit) => surroundings.answer) (fun _ => ()) p 0 stage
  (ran.1, ran.2.2)

theorem RepairSurroundings.run_step (surroundings : RepairSurroundings) {α : Type} (p : CoreM α)
    (n : Nat) (stage : RepairStage) :
    ((runAlone (fun (_ : Unit) => surroundings.answer) (fun _ => ()) p n stage).1,
      (runAlone (fun (_ : Unit) => surroundings.answer) (fun _ => ()) p n stage).2.2) =
    surroundings.run p stage := by
  obtain ⟨hanswer, hstage⟩ :=
    Proc.run_const (fun (_ : Unit) => surroundings.answer) () p.run n 0 stage
  exact Prod.ext hanswer hstage

/-- A settled part hands its result on. -/
theorem RepairSurroundings.run_settle (surroundings : RepairSurroundings) {α β : Type}
    (p : CoreM α) (f : Result α → CoreM β) (stage : RepairStage) :
    surroundings.run (settle p >>= f) stage =
      surroundings.run (f (surroundings.run p stage).1) (surroundings.run p stage).2 := by
  rw [run, runAlone_settle]
  exact surroundings.run_step _ _ _

theorem RepairSurroundings.run_bind_error {surroundings : RepairSurroundings} {α β : Type}
    {p : CoreM α} (f : α → CoreM β) {stage : RepairStage} {e : VibeCoderError}
    (h : (surroundings.run p stage).1 = .error e) :
    (surroundings.run (p >>= f) stage).1 = .error e := by
  rcases hrun : runAlone (fun (_ : Unit) => surroundings.answer) (fun _ => ()) p 0 stage with
    ⟨answer, n, next⟩
  have hanswer : answer = .error e := by
    rw [run, hrun] at h
    exact h
  rw [run, runAlone_bind_error _ _ f (hanswer ▸ hrun)]

theorem RepairSurroundings.run_bind_ok {surroundings : RepairSurroundings} {α β : Type}
    {p : CoreM α} (f : α → CoreM β) {stage next : RepairStage} {a : α}
    (h : surroundings.run p stage = (.ok a, next)) :
    surroundings.run (p >>= f) stage = surroundings.run (f a) next := by
  rcases hrun : runAlone (fun (_ : Unit) => surroundings.answer) (fun _ => ()) p 0 stage with
    ⟨answer, n, last⟩
  rw [run, hrun] at h
  cases h
  rw [run, runAlone_bind_ok _ _ f hrun]
  exact surroundings.run_step _ _ _

/-! ## The turn -/

/-- Nothing that the repair turn asks for fails. -/
structure Smooth (surroundings : RepairSurroundings) : Prop where
  lifecycle : surroundings.lifecycle = .ok ()
  verified : surroundings.verifyProject = .ok ()
  idle : config.processRuntime = true → surroundings.activeForProject = .ok 0
  quiescent : surroundings.workspaceQuiescent = .ok ()
  bound : surroundings.sessionBinding = .ok ()
  before : surroundings.invalidateBefore = .ok ()
  store : config.checkpointStore = true
  checkpointed : ∃ checkpoint, surroundings.createCheckpoint = .ok checkpoint
  answered : ∃ turn, surroundings.turn = .ok turn
  after : surroundings.invalidateAfter = .ok ()

variable {config sha256} {surroundings : RepairSurroundings} {project : ProjectId}
  {session : SessionId} {failedBuild : BuildResult} {model : Option ModelRef}
  {plan : BuildRepairPlan}

/-- The first thing that fails fails the turn. -/
theorem firstBuildRepairTurn_cases (project : ProjectId) (session : SessionId)
    (model : Option ModelRef) (surroundings : RepairSurroundings) (corePlan : VibeCoder.BuildRepairPlan) :
    (∃ checkpoint turn, surroundings.run (withLifecycle project
        (firstBuildRepairTurn config project session corePlan model)) .preparing =
      (.ok (checkpoint, turn), .turnEnded)) ∧ Smooth config surroundings ∨
    (∃ e, (surroundings.run (withLifecycle project
        (firstBuildRepairTurn config project session corePlan model)) .preparing).1 = .error e) ∧
      ¬ Smooth config surroundings := by
  obtain ⟨lifecycle, verifyProject, active, quiescent, binding, before, checkpoint, turn, after,
    inTurn, afterTurn⟩ := surroundings
  rw [firstBuildRepairTurn, ensureNoActiveProjectProcess, checkpointStore]
  rcases lifecycle with e | ⟨⟩
  · exact .inr ⟨⟨e, rfl⟩, fun h => by cases h.lifecycle⟩
  rcases verifyProject with e | ⟨⟩
  · exact .inr ⟨⟨e, rfl⟩, fun h => by cases h.verified⟩
  cases hruntime : config.processRuntime
  case' true =>
    rcases active with e | _ | running
    · exact .inr ⟨⟨e, rfl⟩, fun h => by cases h.idle hruntime⟩
    case' succ => exact .inr ⟨⟨_, rfl⟩, fun h => by cases h.idle hruntime⟩
  -- without a process runtime, or with no process running, the rest is the same
  all_goals
    rcases quiescent with e | ⟨⟩
    · exact .inr ⟨⟨e, rfl⟩, fun h => by cases h.quiescent⟩
    rcases binding with e | ⟨⟩
    · exact .inr ⟨⟨e, rfl⟩, fun h => by cases h.bound⟩
    rcases before with e | ⟨⟩
    · exact .inr ⟨⟨e, rfl⟩, fun h => by cases h.before⟩
    cases hstore : config.checkpointStore with
    | false => exact .inr ⟨⟨_, rfl⟩, fun h => by cases hstore.symm.trans h.store⟩
    | true =>
      rcases checkpoint with e | checkpoint
      · refine .inr ⟨⟨e, rfl⟩, fun h => ?_⟩
        obtain ⟨checkpoint, hanswer⟩ := h.checkpointed
        cases hanswer
      rcases after with e | ⟨⟩
      · exact .inr ⟨⟨e, rfl⟩, fun h => by cases h.after⟩
      rcases turn with e | turn
      · refine .inr ⟨⟨e, rfl⟩, fun h => ?_⟩
        obtain ⟨turn, hanswer⟩ := h.answered
        cases hanswer
      refine .inl ⟨⟨checkpoint, turn, rfl⟩, ⟨rfl, rfl, fun h => ?_, rfl, rfl, rfl, hstore,
        ⟨checkpoint, rfl⟩, ⟨turn, rfl⟩, rfl⟩⟩
      first
        | rfl
        | cases hruntime.symm.trans h

/-- The turn of a build that has a plan, for its own project. -/
theorem repairTurn_cases (session : SessionId) (model : Option ModelRef)
    (surroundings : RepairSurroundings)
    (hplan : BuildRepairPlan.fromFailedBuild sha256 failedBuild = .ok plan)
    (hproject : plan.evidence.projectId = project) :
    (∃ checkpoint turn, surroundings.run
        (runFirstBuildRepairTurn config sha256 project session failedBuild model) .preparing =
      (.ok ⟨checkpoint, plan.evidence, turn⟩, .turnEnded)) ∧ Smooth config surroundings ∨
    (∃ e, (surroundings.run
        (runFirstBuildRepairTurn config sha256 project session failedBuild model) .preparing).1 =
      .error e) ∧ ¬ Smooth config surroundings := by
  have hcall : runFirstBuildRepairTurn config sha256 project session failedBuild model =
      (withLifecycle project (firstBuildRepairTurn config project session
          { projectId := plan.evidence.projectId, prompt := String.ofList plan.prompt } model) >>=
        fun (checkpoint, turn) => pure ⟨checkpoint, plan.evidence, turn⟩) := by
    subst hproject
    rw [runFirstBuildRepairTurn, hplan]
    unfold VibeCoder.runFirstBuildRepairTurn
    show (failIf (plan.evidence.projectId != plan.evidence.projectId) _ >>= fun _ => _) >>= _ = _
    rw [bne_self_eq_false]
    rfl
  rw [hcall]
  rcases firstBuildRepairTurn_cases project session model surroundings _ with ⟨⟨checkpoint, turn, hrun⟩, hsmooth⟩ | ⟨⟨e, hrun⟩, hrough⟩
  · left
    refine ⟨⟨checkpoint, turn, ?_⟩, hsmooth⟩
    rw [RepairSurroundings.run_bind_ok _ hrun]
    rfl
  · right
    exact ⟨⟨e, RepairSurroundings.run_bind_error _ hrun⟩, hrough⟩

/-! ## Settling -/

/-- The guard lets a repair attempt begin. -/
structure Begins (sha256 : Sha256) (guard : BuildRepairLoopGuard) (project : ProjectId)
    (failedBuild : BuildResult) : Prop where
  project : guard.projectId = project
  inScope : guard.inScope failedBuild
  awaiting : guard.phase = .awaitingBuildResult
  failed : failedBuild.state = .failed
  unrequested : guard.cancelRequested = false
  allowed : ∃ plan, BuildRepairPlan.fromFailedBuild sha256 failedBuild = .ok plan ∧
    (guard.countFailure plan.evidence.fingerprintSha256).sameFailureOccurrences <
      guard.policy.maxSameFailureOccurrences ∧
    guard.repairAttemptsStarted < guard.policy.maxRepairAttempts

/-- An error leaves the guard as it was, or ends its loop. -/
def Settles (guard : BuildRepairLoopGuard) (answer : GuardedAnswer) : Prop :=
  ∀ e, answer.1 = .error e → answer.2 = guard ∨ ∃ reason, answer.2.phase = .terminal reason

variable {guard : BuildRepairLoopGuard}

/-- A permit that was just issued. -/
structure Issued (guard next : BuildRepairLoopGuard) (plan : BuildRepairPlan)
    (permit : RepairAttemptPermit) : Prop where
  fits : LoopRuns.Fits next permit
  fingerprint : permit.fingerprintSha256 = plan.evidence.fingerprintSha256

theorem decideRepair_cases (guard : BuildRepairLoopGuard) (plan : BuildRepairPlan) :
    (∃ reason next, guard.decideRepair plan.evidence = (.stop reason, next)) ∧
      ¬ ((guard.countFailure plan.evidence.fingerprintSha256).sameFailureOccurrences <
          guard.policy.maxSameFailureOccurrences ∧
        guard.repairAttemptsStarted < guard.policy.maxRepairAttempts) ∨
    (∃ permit next, guard.decideRepair plan.evidence = (.repair permit, next) ∧
      Issued guard next plan permit) ∧
      (guard.countFailure plan.evidence.fingerprintSha256).sameFailureOccurrences <
        guard.policy.maxSameFailureOccurrences ∧
      guard.repairAttemptsStarted < guard.policy.maxRepairAttempts := by
  obtain ⟨hpolicy, -, -, hstarted⟩ :=
    LoopRuns.countFailure_rest guard plan.evidence.fingerprintSha256
  rw [← hpolicy, ← hstarted, BuildRepairLoopGuard.decideRepair]
  dsimp only
  split_ifs with hrepeated hexhausted
  · exact .inl ⟨⟨_, _, rfl⟩, fun h => absurd h.1 (Nat.not_lt.mpr hrepeated)⟩
  · exact .inl ⟨⟨_, _, rfl⟩, fun h => absurd h.2 (Nat.not_lt.mpr hexhausted)⟩
  · exact .inr ⟨⟨_, _, rfl, ⟨rfl, rfl, rfl⟩, rfl⟩, Nat.not_le.mp hrepeated,
      Nat.not_le.mp hexhausted⟩

/-- A permit is issued just when an attempt begins; otherwise the call ends with the answer of the
    guard, which an error does not change. -/
theorem authorizeRepair_begins (sha256 : Sha256) (failedBuild : BuildResult)
    (hproject : guard.projectId = project) :
    (∃ plan permit next, BuildRepairPlan.fromFailedBuild sha256 failedBuild = .ok plan ∧
      guard.authorizeRepair sha256 failedBuild = (.ok (.repair permit), next) ∧
      Issued guard next plan permit) ∧ Begins sha256 guard project failedBuild ∨
    ((∃ e, guard.authorizeRepair sha256 failedBuild = (.error e, guard)) ∨
      ∃ reason next, guard.authorizeRepair sha256 failedBuild = (.ok (.stop reason), next)) ∧
      ¬ Begins sha256 guard project failedBuild := by
  rw [BuildRepairLoopGuard.authorizeRepair]
  split
  · rename_i hscope
    exact .inr ⟨.inl ⟨_, rfl⟩, fun h => hscope h.inScope⟩
  rename_i hscope
  rw [not_not] at hscope
  split
  · rename_i hphase
    exact .inr ⟨.inl ⟨_, rfl⟩, fun h => hphase h.awaiting⟩
  rename_i hphase
  rw [not_not] at hphase
  cases hstate : failedBuild.state with
  | succeeded => exact .inr ⟨.inr ⟨_, _, rfl⟩, fun h => by cases hstate.symm.trans h.failed⟩
  | cancelled => exact .inr ⟨.inr ⟨_, _, rfl⟩, fun h => by cases hstate.symm.trans h.failed⟩
  | timedOut => exact .inr ⟨.inr ⟨_, _, rfl⟩, fun h => by cases hstate.symm.trans h.failed⟩
  | queued => exact .inr ⟨.inl ⟨_, rfl⟩, fun h => by cases hstate.symm.trans h.failed⟩
  | running => exact .inr ⟨.inl ⟨_, rfl⟩, fun h => by cases hstate.symm.trans h.failed⟩
  | failed =>
    dsimp only
    split
    · rename_i hflag
      exact .inr ⟨.inr ⟨_, _, rfl⟩, fun h => by cases hflag.symm.trans h.unrequested⟩
    rename_i hflag
    rcases hplan : BuildRepairPlan.fromFailedBuild sha256 failedBuild with e | plan
    · refine .inr ⟨.inl ⟨e, rfl⟩, fun h => ?_⟩
      obtain ⟨plan, hplan', -⟩ := h.allowed
      cases hplan.symm.trans hplan'
    dsimp only
    rcases decideRepair_cases guard plan with
      ⟨⟨reason, next, hdecide⟩, hnot⟩ | ⟨⟨permit, next, hdecide, hissued⟩, hallowed⟩
    · rw [hdecide]
      refine .inr ⟨.inr ⟨reason, next, rfl⟩, fun h => hnot ?_⟩
      obtain ⟨plan', hplan', hallowed⟩ := h.allowed
      cases hplan.symm.trans hplan'
      exact hallowed
    · rw [hdecide]
      exact .inl ⟨⟨plan, permit, next, rfl, rfl, hissued⟩,
        ⟨hproject, hscope, hphase, hstate, Bool.eq_false_iff.mpr hflag, plan, hplan, hallowed⟩⟩

/-- The guard takes back a permit that fits it. -/
theorem finishRepair_fits {permit : RepairAttemptPermit} (hfits : LoopRuns.Fits guard permit)
    (turn : TurnResult) :
    ∃ finished, guard.finishRepair permit turn permit.fingerprintSha256 = (.ok (), finished) := by
  rw [BuildRepairLoopGuard.finishRepair]
  rcases LoopRuns.verifyRepairPermit_cases guard permit with ⟨-, hnot⟩ | ⟨hverified, -⟩
  · exact absurd hfits hnot
  rw [hverified, if_neg (not_not.mpr rfl)]
  dsimp only
  split_ifs
  · exact ⟨_, rfl⟩
  · exact ⟨_, rfl⟩
  · exact ⟨_, rfl⟩

theorem fits_after_request {permit : RepairAttemptPermit} (hfits : LoopRuns.Fits guard permit)
    (requested : Bool) :
    LoopRuns.Fits (if requested then guard.requestCancel else guard) permit := by
  cases requested with
  | false => exact hfits
  | true => exact ⟨hfits.loopId, hfits.projectId, hfits.phase⟩

/-- An attempt that begins ends with the turn, or strands the guard. -/
theorem guardedTurn_cases (config : CoreConfig) (flag : Flag) (session : SessionId)
    (model : Option ModelRef) (surroundings : RepairSurroundings)
    (hbegins : Begins sha256 guard project failedBuild) :
    Smooth config surroundings ∧ (∃ outcome next, (surroundings.run (runGuardedBuildRepairTurn
        config sha256 flag guard project session failedBuild model) .preparing).1 =
      .ok (.ok (.repairTurn outcome), next)) ∨
    ¬ Smooth config surroundings ∧ (∃ e next attempt, (surroundings.run (runGuardedBuildRepairTurn
        config sha256 flag guard project session failedBuild model) .preparing).1 =
      .ok (.error e, next) ∧ next.phase = .repairRunning attempt) := by
  have hscope : ¬ (guard.projectId ≠ project ∨ guard.target ≠ failedBuild.target) := by
    rw [not_or, not_not, not_not]
    exact ⟨hbegins.project, hbegins.inScope.2.symm⟩
  rcases authorizeRepair_begins sha256 failedBuild hbegins.project with
    ⟨⟨plan, permit, next, hplan, hauthorize, hissued⟩, -⟩ | ⟨-, hnot⟩
  case inr => exact absurd hbegins hnot
  have hevidence : plan.evidence.projectId = project := by
    obtain ⟨evidence, hcapture, hcaptured⟩ := captureBuildFailure_ok sha256 hbegins.failed
    obtain ⟨hshape, -⟩ := (fromFailedBuild_eq_ok hcapture).mp hplan
    rw [hshape, hcaptured.projectId, hbegins.inScope.1, hbegins.project]
  rw [runGuardedBuildRepairTurn, if_neg hscope, hauthorize]
  dsimp only
  rw [RepairSurroundings.run_settle]
  rcases repairTurn_cases session model surroundings hplan hevidence with
    ⟨⟨checkpoint, turn, hrun⟩, hsmooth⟩ | ⟨⟨e, hrun⟩, hrough⟩
  · left
    refine ⟨hsmooth, ?_⟩
    rw [hrun]
    dsimp only
    have hasked : surroundings.run (act (.isRequested flag)) .turnEnded =
        (.ok surroundings.requestedInTurn, .finished) := rfl
    rw [RepairSurroundings.run_bind_ok _ hasked, ← hissued.fingerprint]
    obtain ⟨finished, hfinish⟩ :=
      finishRepair_fits (fits_after_request hissued.fits surroundings.requestedInTurn) turn
    rw [hfinish]
    dsimp only
    rw [if_neg (not_not.mpr rfl)]
    exact ⟨_, _, rfl⟩
  · right
    rw [hrun]
    exact ⟨hrough, e, next, permit.attempt, rfl, hissued.fits.phase⟩

/-- A call that does not begin an attempt changes nothing when it fails. -/
theorem guardedTurn_idle (config : CoreConfig) (flag : Flag) (session : SessionId)
    (model : Option ModelRef) (surroundings : RepairSurroundings)
    (hnot : ¬ Begins sha256 guard project failedBuild) :
    ∃ answer, (surroundings.run (runGuardedBuildRepairTurn config sha256 flag guard project session
      failedBuild model) .preparing).1 = .ok answer ∧ Settles guard answer := by
  rw [runGuardedBuildRepairTurn]
  by_cases hscope : guard.projectId ≠ project ∨ guard.target ≠ failedBuild.target
  · rw [if_pos hscope]
    exact ⟨_, rfl, fun _ _ => .inl rfl⟩
  rw [if_neg hscope]
  rw [not_or, not_not, not_not] at hscope
  rcases authorizeRepair_begins sha256 failedBuild hscope.1 with
    ⟨-, hbegins⟩ | ⟨⟨e, hauthorize⟩ | ⟨reason, next, hauthorize⟩, -⟩
  · exact absurd hbegins hnot
  · rw [hauthorize]
    exact ⟨_, rfl, fun _ _ => .inl rfl⟩
  · rw [hauthorize]
    exact ⟨_, rfl, fun _ herror => by cases herror⟩

/-- **Settling.**  Whatever the guard, the build and the answers of the surroundings, the call
    settles the guard iff, when it begins an attempt, nothing in the repair turn fails. -/
theorem settled_iff_smooth (config : CoreConfig) (sha256 : Sha256) (flag : Flag)
    (guard : BuildRepairLoopGuard) (project : ProjectId) (session : SessionId)
    (failedBuild : BuildResult) (model : Option ModelRef) (surroundings : RepairSurroundings) :
    ∃ answer, (surroundings.run (runGuardedBuildRepairTurn config sha256 flag guard project session
        failedBuild model) .preparing).1 = .ok answer ∧
      (Settles guard answer ↔
        (Begins sha256 guard project failedBuild → Smooth config surroundings)) := by
  by_cases hbegins : Begins sha256 guard project failedBuild
  case neg =>
    obtain ⟨answer, hrun, hsettles⟩ :=
      guardedTurn_idle config flag session model surroundings hbegins
    exact ⟨answer, hrun, fun _ h => absurd h hbegins, fun _ => hsettles⟩
  case pos =>
    rcases guardedTurn_cases config flag session model surroundings hbegins with
      ⟨hsmooth, outcome, next, hrun⟩ | ⟨hrough, e, next, attempt, hrun, hphase⟩
    · exact ⟨_, hrun, fun _ _ => hsmooth, fun _ _ herror => by cases herror⟩
    · refine ⟨_, hrun, fun hsettles => ?_, fun h => absurd (h hbegins) hrough⟩
      rcases hsettles e rfl with hsame | ⟨reason, hterminal⟩
      · have hrunning : guard.phase = .repairRunning attempt := hsame ▸ hphase
        cases hbegins.awaiting.symm.trans hrunning
      · cases hphase.symm.trans hterminal

/-- The first failure of a loop begins an attempt. -/
theorem begins_of_new {loopId : BuildRepairLoopId} {policy : BuildRepairLoopPolicy}
    (hnew : BuildRepairLoopGuard.new loopId failedBuild.projectId failedBuild.target policy =
      .ok guard) (hfailed : failedBuild.state = .failed)
    (hplan : BuildRepairPlan.fromFailedBuild sha256 failedBuild = .ok plan) :
    Begins sha256 guard failedBuild.projectId failedBuild := by
  unfold BuildRepairLoopGuard.new at hnew
  split at hnew
  · cases hnew
  rename_i accepted hvalid
  cases hnew
  have hpolicy := (validate_eq_ok hvalid).2
  exact ⟨rfl, ⟨rfl, rfl⟩, rfl, hfailed, rfl, plan, hplan,
    Nat.lt_of_lt_of_le (show 1 < 2 from by decide) hpolicy.two_le_same, hpolicy.attempts_pos⟩

/-- Another call holds the project, and nothing else is wrong. -/
def busyProject : RepairSurroundings where
  lifecycle := .error (.invalidRequest "project_lifecycle_busy")
  verifyProject := .ok ()
  activeForProject := .ok 0
  workspaceQuiescent := .ok ()
  sessionBinding := .ok ()
  invalidateBefore := .ok ()
  createCheckpoint := .ok {
    checkpointId := ⟨5⟩
    projectId := ⟨2⟩
    reason := .beforeBuildRepair
    treeSha256 := "" }
  turn := .ok {
    text := "done"
    cancelled := false
    toolCalls := []
    usage := none }
  invalidateAfter := .ok ()
  requestedInTurn := false
  requestedAfter := false

/-- A failed build of a project that is busy: the call fails, and the guard waits for a permit that
    nobody holds. -/
theorem busyProject_strands :
    ∃ guard, BuildRepairLoopGuard.new ⟨4⟩ ⟨2⟩ .website .default = .ok guard ∧
      ∃ e next attempt, (busyProject.run (runGuardedBuildRepairTurn attachedConfig
          (fun _ => silentDigest) 0 guard ⟨2⟩ ⟨"session"⟩ silentFailure none) .preparing).1 =
        .ok (.error e, next) ∧ next.phase = .repairRunning attempt ∧
        ¬ Settles guard (.error e, next) := by
  have hnew : BuildRepairLoopGuard.new ⟨4⟩ ⟨2⟩ .website .default = .ok _ := rfl
  have hfailed : silentFailure.state = .failed := rfl
  obtain ⟨plan, hplan, -⟩ := plan_of_promptBytes (fun _ => silentDigest) hfailed (by decide)
  refine ⟨_, hnew, ?_⟩
  rcases guardedTurn_cases attachedConfig 0 ⟨"session"⟩ none busyProject
    (begins_of_new hnew hfailed hplan) with ⟨hsmooth, -⟩ | ⟨-, e, next, attempt, hrun, hphase⟩
  · cases hsmooth.lifecycle
  · refine ⟨e, next, attempt, hrun, hphase, fun hsettles => ?_⟩
    rcases hsettles e rfl with hsame | ⟨reason, hterminal⟩
    · rw [show next = _ from hsame] at hphase
      cases hphase
    · cases hphase.symm.trans hterminal

end VibeCoder.Build
