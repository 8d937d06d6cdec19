/-
  Runs of a repair loop: any sequence of calls on one guard, with any results and any permits,
  its own, old ones, copies and those of other guards.

  1. **Calls** — what each call can do (`authorizeRepair_cases`, `finishRepair_cases`, ..).

  2. **The budget** — permits are numbered from one and there are no more than the policy allows;
     a failure that repeats often enough gets none; an attempt is finished and prepared once
     (`budget_invariant`).
-/
import VibeCoder.Build.Loop
import VibeCoder.Build.PromptLimit
import VibeCoder.Lib.Run

namespace VibeCoder.Build.LoopRuns

open BuildRepairLoopGuard Runs

variable {sha256 : Sha256} {guard : BuildRepairLoopGuard}

/-! ## Calls -/

/-- Why a loop stops after a build that did not fail. -/
def naturalReason : BuildState → Option BuildRepairLoopStopReason
  | .succeeded => some .succeeded
  | .cancelled => some .cancelled
  | .timedOut => some .timedOut
  | .failed | .queued | .running => none

theorem finishNonfailedBuild_cases (guard : BuildRepairLoopGuard) (result : BuildResult) :
    (∃ e, guard.finishNonfailedBuild result = (.error e, guard)) ∨
    guard.phase = .awaitingBuildResult ∧ guard.inScope result ∧
      ∃ reason, naturalReason result.state = some reason ∧
        guard.finishNonfailedBuild result = (.ok reason, guard.stopWith reason) := by
  unfold finishNonfailedBuild
  split
  · exact .inl ⟨_, rfl⟩
  rename_i hscope
  split
  · exact .inl ⟨_, rfl⟩
  rename_i hphase
  rw [not_not] at hscope hphase
  cases hstate : result.state with
  | succeeded => exact .inr ⟨hphase, hscope, _, rfl, rfl⟩
  | cancelled => exact .inr ⟨hphase, hscope, _, rfl, rfl⟩
  | timedOut => exact .inr ⟨hphase, hscope, _, rfl, rfl⟩
  | failed => exact .inl ⟨_, rfl⟩
  | queued => exact .inl ⟨_, rfl⟩
  | running => exact .inl ⟨_, rfl⟩

/-- A call of `authorize_repair` is refused, or ends the loop with the build, or with a request, or
    goes on to count the failure. -/
theorem authorizeRepair_cases (sha256 : Sha256) (guard : BuildRepairLoopGuard)
    (result : BuildResult) :
    (∃ e, guard.authorizeRepair sha256 result = (.error e, guard)) ∨
    guard.phase = .awaitingBuildResult ∧ guard.inScope result ∧
      ((∃ reason, naturalReason result.state = some reason ∧
        guard.authorizeRepair sha256 result = (.ok (.stop reason), guard.stopWith reason)) ∨
      (result.state = .failed ∧ guard.cancelRequested = true ∧
        guard.authorizeRepair sha256 result = (.ok (.stop .cancelled), guard.stopWith .cancelled)) ∨
      (result.state = .failed ∧ guard.cancelRequested = false ∧
        ∃ plan, BuildRepairPlan.fromFailedBuild sha256 result = .ok plan ∧
          guard.authorizeRepair sha256 result =
            (.ok (guard.decideRepair plan.evidence).1, (guard.decideRepair plan.evidence).2))) := by
  unfold authorizeRepair
  split
  · exact .inl ⟨_, rfl⟩
  rename_i hscope
  split
  · exact .inl ⟨_, rfl⟩
  rename_i hphase
  rw [not_not] at hscope hphase
  cases hstate : result.state with
  | succeeded => exact .inr ⟨hphase, hscope, .inl ⟨_, rfl, rfl⟩⟩
  | cancelled => exact .inr ⟨hphase, hscope, .inl ⟨_, rfl, rfl⟩⟩
  | timedOut => exact .inr ⟨hphase, hscope, .inl ⟨_, rfl, rfl⟩⟩
  | queued => exact .inl ⟨_, rfl⟩
  | running => exact .inl ⟨_, rfl⟩
  | failed =>
    dsimp only
    split
    · rename_i hflag
      exact .inr ⟨hphase, hscope, .inr (.inl ⟨rfl, hflag, rfl⟩)⟩
    · rename_i hflag
      rcases hplan : BuildRepairPlan.fromFailedBuild sha256 result with e | plan
      · exact .inl ⟨e, rfl⟩
      · exact .inr ⟨hphase, hscope,
          .inr (.inr ⟨rfl, Bool.eq_false_iff.mpr hflag, plan, rfl, rfl⟩)⟩

/-- A repair permit of this guard, of the attempt that is running. -/
structure Fits (guard : BuildRepairLoopGuard) (permit : RepairAttemptPermit) : Prop where
  loopId : permit.loopId = guard.loopId
  projectId : permit.projectId = guard.projectId
  phase : guard.phase = .repairRunning permit.attempt

theorem verifyRepairPermit_cases (guard : BuildRepairLoopGuard) (permit : RepairAttemptPermit) :
    (∃ e, guard.verifyRepairPermit permit = .error e) ∧ ¬ Fits guard permit ∨
    guard.verifyRepairPermit permit = .ok () ∧ Fits guard permit := by
  unfold verifyRepairPermit
  split
  · rename_i hscope
    refine .inl ⟨⟨_, rfl⟩, fun hfits => ?_⟩
    rcases hscope with hloop | hproject
    · exact hloop hfits.loopId
    · exact hproject hfits.projectId
  rename_i hscope
  rw [not_or, not_not, not_not] at hscope
  cases hphase : guard.phase with
  | repairRunning attempt =>
    dsimp only
    split
    · rename_i hattempt
      refine .inl ⟨⟨_, rfl⟩, fun hfits => hattempt ?_⟩
      exact LoopPhase.repairRunning.inj (hphase.symm.trans hfits.phase)
    · rename_i hattempt
      rw [not_not] at hattempt
      exact .inr ⟨rfl, hscope.1, hscope.2, hattempt ▸ hphase⟩
  | awaitingBuildResult => exact .inl ⟨⟨_, rfl⟩, fun hfits => by cases hphase.symm.trans hfits.phase⟩
  | awaitingRebuild attempt =>
    exact .inl ⟨⟨_, rfl⟩, fun hfits => by cases hphase.symm.trans hfits.phase⟩
  | terminal reason => exact .inl ⟨⟨_, rfl⟩, fun hfits => by cases hphase.symm.trans hfits.phase⟩

/-- A repair is finished with the permit of the running attempt only, and then the loop stops or
    waits for the rebuild. -/
theorem finishRepair_cases (guard : BuildRepairLoopGuard) (permit : RepairAttemptPermit)
    (turn : TurnResult) (observed : List Char) :
    (∃ e, guard.finishRepair permit turn observed = (.error e, guard)) ∨
    Fits guard permit ∧ permit.fingerprintSha256 = observed ∧
      ((guard.cancelRequested = true ∧
        guard.finishRepair permit turn observed = (.ok (), guard.stopWith .cancelled)) ∨
      (guard.cancelRequested = false ∧
        guard.finishRepair permit turn observed = (.ok (), guard.stopWith .repairTurnCancelled)) ∨
      (guard.cancelRequested = false ∧
        guard.finishRepair permit turn observed =
          (.ok (), { guard with phase := .awaitingRebuild permit.attempt }))) := by
  unfold finishRepair
  rcases verifyRepairPermit_cases guard permit with ⟨⟨e, hrefused⟩, -⟩ | ⟨hverified, hfits⟩
  · rw [hrefused]
    exact .inl ⟨e, rfl⟩
  rw [hverified]
  dsimp only
  split
  · exact .inl ⟨_, rfl⟩
  rename_i hobserved
  rw [not_not] at hobserved
  split
  · rename_i hflag
    exact .inr ⟨hfits, hobserved, .inl ⟨hflag, rfl⟩⟩
  rename_i hflag
  have hflag' : guard.cancelRequested = false := Bool.eq_false_iff.mpr hflag
  split
  · exact .inr ⟨hfits, hobserved, .inr (.inl ⟨hflag', rfl⟩)⟩
  · exact .inr ⟨hfits, hobserved, .inr (.inr ⟨hflag', rfl⟩)⟩

/-- A rebuild permit of this guard, of the attempt that waits for its rebuild. -/
structure FitsRebuild (guard : BuildRepairLoopGuard) (permit : RebuildAttemptPermit) : Prop where
  loopId : permit.loopId = guard.loopId
  projectId : permit.projectId = guard.projectId
  target : permit.target = guard.target
  phase : guard.phase = .awaitingRebuild permit.attempt

theorem markRebuildPrepared_cases (guard : BuildRepairLoopGuard) (permit : RebuildAttemptPermit) :
    (∃ e, guard.markRebuildPrepared permit = (.error e, guard)) ∧ ¬ FitsRebuild guard permit ∨
    FitsRebuild guard permit ∧
      ((guard.cancelRequested = true ∧
        guard.markRebuildPrepared permit = (.error .cancelled, guard.stopWith .cancelled)) ∨
      (guard.cancelRequested = false ∧
        guard.markRebuildPrepared permit =
          (.ok (), { guard with phase := .awaitingBuildResult }))) := by
  unfold markRebuildPrepared
  split
  · rename_i hscope
    refine .inl ⟨⟨_, rfl⟩, fun hfits => ?_⟩
    rcases hscope with hloop | hproject | htarget
    · exact hloop hfits.loopId
    · exact hproject hfits.projectId
    · exact htarget hfits.target
  rename_i hscope
  rw [not_or, not_or, not_not, not_not, not_not] at hscope
  cases hphase : guard.phase with
  | awaitingRebuild attempt =>
    dsimp only
    split
    · rename_i hattempt
      refine .inl ⟨⟨_, rfl⟩, fun hfits => hattempt ?_⟩
      exact LoopPhase.awaitingRebuild.inj (hphase.symm.trans hfits.phase)
    rename_i hattempt
    rw [not_not] at hattempt
    have hfits : FitsRebuild guard permit :=
      ⟨hscope.1, hscope.2.1, hscope.2.2, hattempt ▸ hphase⟩
    split
    · rename_i hflag
      exact .inr ⟨hfits, .inl ⟨hflag, rfl⟩⟩
    · rename_i hflag
      exact .inr ⟨hfits, .inr ⟨Bool.eq_false_iff.mpr hflag, rfl⟩⟩
  | awaitingBuildResult => exact .inl ⟨⟨_, rfl⟩, fun hfits => by cases hphase.symm.trans hfits.phase⟩
  | repairRunning attempt =>
    exact .inl ⟨⟨_, rfl⟩, fun hfits => by cases hphase.symm.trans hfits.phase⟩
  | terminal reason => exact .inl ⟨⟨_, rfl⟩, fun hfits => by cases hphase.symm.trans hfits.phase⟩

/-- A completion is refused, needs no decision, or ends the loop with the build. -/
theorem recordCompletion_cases (guard : BuildRepairLoopGuard)
    (completion : WebsiteBuildStageCompletion) :
    (∃ answer, recordGuardedWebsiteBuildCompletion guard completion = (answer, guard) ∧
      ∀ reason, answer ≠ .ok (some reason)) ∨
    guard.phase = .awaitingBuildResult ∧ guard.inScope completion.result ∧
      ∃ reason, naturalReason completion.result.state = some reason ∧
        recordGuardedWebsiteBuildCompletion guard completion =
          (.ok (some reason), guard.stopWith reason) := by
  unfold recordGuardedWebsiteBuildCompletion
  split
  · exact .inl ⟨_, rfl, fun _ h => by cases h⟩
  cases completion.pipelineState with
  | awaitingApproval stage => exact .inl ⟨_, rfl, fun _ h => by cases h⟩
  | failed => exact .inl ⟨_, rfl, fun _ h => by cases h⟩
  | noBuildRequired => exact .inl ⟨_, rfl, fun _ h => by cases h⟩
  | running stage => exact .inl ⟨_, rfl, fun _ h => by cases h⟩
  | succeeded | cancelled | timedOut =>
    dsimp only
    rcases finishNonfailedBuild_cases guard completion.result with
      ⟨e, hrefused⟩ | ⟨hphase, hscope, reason, hreason, hended⟩
    · rw [hrefused]
      exact .inl ⟨_, rfl, fun _ h => by cases h⟩
    · rw [hended]
      exact .inr ⟨hphase, hscope, reason, hreason, rfl⟩

/-! ## The history -/

/-- A call, with whatever permit or result the caller holds. -/
inductive Op where
  | authorizeRepair (result : BuildResult)
  | finishNonfailedBuild (result : BuildResult)
  | recordCompletion (completion : WebsiteBuildStageCompletion)
  | finishRepair (permit : RepairAttemptPermit) (turn : TurnResult) (observed : List Char)
  | rebuildPermit
  | markRebuildPrepared (permit : RebuildAttemptPermit)
  | stopReason
  /-- `cancellation().request()`, by any holder of the flag. -/
  | requestCancel
  /-- The same through the Core. -/
  | requestLoopCancel (commandPolicy : CommandPolicyState)

/-- A failed build that the guard decided on. -/
structure Failure where
  fingerprint : List Char
  permitted : Bool

/-- The guard, and what came of the calls so far. -/
structure History where
  guard : BuildRepairLoopGuard
  /-- The repair permits issued, the first one first. -/
  permits : List RepairAttemptPermit
  /-- The failures decided on, the latest first. -/
  failures : List Failure
  /-- The attempts for which `finish_repair` succeeded, .. -/
  repaired : List Nat
  /-- .. and `mark_rebuild_prepared`. -/
  prepared : List Nat

/-- A guard just made. -/
def History.start (guard : BuildRepairLoopGuard) : History :=
  { guard := guard, permits := [], failures := [], repaired := [], prepared := [] }

/-- The fingerprint of a failed build. -/
def fingerprintOf (sha256 : Sha256) (result : BuildResult) : List Char :=
  match captureBuildFailure sha256 result with
  | .ok evidence => evidence.fingerprintSha256
  | .error _ => []

theorem fingerprintOf_plan {result : BuildResult} {plan : BuildRepairPlan}
    (h : BuildRepairPlan.fromFailedBuild sha256 result = .ok plan) :
    fingerprintOf sha256 result = plan.evidence.fingerprintSha256 := by
  unfold BuildRepairPlan.fromFailedBuild at h
  simp only [bind, Except.bind, pure, Except.pure] at h
  unfold fingerprintOf
  split at h
  · cases h
  rename_i evidence hcapture
  split at h
  · cases h
  · rw [Except.ok.injEq] at h
    rw [hcapture, ← h]

/-- What an answer of `authorize_repair` adds to the history. -/
def noteAuthorization (sha256 : Sha256) (result : BuildResult) (h : History) :
    Result RepairAuthorization → History
  | .error _ => h
  | .ok (.repair permit) =>
    { h with
      permits := h.permits ++ [permit]
      failures := { fingerprint := fingerprintOf sha256 result, permitted := true } :: h.failures }
  | .ok (.stop _) =>
    if result.state = .failed then
      { h with
        failures :=
          { fingerprint := fingerprintOf sha256 result, permitted := false } :: h.failures }
    else h

/-- One call. -/
def step (sha256 : Sha256) (h : History) : Op → History
  | .authorizeRepair result =>
    let (answer, guard) := h.guard.authorizeRepair sha256 result
    { noteAuthorization sha256 result h answer with guard := guard }
  | .finishNonfailedBuild result => { h with guard := (h.guard.finishNonfailedBuild result).2 }
  | .recordCompletion completion =>
    { h with guard := (recordGuardedWebsiteBuildCompletion h.guard completion).2 }
  | .finishRepair permit turn observed =>
    let (answer, guard) := h.guard.finishRepair permit turn observed
    { h with
      guard := guard
      repaired :=
        match answer with
        | .ok () => permit.attempt :: h.repaired
        | .error _ => h.repaired }
  | .rebuildPermit | .stopReason => h
  | .markRebuildPrepared permit =>
    let (answer, guard) := h.guard.markRebuildPrepared permit
    { h with
      guard := guard
      prepared :=
        match answer with
        | .ok () => permit.attempt :: h.prepared
        | .error _ => h.prepared }
  | .requestCancel => { h with guard := h.guard.requestCancel }
  | .requestLoopCancel commandPolicy =>
    { h with guard := (requestBuildRepairLoopCancel h.guard commandPolicy).2.1 }

/-! ## The budget -/

/-- How many failures in a row, up to the latest, have its fingerprint. -/
def streak : List Failure → Nat
  | [] => 0
  | f :: older => (older.takeWhile (fun g => g.fingerprint == f.fingerprint)).length + 1

theorem streak_same {f : Failure} {older : List Failure}
    (h : older.head?.map Failure.fingerprint = some f.fingerprint) :
    streak (f :: older) = streak older + 1 := by
  cases older with
  | nil => cases h
  | cons g older =>
    have hfg : g.fingerprint = f.fingerprint := Option.some.inj h
    have htake : (g :: older).takeWhile (fun g => g.fingerprint == f.fingerprint) =
        g :: older.takeWhile (fun g => g.fingerprint == f.fingerprint) :=
      List.takeWhile_cons_of_pos (beq_iff_eq.mpr hfg)
    rw [streak, streak, htake, List.length_cons, hfg]

theorem streak_other {f : Failure} {older : List Failure}
    (h : older.head?.map Failure.fingerprint ≠ some f.fingerprint) : streak (f :: older) = 1 := by
  cases older with
  | nil => rfl
  | cons g older =>
    have hfg : ¬ (g.fingerprint == f.fingerprint) = true :=
      fun hbeq => h (congrArg some (beq_iff_eq.mp hbeq))
    have htake : (g :: older).takeWhile (fun g => g.fingerprint == f.fingerprint) = [] :=
      List.takeWhile_cons_of_neg hfg
    rw [streak, htake, List.length_nil]

/-- The loop goes on. -/
def Going (guard : BuildRepairLoopGuard) : Prop := ∀ reason, guard.phase ≠ .terminal reason

/-- No failure that repeated as often as the policy allows got a permit. -/
def Rationed (limit : Nat) (failures : List Failure) : Prop :=
  ∀ recent f older, failures = recent ++ f :: older → f.permitted = true →
    streak (f :: older) < limit

theorem Rationed.cons {limit : Nat} {f : Failure} {failures : List Failure}
    (h : Rationed limit failures) (hf : f.permitted = true → streak (f :: failures) < limit) :
    Rationed limit (f :: failures) := by
  intro recent g older hsplit hg
  cases recent with
  | nil =>
    cases hsplit
    exact hf hg
  | cons first recent => exact h recent g older (List.cons.inj hsplit).2 hg

structure Inv (policy : BuildRepairLoopPolicy) (h : History) : Prop where
  policy_eq : h.guard.policy = policy
  numbered : h.permits.map RepairAttemptPermit.attempt = List.range' 1 h.permits.length
  started : h.guard.repairAttemptsStarted = h.permits.length
  budget : h.permits.length ≤ policy.maxRepairAttempts
  rationed : Rationed policy.maxSameFailureOccurrences h.failures
  repaired_once : h.repaired.Nodup
  prepared_once : h.prepared.Nodup
  repaired_le : ∀ a ∈ h.repaired, a ≤ h.permits.length
  prepared_le : ∀ a ∈ h.prepared, a ≤ h.permits.length
  /-- The guard remembers the latest failure, and how often it came in a row. -/
  latest : Going h.guard →
    h.guard.lastFailureFingerprint = h.failures.head?.map Failure.fingerprint
  counted : Going h.guard → h.guard.sameFailureOccurrences = streak h.failures
  below : Going h.guard → streak h.failures < policy.maxSameFailureOccurrences
  running : ∀ a, h.guard.phase = .repairRunning a → a = h.permits.length ∧ a ∉ h.repaired
  unprepared : ∀ a, h.guard.phase = .repairRunning a ∨ h.guard.phase = .awaitingRebuild a →
    a = h.permits.length ∧ a ∉ h.prepared

/-- What holds of a guard that has just been made. -/
structure Fresh (guard : BuildRepairLoopGuard) : Prop where
  phase : guard.phase = .awaitingBuildResult
  started : guard.repairAttemptsStarted = 0
  latest : guard.lastFailureFingerprint = none
  counted : guard.sameFailureOccurrences = 0

theorem new_fresh {loopId : BuildRepairLoopId} {projectId : ProjectId} {target : BuildTargetKind}
    {policy : BuildRepairLoopPolicy} (h : BuildRepairLoopGuard.new loopId projectId target policy =
      .ok guard) : Fresh guard ∧ guard.policy = policy := by
  unfold BuildRepairLoopGuard.new at h
  split at h
  · cases h
  · cases h
    exact ⟨⟨rfl, rfl, rfl, rfl⟩, rfl⟩

theorem inv_start (hfresh : Fresh guard) : Inv guard.policy (History.start guard) where
  policy_eq := rfl
  numbered := rfl
  started := hfresh.started
  budget := Nat.zero_le _
  rationed := fun recent f older hsplit => by
    have hlen : 0 = (recent ++ f :: older).length := congrArg List.length hsplit
    rw [List.length_append, List.length_cons] at hlen
    omega
  repaired_once := List.nodup_nil
  prepared_once := List.nodup_nil
  repaired_le := fun a ha => absurd ha List.not_mem_nil
  prepared_le := fun a ha => absurd ha List.not_mem_nil
  latest := fun _ => hfresh.latest
  counted := fun _ => hfresh.counted
  below := fun _ => Nat.lt_of_lt_of_le (show 0 < 2 from by decide) guard.valid.two_le_same
  running := fun a ha => by
    rw [show (History.start guard).guard.phase = _ from hfresh.phase] at ha
    cases ha
  unprepared := fun a ha => by
    rw [show (History.start guard).guard.phase = _ from hfresh.phase] at ha
    rcases ha with ha | ha <;> cases ha

section Preserved

variable {policy : BuildRepairLoopPolicy} {h : History}

/-- A call that ends the loop keeps what the history holds. -/
theorem Inv.stop (hinv : Inv policy h) (reason : BuildRepairLoopStopReason) :
    Inv policy { h with guard := h.guard.stopWith reason } where
  policy_eq := hinv.policy_eq
  numbered := hinv.numbered
  started := hinv.started
  budget := hinv.budget
  rationed := hinv.rationed
  repaired_once := hinv.repaired_once
  prepared_once := hinv.prepared_once
  repaired_le := hinv.repaired_le
  prepared_le := hinv.prepared_le
  latest := fun hgoing => absurd rfl (hgoing reason)
  counted := fun hgoing => absurd rfl (hgoing reason)
  below := fun hgoing => absurd rfl (hgoing reason)
  running := fun _ ha => by cases ha
  unprepared := fun _ ha => by rcases ha with ha | ha <;> cases ha

/-- A request changes the flag only. -/
theorem Inv.requestCancel (hinv : Inv policy h) :
    Inv policy { h with guard := h.guard.requestCancel } :=
  ⟨hinv.policy_eq, hinv.numbered, hinv.started, hinv.budget, hinv.rationed, hinv.repaired_once,
    hinv.prepared_once, hinv.repaired_le, hinv.prepared_le, hinv.latest, hinv.counted, hinv.below,
    hinv.running, hinv.unprepared⟩

theorem going_of_awaiting (hphase : guard.phase = .awaitingBuildResult) : Going guard :=
  fun _ hterminal => by cases hphase.symm.trans hterminal

/-- A failure that was refused a permit joins the history of a loop that ends. -/
theorem Inv.failure (hinv : Inv policy h) (fingerprint : List Char)
    (reason : BuildRepairLoopStopReason) :
    Inv policy { h with
      guard := h.guard.stopWith reason
      failures := { fingerprint := fingerprint, permitted := false } :: h.failures } :=
  { hinv.stop reason with
    rationed := hinv.rationed.cons (fun hpermitted => by cases hpermitted)
    latest := fun hgoing => absurd rfl (hgoing reason)
    counted := fun hgoing => absurd rfl (hgoing reason)
    below := fun hgoing => absurd rfl (hgoing reason) }

/-- Counting a failure is what the history does. -/
theorem countFailure_counts (hinv : Inv policy h) (hgoing : Going h.guard)
    (fingerprint : List Char) (permitted : Bool) :
    (h.guard.countFailure fingerprint).sameFailureOccurrences =
      streak ({ fingerprint := fingerprint, permitted := permitted } :: h.failures) := by
  have hlast := hinv.latest hgoing
  unfold countFailure
  split
  · rename_i hsame
    have hhead : h.failures.head?.map Failure.fingerprint = some fingerprint := hlast ▸ hsame
    rw [streak_same (f := { fingerprint := fingerprint, permitted := permitted }) hhead]
    show min (h.guard.sameFailureOccurrences + 1) 255 = streak h.failures + 1
    -- a streak below the limit is far from where the counter stops
    have hbelow := hinv.below hgoing
    have hlimit : policy.maxSameFailureOccurrences ≤ 4 := hinv.policy_eq ▸ h.guard.valid.same_le
    rw [hinv.counted hgoing]
    omega
  · rename_i hother
    rw [streak_other (f := { fingerprint := fingerprint, permitted := permitted })
      (fun hhead => hother (hlast.trans hhead))]

theorem countFailure_last (guard : BuildRepairLoopGuard) (fingerprint : List Char) :
    (guard.countFailure fingerprint).lastFailureFingerprint = some fingerprint := by
  unfold countFailure
  split
  · assumption
  · rfl

/-- Counting touches the two counters of the streak only. -/
theorem countFailure_rest (guard : BuildRepairLoopGuard) (fingerprint : List Char) :
    (guard.countFailure fingerprint).policy = guard.policy ∧
    (guard.countFailure fingerprint).phase = guard.phase ∧
    (guard.countFailure fingerprint).cancelRequested = guard.cancelRequested ∧
    (guard.countFailure fingerprint).repairAttemptsStarted = guard.repairAttemptsStarted := by
  unfold countFailure
  split
  · exact ⟨rfl, rfl, rfl, rfl⟩
  · exact ⟨rfl, rfl, rfl, rfl⟩

/-- The history after a failure of the running build was decided on. -/
def decided (h : History) (evidence : BuildFailureEvidence) : History :=
  match h.guard.decideRepair evidence with
  | (.repair permit, guard) =>
    { h with
      guard := guard
      permits := h.permits ++ [permit]
      failures :=
        { fingerprint := evidence.fingerprintSha256, permitted := true } :: h.failures }
  | (.stop _, guard) =>
    { h with
      guard := guard
      failures :=
        { fingerprint := evidence.fingerprintSha256, permitted := false } :: h.failures }

/-- A decision keeps the invariant: a permit has the next number, and is given below both limits. -/
theorem Inv.decided (hinv : Inv policy h) (hphase : h.guard.phase = .awaitingBuildResult)
    (evidence : BuildFailureEvidence) : Inv policy (decided h evidence) := by
  have hgoing : Going h.guard := going_of_awaiting hphase
  have hcounted := countFailure_counts hinv hgoing evidence.fingerprintSha256
  obtain ⟨hpolicy, -, -, hstarted⟩ := countFailure_rest h.guard evidence.fingerprintSha256
  have hpolicy' : (h.guard.countFailure evidence.fingerprintSha256).policy = policy :=
    hpolicy.trans hinv.policy_eq
  rw [hinv.started] at hstarted
  -- a loop that stops here has the failure without a permit
  have hstop : ∀ reason, Inv policy { h with
      guard := (h.guard.countFailure evidence.fingerprintSha256).stopWith reason
      failures :=
        { fingerprint := evidence.fingerprintSha256, permitted := false } :: h.failures } := by
    intro reason
    exact { hinv.failure evidence.fingerprintSha256 reason with
      policy_eq := hpolicy'
      started := hstarted
      latest := fun hgoing => absurd rfl (hgoing reason)
      counted := fun hgoing => absurd rfl (hgoing reason)
      below := fun hgoing => absurd rfl (hgoing reason)
      running := fun _ ha => by cases ha
      unprepared := fun _ ha => by rcases ha with ha | ha <;> cases ha }
  unfold LoopRuns.decided decideRepair
  dsimp only
  split_ifs with hrepeated hexhausted
  · exact hstop .repeatedFailure
  · exact hstop .retryBudgetExhausted
  · rw [hpolicy', hcounted true, not_le] at hrepeated
    rw [hpolicy', hstarted, not_le] at hexhausted
    have hbudget : policy.maxRepairAttempts ≤ 8 := hinv.policy_eq ▸ h.guard.valid.attempts_le
    have hnext : saturatingSucc (h.guard.countFailure evidence.fingerprintSha256).repairAttemptsStarted
        = h.permits.length + 1 := by
      rw [hstarted, saturatingSucc]
      omega
    have hlen : ∀ permit, (h.permits ++ [permit]).length = h.permits.length + 1 :=
      fun permit => List.length_append
    rw [hnext]
    dsimp only
    constructor
    · exact hpolicy'
    · rw [List.map_append, hinv.numbered, hlen, List.range'_1_concat, Nat.add_comm 1]
      rfl
    · exact (hlen _).symm
    · rw [hlen]
      exact hexhausted
    · exact hinv.rationed.cons fun _ => hrepeated
    · exact hinv.repaired_once
    · exact hinv.prepared_once
    · intro a ha
      rw [hlen]
      exact Nat.le_succ_of_le (hinv.repaired_le a ha)
    · intro a ha
      rw [hlen]
      exact Nat.le_succ_of_le (hinv.prepared_le a ha)
    · exact fun _ => countFailure_last h.guard evidence.fingerprintSha256
    · exact fun _ => hcounted true
    · exact fun _ => hrepeated
    · intro a ha
      cases ha
      refine ⟨(hlen _).symm, fun hmem => ?_⟩
      have hle := hinv.repaired_le _ hmem
      omega
    · intro a ha
      rcases ha with ha | ha
      · cases ha
        refine ⟨(hlen _).symm, fun hmem => ?_⟩
        have hle := hinv.prepared_le _ hmem
        omega
      · cases ha

/-- The step of `authorize_repair`. -/
theorem Inv.authorizeRepair (hinv : Inv policy h) (sha256 : Sha256) (result : BuildResult) :
    Inv policy (step sha256 h (.authorizeRepair result)) := by
  unfold step
  dsimp only
  rcases authorizeRepair_cases sha256 h.guard result with ⟨e, hcall⟩ |
    ⟨hphase, -, ⟨reason, hreason, hcall⟩ | ⟨hfailed, -, hcall⟩ | ⟨hfailed, -, plan, hplan, hcall⟩⟩
  · rw [hcall]
    exact hinv
  · rw [hcall]
    have hstate : result.state ≠ .failed := fun hfailed => by
      rw [hfailed] at hreason
      cases hreason
    dsimp only [noteAuthorization]
    rw [if_neg hstate]
    exact hinv.stop reason
  · rw [hcall]
    dsimp only [noteAuthorization]
    rw [if_pos hfailed]
    exact hinv.failure _ .cancelled
  · have hfingerprint : fingerprintOf sha256 result = plan.evidence.fingerprintSha256 :=
      fingerprintOf_plan hplan
    have hdecided := hinv.decided hphase plan.evidence
    rw [hcall]
    unfold LoopRuns.decided at hdecided
    rcases hdecide : h.guard.decideRepair plan.evidence with ⟨permit | reason, next⟩
    · rw [hdecide] at hdecided
      rw [← hfingerprint] at hdecided
      exact hdecided
    · rw [hdecide] at hdecided
      dsimp only [noteAuthorization]
      rw [if_pos hfailed, hfingerprint]
      exact hdecided

/-- A repair that was finished is not finished again: its attempt no longer runs. -/
theorem Inv.finishRepair (hinv : Inv policy h) (sha256 : Sha256) (permit : RepairAttemptPermit)
    (turn : TurnResult) (observed : List Char) :
    Inv policy (step sha256 h (.finishRepair permit turn observed)) := by
  unfold step
  dsimp only
  rcases finishRepair_cases h.guard permit turn observed with ⟨e, hcall⟩ | ⟨hfits, -, hcalls⟩
  · rw [hcall]
    exact hinv
  obtain ⟨hattempt, hrepaired⟩ := hinv.running permit.attempt hfits.phase
  obtain ⟨-, hprepared⟩ := hinv.unprepared permit.attempt (.inl hfits.phase)
  have honce : (permit.attempt :: h.repaired).Nodup :=
    List.nodup_cons.mpr ⟨hrepaired, hinv.repaired_once⟩
  have hle : ∀ a ∈ permit.attempt :: h.repaired, a ≤ h.permits.length := by
    intro a ha
    rcases List.mem_cons.mp ha with rfl | ha
    · exact Nat.le_of_eq hattempt
    · exact hinv.repaired_le a ha
  have hgoing : Going h.guard := fun reason hterminal => by cases hfits.phase.symm.trans hterminal
  rcases hcalls with ⟨-, hcall⟩ | ⟨-, hcall⟩ | ⟨-, hcall⟩
  · rw [hcall]
    exact { hinv.stop .cancelled with
      repaired_once := honce
      repaired_le := hle
      running := fun _ ha => by cases ha }
  · rw [hcall]
    exact { hinv.stop .repairTurnCancelled with
      repaired_once := honce
      repaired_le := hle
      running := fun _ ha => by cases ha }
  · rw [hcall]
    exact { hinv with
      repaired_once := honce
      repaired_le := hle
      latest := fun _ => hinv.latest hgoing
      counted := fun _ => hinv.counted hgoing
      below := fun _ => hinv.below hgoing
      running := fun _ ha => by cases ha
      unprepared := fun a ha => by
        rcases ha with ha | ha
        · cases ha
        · cases ha
          exact ⟨hattempt, hprepared⟩ }

/-- A rebuild that was prepared is not prepared again: the loop waits for its result. -/
theorem Inv.markRebuildPrepared (hinv : Inv policy h) (sha256 : Sha256)
    (permit : RebuildAttemptPermit) :
    Inv policy (step sha256 h (.markRebuildPrepared permit)) := by
  unfold step
  dsimp only
  rcases markRebuildPrepared_cases h.guard permit with ⟨⟨e, hcall⟩, -⟩ | ⟨hfits, hcalls⟩
  · rw [hcall]
    exact hinv
  rcases hcalls with ⟨-, hcall⟩ | ⟨-, hcall⟩
  · rw [hcall]
    exact hinv.stop .cancelled
  · obtain ⟨hattempt, hprepared⟩ := hinv.unprepared permit.attempt (.inr hfits.phase)
    have hgoing : Going h.guard := fun reason hterminal => by cases hfits.phase.symm.trans hterminal
    rw [hcall]
    exact { hinv with
      prepared_once := List.nodup_cons.mpr ⟨hprepared, hinv.prepared_once⟩
      prepared_le := fun a ha => by
        rcases List.mem_cons.mp ha with rfl | ha
        · exact Nat.le_of_eq hattempt
        · exact hinv.prepared_le a ha
      latest := fun _ => hinv.latest hgoing
      counted := fun _ => hinv.counted hgoing
      below := fun _ => hinv.below hgoing
      running := fun _ ha => by cases ha
      unprepared := fun a ha => by
        rcases ha with ha | ha <;> cases ha }

theorem Inv.finishNonfailedBuild (hinv : Inv policy h) (result : BuildResult) :
    Inv policy { h with guard := (h.guard.finishNonfailedBuild result).2 } := by
  rcases finishNonfailedBuild_cases h.guard result with ⟨e, hcall⟩ | ⟨-, -, reason, -, hcall⟩
  · rw [hcall]
    exact hinv
  · rw [hcall]
    exact hinv.stop reason

/-- **Step lemma.**  Every call keeps the invariant. -/
theorem Inv.step (hinv : Inv policy h) (sha256 : Sha256) (op : Op) :
    Inv policy (step sha256 h op) := by
  cases op with
  | authorizeRepair result => exact hinv.authorizeRepair sha256 result
  | finishNonfailedBuild result =>
    unfold LoopRuns.step
    dsimp only
    rcases finishNonfailedBuild_cases h.guard result with ⟨e, hcall⟩ | ⟨-, -, reason, -, hcall⟩
    · rw [hcall]
      exact hinv
    · rw [hcall]
      exact hinv.stop reason
  | recordCompletion completion =>
    unfold LoopRuns.step
    dsimp only
    rcases recordCompletion_cases h.guard completion with
      ⟨answer, hcall, -⟩ | ⟨-, -, reason, -, hcall⟩
    · rw [hcall]
      exact hinv
    · rw [hcall]
      exact hinv.stop reason
  | finishRepair permit turn observed => exact hinv.finishRepair sha256 permit turn observed
  | rebuildPermit => exact hinv
  | markRebuildPrepared permit => exact hinv.markRebuildPrepared sha256 permit
  | stopReason => exact hinv
  | requestCancel => exact hinv.requestCancel
  | requestLoopCancel commandPolicy => exact hinv.requestCancel

end Preserved

/-- A terminal phase is never left. -/
theorem step_terminal (sha256 : Sha256) {h : History} {reason : BuildRepairLoopStopReason}
    (hterminal : h.guard.phase = .terminal reason) (op : Op) :
    (step sha256 h op).guard.phase = .terminal reason := by
  have hawaiting : h.guard.phase ≠ .awaitingBuildResult := by
    rw [hterminal]
    exact fun heq => by cases heq
  cases op with
  | authorizeRepair result =>
    unfold step
    dsimp only
    rcases authorizeRepair_cases sha256 h.guard result with ⟨e, hcall⟩ | ⟨hphase, -⟩
    · rw [hcall]
      exact hterminal
    · exact absurd hphase hawaiting
  | finishNonfailedBuild result =>
    unfold step
    dsimp only
    rcases finishNonfailedBuild_cases h.guard result with ⟨e, hcall⟩ | ⟨hphase, -⟩
    · rw [hcall]
      exact hterminal
    · exact absurd hphase hawaiting
  | recordCompletion completion =>
    unfold step
    dsimp only
    rcases recordCompletion_cases h.guard completion with ⟨answer, hcall, -⟩ | ⟨hphase, -⟩
    · rw [hcall]
      exact hterminal
    · exact absurd hphase hawaiting
  | finishRepair permit turn observed =>
    unfold step
    dsimp only
    rcases finishRepair_cases h.guard permit turn observed with ⟨e, hcall⟩ | ⟨hfits, -⟩
    · rw [hcall]
      exact hterminal
    · cases hterminal.symm.trans hfits.phase
  | rebuildPermit => exact hterminal
  | markRebuildPrepared permit =>
    unfold step
    dsimp only
    rcases markRebuildPrepared_cases h.guard permit with ⟨⟨e, hcall⟩, -⟩ | ⟨hfits, -⟩
    · rw [hcall]
      exact hterminal
    · cases hterminal.symm.trans hfits.phase
  | stopReason => exact hterminal
  | requestCancel => exact hterminal
  | requestLoopCancel commandPolicy => exact hterminal

/-- What the history of a loop shows, whatever was called. -/
structure Budget (sha256 : Sha256) (policy : BuildRepairLoopPolicy) (h : History) : Prop where
  /-- Permits are numbered 1, 2, 3, .. -/
  numbered : h.permits.map RepairAttemptPermit.attempt = List.range' 1 h.permits.length
  at_most : h.permits.length ≤ policy.maxRepairAttempts
  rationed : Rationed policy.maxSameFailureOccurrences h.failures
  repaired_once : h.repaired.Nodup
  prepared_once : h.prepared.Nodup
  /-- A permit of another guard, or of an attempt that is not running, changes nothing. -/
  repair_refused : ∀ permit turn observed, ¬ Fits h.guard permit →
    ∃ e, h.guard.finishRepair permit turn observed = (.error e, h.guard)
  rebuild_refused : ∀ permit, ¬ FitsRebuild h.guard permit →
    ∃ e, h.guard.markRebuildPrepared permit = (.error e, h.guard)
  terminal_kept : ∀ reason, h.guard.phase = .terminal reason →
    ∀ op, (step sha256 h op).guard.phase = .terminal reason

theorem Inv.shows {policy : BuildRepairLoopPolicy} {h : History} (hinv : Inv policy h)
    (sha256 : Sha256) : Budget sha256 policy h where
  numbered := hinv.numbered
  at_most := hinv.budget
  rationed := hinv.rationed
  repaired_once := hinv.repaired_once
  prepared_once := hinv.prepared_once
  repair_refused := fun permit turn observed hnot => by
    rcases finishRepair_cases h.guard permit turn observed with hcall | ⟨hfits, -⟩
    · exact hcall
    · exact absurd hfits hnot
  rebuild_refused := fun permit hnot => by
    rcases markRebuildPrepared_cases h.guard permit with ⟨hcall, -⟩ | ⟨hfits, -⟩
    · exact hcall
    · exact absurd hfits hnot
  terminal_kept := fun _ hterminal op => step_terminal sha256 hterminal op

/-- **The budget holds.**  Along every sequence of calls on a new guard, with any results and any
    permits. -/
theorem budget_invariant (sha256 : Sha256) {loopId : BuildRepairLoopId} {projectId : ProjectId}
    {target : BuildTargetKind} {policy : BuildRepairLoopPolicy}
    (hnew : BuildRepairLoopGuard.new loopId projectId target policy = .ok guard) (ops : List Op) :
    Always (step sha256) (Budget sha256 policy) (History.start guard) ops := by
  obtain ⟨hfresh, hpolicy⟩ := new_fresh hnew
  have hstart : Inv policy (History.start guard) := hpolicy ▸ inv_start hfresh
  exact always_invariant (step sha256) (fun _ op hinv => hinv.step sha256 op)
    (fun _ hinv => hinv.shows sha256) hstart ops

/-- A build that fails twice in the same way, with the first repair finished and prepared between,
    under the default policy. -/
theorem budget_silentFailure :
    ∃ guard, BuildRepairLoopGuard.new ⟨4⟩ ⟨2⟩ .website .default = .ok guard ∧
      Always (step fun _ => silentDigest) (Budget (fun _ => silentDigest) .default)
        (History.start guard)
        [.authorizeRepair silentFailure, .rebuildPermit, .stopReason,
          .markRebuildPrepared ⟨⟨4⟩, ⟨2⟩, .website, 1⟩, .authorizeRepair silentFailure,
          .requestCancel] :=
  ⟨_, rfl, budget_invariant (fun _ => silentDigest) rfl _⟩

end VibeCoder.Build.LoopRuns
