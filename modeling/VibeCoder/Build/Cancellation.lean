/-
  Cancelling a repair loop.

  1. **The flag** — it stays set, and then no boundary is passed: no repair permit, no rebuild
     permit, no rebuild prepared (`nothing_passes`).

  2. **The stop reason** — a reason that `stop_reason` gave stays, with one exception: while the
     guard waits for a build result, a request makes it say `cancelled`, and the result of a build
     that had already ended by itself is recorded as what it was (`stopReason_run`).
-/
import VibeCoder.Build.LoopRuns

namespace VibeCoder.Build.LoopRuns

open BuildRepairLoopGuard Runs

variable {sha256 : Sha256}

/-! ## The flag -/

/-- No operation of a guard passes the boundary it is asked to pass. -/
structure Closed (sha256 : Sha256) (guard : BuildRepairLoopGuard) : Prop where
  no_repair : ∀ result permit, (guard.authorizeRepair sha256 result).1 ≠ .ok (.repair permit)
  no_rebuild : ∀ permit, guard.rebuildPermit ≠ .ok permit
  not_prepared : ∀ permit, (guard.markRebuildPrepared permit).1 ≠ .ok ()

theorem nothing_passes (sha256 : Sha256) {guard : BuildRepairLoopGuard}
    (hflag : guard.cancelRequested = true) : Closed sha256 guard where
  no_repair := fun result permit hpassed => by
    rcases authorizeRepair_cases sha256 guard result with ⟨e, hcall⟩ |
      ⟨-, -, ⟨reason, -, hcall⟩ | ⟨-, -, hcall⟩ | ⟨-, hclear, -⟩⟩
    · rw [hcall] at hpassed
      cases hpassed
    · rw [hcall] at hpassed
      cases hpassed
    · rw [hcall] at hpassed
      cases hpassed
    · rw [hflag] at hclear
      cases hclear
  no_rebuild := fun permit hpassed => by
    rw [rebuildPermit, if_pos hflag] at hpassed
    cases hpassed
  not_prepared := fun permit hpassed => by
    rcases markRebuildPrepared_cases guard permit with
      ⟨⟨e, hcall⟩, -⟩ | ⟨-, ⟨-, hcall⟩ | ⟨hclear, -⟩⟩
    · rw [hcall] at hpassed
      cases hpassed
    · rw [hcall] at hpassed
      cases hpassed
    · rw [hflag] at hclear
      cases hclear

/-- The natural end that a call records: of a build in scope, for a guard that waits for one. -/
def recordedEnd (guard : BuildRepairLoopGuard) : Op → Option BuildRepairLoopStopReason
  | .authorizeRepair result | .finishNonfailedBuild result =>
    if guard.phase = .awaitingBuildResult ∧ guard.inScope result then naturalReason result.state
    else none
  | .recordCompletion completion =>
    match (recordGuardedWebsiteBuildCompletion guard completion).1 with
    | .ok reason => reason
    | .error _ => none
  | .finishRepair _ _ _ | .rebuildPermit | .markRebuildPrepared _ | .stopReason | .requestCancel
  | .requestLoopCancel _ => none

theorem of_recordedBuild {guard : BuildRepairLoopGuard} {result : BuildResult}
    {ended : BuildRepairLoopStopReason}
    (h : (if guard.phase = .awaitingBuildResult ∧ guard.inScope result then
      naturalReason result.state else none) = some ended) :
    guard.phase = .awaitingBuildResult ∧ guard.inScope result ∧
      naturalReason result.state = some ended := by
  split at h
  · rename_i hawaiting
    exact ⟨hawaiting.1, hawaiting.2, h⟩
  · cases h

/-- A build that did not fail is recorded whether or not a request was made. -/
theorem finishNonfailedBuild_natural {guard : BuildRepairLoopGuard} {result : BuildResult}
    {ended : BuildRepairLoopStopReason} (hphase : guard.phase = .awaitingBuildResult)
    (hscope : guard.inScope result) (hended : naturalReason result.state = some ended) :
    guard.finishNonfailedBuild result = (.ok ended, guard.stopWith ended) := by
  rw [finishNonfailedBuild, if_neg (not_not.mpr hscope), if_neg (not_not.mpr hphase)]
  cases hstate : result.state <;> rw [hstate] at hended <;> cases hended <;> rfl

theorem authorizeRepair_natural (sha256 : Sha256) {guard : BuildRepairLoopGuard}
    {result : BuildResult} {ended : BuildRepairLoopStopReason}
    (hphase : guard.phase = .awaitingBuildResult) (hscope : guard.inScope result)
    (hended : naturalReason result.state = some ended) :
    guard.authorizeRepair sha256 result = (.ok (.stop ended), guard.stopWith ended) := by
  rw [authorizeRepair, if_neg (not_not.mpr hscope), if_neg (not_not.mpr hphase)]
  cases hstate : result.state <;> rw [hstate] at hended <;> cases hended <;> rfl

/-- The flag changes nothing when it is set again. -/
theorem requestCancel_requested {guard : BuildRepairLoopGuard}
    (hflag : guard.cancelRequested = true) : guard.requestCancel = guard := by
  cases guard
  subst hflag
  rfl

/-- Once the flag is set, a call records a natural end, or does nothing, or ends the loop as
    cancelled. -/
theorem step_requested (sha256 : Sha256) {h : History} (hflag : h.guard.cancelRequested = true) (op : Op) :
    (∃ ended, recordedEnd h.guard op = some ended ∧ h.guard.phase = .awaitingBuildResult ∧
      (step sha256 h op).guard = h.guard.stopWith ended) ∨
    recordedEnd h.guard op = none ∧
      ((step sha256 h op).guard = h.guard ∨
        (step sha256 h op).guard = h.guard.stopWith .cancelled) := by
  cases op with
  | authorizeRepair result =>
    rcases hend : recordedEnd h.guard (.authorizeRepair result) with _ | ended
    · refine .inr ⟨rfl, ?_⟩
      rw [step]
      rcases authorizeRepair_cases sha256 h.guard result with ⟨e, hcall⟩ |
        ⟨hphase, hscope, ⟨reason, hreason, -⟩ | ⟨-, -, hcall⟩ | ⟨-, hclear, -⟩⟩
      · rw [hcall]
        exact .inl rfl
      · rw [recordedEnd, if_pos ⟨hphase, hscope⟩, hreason] at hend
        cases hend
      · rw [hcall]
        exact .inr rfl
      · rw [hflag] at hclear
        cases hclear
    · obtain ⟨hphase, hscope, hreason⟩ := of_recordedBuild hend
      refine .inl ⟨ended, rfl, hphase, ?_⟩
      rw [step, authorizeRepair_natural sha256 hphase hscope hreason]
  | finishNonfailedBuild result =>
    rcases hend : recordedEnd h.guard (.finishNonfailedBuild result) with _ | ended
    · refine .inr ⟨rfl, ?_⟩
      rw [step]
      rcases finishNonfailedBuild_cases h.guard result with
        ⟨e, hcall⟩ | ⟨hphase, hscope, reason, hreason, -⟩
      · rw [hcall]
        exact .inl rfl
      · rw [recordedEnd, if_pos ⟨hphase, hscope⟩, hreason] at hend
        cases hend
    · obtain ⟨hphase, hscope, hreason⟩ := of_recordedBuild hend
      refine .inl ⟨ended, rfl, hphase, ?_⟩
      rw [step, finishNonfailedBuild_natural hphase hscope hreason]
  | recordCompletion completion =>
    rw [step, recordedEnd]
    rcases recordCompletion_cases h.guard completion with
      ⟨answer, hcall, hnone⟩ | ⟨hphase, -, reason, -, hcall⟩
    · rw [hcall]
      refine .inr ⟨?_, .inl rfl⟩
      rcases answer with e | _ | reason
      · rfl
      · rfl
      · exact absurd rfl (hnone reason)
    · rw [hcall]
      exact .inl ⟨reason, rfl, hphase, rfl⟩
  | finishRepair permit turn observed =>
    rw [step]
    refine .inr ⟨rfl, ?_⟩
    rcases finishRepair_cases h.guard permit turn observed with ⟨e, hcall⟩ |
      ⟨-, -, ⟨-, hcall⟩ | ⟨hclear, -⟩ | ⟨hclear, -⟩⟩
    · rw [hcall]
      exact .inl rfl
    · rw [hcall]
      exact .inr rfl
    · rw [hflag] at hclear
      cases hclear
    · rw [hflag] at hclear
      cases hclear
  | rebuildPermit => exact .inr ⟨rfl, .inl rfl⟩
  | markRebuildPrepared permit =>
    rw [step]
    refine .inr ⟨rfl, ?_⟩
    rcases markRebuildPrepared_cases h.guard permit with
      ⟨⟨e, hcall⟩, -⟩ | ⟨-, ⟨-, hcall⟩ | ⟨hclear, -⟩⟩
    · rw [hcall]
      exact .inl rfl
    · rw [hcall]
      exact .inr rfl
    · rw [hflag] at hclear
      cases hclear
  | stopReason => exact .inr ⟨rfl, .inl rfl⟩
  | requestCancel => exact .inr ⟨rfl, .inl (requestCancel_requested hflag)⟩
  | requestLoopCancel commandPolicy => exact .inr ⟨rfl, .inl (requestCancel_requested hflag)⟩

theorem step_keeps_flag {h : History} (hflag : h.guard.cancelRequested = true) (op : Op) :
    (step sha256 h op).guard.cancelRequested = true := by
  rcases step_requested sha256 hflag op with ⟨ended, -, -, hstep⟩ | ⟨-, hstep | hstep⟩
  · rw [hstep]
    exact hflag
  · rw [hstep]
    exact hflag
  · rw [hstep]
    exact hflag

/-! ## The stop reason -/

/-- A reason given because of the flag stays, or the natural end that a call records takes its
    place.  A reason that is recorded stays. -/
theorem step_reason {h : History} {reason : BuildRepairLoopStopReason}
    (hreason : h.guard.stopReason = some reason) (op : Op) :
    (step sha256 h op).guard.stopReason = some reason ∨
    reason = .cancelled ∧ h.guard.phase = .awaitingBuildResult ∧
      ∃ ended, recordedEnd h.guard op = some ended ∧
        (step sha256 h op).guard.phase = .terminal ended := by
  by_cases hterminal : h.guard.phase = .terminal reason
  · have hkept := step_terminal sha256 hterminal op
    left
    rw [stopReason, hkept]
  · -- not a recorded reason, so one read off the flag
    have hrequested : h.guard.cancelRequested = true ∧ reason = .cancelled := by
      rw [stopReason] at hreason
      split at hreason
      · rename_i recorded hphase
        cases hreason
        exact absurd hphase hterminal
      all_goals
        split at hreason
        · rename_i hflag
          cases hreason
          exact ⟨hflag, rfl⟩
        · cases hreason
    obtain ⟨hflag, rfl⟩ := hrequested
    rcases step_requested sha256 hflag op with
      ⟨ended, hended, hphase, hstep⟩ | ⟨-, hstep | hstep⟩
    · refine .inr ⟨rfl, hphase, ended, hended, ?_⟩
      rw [hstep]
      rfl
    · left
      rw [hstep]
      exact hreason
    · left
      rw [hstep]
      rfl

/-- A recorded reason stays all along a run. -/
theorem terminal_always (sha256 : Sha256) {h : History} {reason : BuildRepairLoopStopReason}
    (hterminal : h.guard.phase = .terminal reason) (ops : List Op) :
    Always (step sha256) (fun t => t.guard.stopReason = some reason) h ops := by
  refine always_invariant (step sha256) (I := fun t => t.guard.phase = .terminal reason)
    (fun t op ht => step_terminal sha256 ht op) (fun t ht => ?_) hterminal ops
  rw [stopReason, ht]

/-- A build in scope ended by itself and was recorded, in place of a reason that stood only because
    of a request; what was recorded then stays. -/
def Overtaken (sha256 : Sha256) (h : History) (reason : BuildRepairLoopStopReason)
    (ops : List Op) : Prop :=
  ∃ before op after ended, ops = before ++ op :: after ∧ reason = .cancelled ∧
    (play (step sha256) h before).guard.phase = .awaitingBuildResult ∧
    recordedEnd (play (step sha256) h before).guard op = some ended ∧
    Always (step sha256) (fun t => t.guard.stopReason = some reason) h before ∧
    Always (step sha256) (fun t => t.guard.stopReason = some ended)
      (step sha256 (play (step sha256) h before) op) after

/-- **Run lemma.**  A stop reason stays, or is overtaken once. -/
theorem stopReason_run (sha256 : Sha256) {h : History} {reason : BuildRepairLoopStopReason}
    (hreason : h.guard.stopReason = some reason) (ops : List Op) :
    Always (step sha256) (fun t => t.guard.stopReason = some reason) h ops ∨
      Overtaken sha256 h reason ops := by
  induction ops generalizing h with
  | nil => exact .inl hreason
  | cons op ops ih =>
    rcases step_reason hreason op with hkept | ⟨rfl, hphase, ended, hended, hterminal⟩
    · rcases ih hkept with halways |
        ⟨before, last, after, ended, hops, hcancelled, hphase, hended, hbefore, hafter⟩
      · exact .inl ⟨hreason, halways⟩
      · right
        refine ⟨op :: before, last, after, ended, ?_, hcancelled, hphase, hended, ?_, hafter⟩
        · rw [hops]
          rfl
        · exact ⟨hreason, hbefore⟩
    · right
      exact ⟨[], op, ops, ended, rfl, rfl, hphase, hended, hreason,
        terminal_always sha256 hterminal ops⟩

/-- **A request is final, and so is a stop reason up to a build that had ended by itself.**  From
    any state of a guard, for any calls after the request, or after the reason was given. -/
theorem cancellation_final (sha256 : Sha256) (h : History) (ops : List Op) :
    (∀ request, (request = .requestCancel ∨ ∃ p, request = .requestLoopCancel p) →
      Always (step sha256) (fun t => Closed sha256 t.guard) (step sha256 h request) ops) ∧
    ∀ reason, h.guard.stopReason = some reason →
      Always (step sha256) (fun t => t.guard.stopReason = some reason) h ops ∨
        Overtaken sha256 h reason ops := by
  constructor
  · intro request hrequest
    have hflag : (step sha256 h request).guard.cancelRequested = true := by
      rcases hrequest with rfl | ⟨p, rfl⟩
      · rfl
      · rfl
    exact always_invariant (step sha256) (I := fun t => t.guard.cancelRequested = true)
      (fun t op ht => step_keeps_flag ht op) (fun t ht => nothing_passes sha256 ht) hflag ops
  · intro reason hreason
    exact stopReason_run sha256 hreason ops

/-- A build that succeeded without a word. -/
def silentSuccess : BuildResult :=
  BuildResult.fromProcessResult ⟨⟨1⟩, ⟨2⟩, .website⟩
    { processId := ⟨3⟩
      termination := .exited
      exitCode := some 0
      stdout := []
      stderr := []
      stdoutTruncated := false
      stderrTruncated := false
      eventQueueOverflowed := false
      durationMs := 5 }

theorem cancellation_final_awaiting :
    ∃ guard, BuildRepairLoopGuard.new ⟨4⟩ ⟨2⟩ .website .default = .ok guard ∧
      Overtaken (fun _ => silentDigest)
        (step (fun _ => silentDigest) (History.start guard) .requestCancel) .cancelled
        [.stopReason, .finishNonfailedBuild silentSuccess] := by
  refine ⟨_, rfl, ?_⟩
  refine ((cancellation_final (fun _ => silentDigest) _ _).2 .cancelled rfl).resolve_left ?_
  intro hkept
  cases hkept.last

/-- The reason read after a request, `cancelled`, is `succeeded` once the build is recorded. -/
theorem cancelled_then_succeeded :
    ∃ guard, BuildRepairLoopGuard.new ⟨4⟩ ⟨2⟩ .website .default = .ok guard ∧
      let requested := step (fun _ => silentDigest) (History.start guard) .requestCancel
      requested.guard.stopReason = some .cancelled ∧
      (step (fun _ => silentDigest) requested (.finishNonfailedBuild silentSuccess)).guard.stopReason
        = some .succeeded :=
  ⟨_, rfl, rfl, rfl⟩

end VibeCoder.Build.LoopRuns
