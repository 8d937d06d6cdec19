/-
  Any number of calls on one process runtime, in any interleaving with each other and with what the
  processes do: starts of projects' commands and of services, failed ones among them, cancellations
  and queries.

  1. **Supervision** (`Watch`) — the supervisor goes on until the leader is gone, and if it was asked
     to end the process, until it has killed the whole group.

  2. **Slots** (`Call.Left`) — each start gives back the slot it took, whether it fails or ends.

  3. **The law** (`registry_law`) — the limits hold, each slot is given back once, and what can be
     left behind is the group of a leader that exited by itself; it can be (`leftBehind_alive`).
-/
import VibeCoder.Process.Slots
import VibeCoder.Lib.WeakestPre

namespace VibeCoder.Process

open Resume Runs

/-! ## Calls -/

/-- A call of the runtime's interface, or Core's check before a rollback. -/
inductive Call where
  | start (rounds : Nat) (scope : ActiveProcessScope) (limits : LocalExecutionLimits)
  | cancel (processId : ProcessId)
  | activeForProject (projectId : ProjectId)
  | activeRuntimeService (serviceId : String)
  | ensureNoActiveProjectProcess (projectId : ProjectId)

/-- What a call answers; a start whose process is still supervised has no result yet. -/
inductive Answer where
  | ended (result : Option ProcessResult)
  | done
  | count (active : Nat)

def Call.program : Call → ProcessM Answer
  | .start rounds scope limits => do return .ended (← Process.start rounds scope limits)
  | .cancel processId => do
    perform (.cancel processId)
    return .done
  | .activeForProject projectId => do return .count (← perform (.activeForProject projectId))
  | .activeRuntimeService serviceId => do
    return .count (← perform (.activeRuntimeService serviceId))
  | .ensureNoActiveProjectProcess projectId => do
    let active ← perform (.activeForProject projectId)
    if active ≠ 0 then throw (processError "project_process_active") else return .done

def Call.scope : Call → Option ActiveProcessScope
  | .start _ scope _ => some scope
  | .cancel _ | .activeForProject _ | .activeRuntimeService _ | .ensureNoActiveProjectProcess _ =>
    none

/-! ## What a call leaves -/

/-- What the supervisor knows of the process: a leader whose status it has seen is gone; it has
    killed the whole group before it went on, and before it looked for a status at all if it was
    asked to end the process. -/
structure Watch (v : Supervision) (c : Child) : Prop where
  gone : v.exitStatus ≠ none → c.leader ≠ .running
  killed : v.killEscalated = true → Dead c
  escalated : v.requestedTermination ≠ none → v.exitStatus ≠ none → v.killEscalated = true

theorem stable_watch (v : Supervision) : Stable (Watch v) := fun _ _ hlater h =>
  ⟨fun hexit => hlater.gone (h.gone hexit), fun hkill => hlater.dead (h.killed hkill), h.escalated⟩

theorem watch_new (c : Child) : Watch .new c :=
  ⟨fun h => absurd rfl h, (fun h => by cases h), fun h => absurd rfl h⟩

/-- What a supervisor leaves that has a result: no leader, and nobody at all unless the leader
    exited by itself. -/
def LeftBy (result : ProcessResult) (c : Child) : Prop :=
  c.leader ≠ .running ∧
    (Dead c ∨ result.termination = .exited ∨ result.termination = .signaled)

theorem stable_leftBy (result : ProcessResult) : Stable (LeftBy result) :=
  fun _ _ hlater h => ⟨hlater.gone h.1, h.2.imp_left hlater.dead⟩

theorem classifyExit_natural (status : ExitStatus) :
    classifyExit status = .exited ∨ classifyExit status = .signaled := by
  cases status with
  | exited code => exact .inl rfl
  | signaled number => exact .inr rfl

section

variable {ι : Type} {i : ι} {s : System ι}

/-- The slot was given back, with as many processes alive as `A` says. -/
def Released (i : ι) (A : Nat → Prop) (s : System ι) : Prop :=
  ∃ scope alive, s.slot i = .released scope alive ∧ A alive

/-- A call that failed holds no slot, and left nobody alive. -/
def Failed (i : ι) (s : System ι) : Prop := s.slot i = .none ∨ Released i (· = 0) s

/-- How a start leaves its slot: held while it is supervised, and given back once it has ended. -/
def Left (i : ι) (ended : Option ProcessResult) (s : System ι) : Prop :=
  match ended with
  | none => ∃ id scope, s.slot i = .held id scope
  | some result => Released i
      (fun alive => alive = 0 ∨ result.termination = .exited ∨ result.termination = .signaled) s

/-- How a call that answers leaves its slot. -/
def Call.Left (i : ι) : Answer → System ι → Prop
  | .ended ended, s => Process.Left i ended s
  | .done, s | .count _, s => s.slot i = .none

theorem left_released {r : Result Answer} (h : Post (Call.Left i) (fun _ => Failed i) r s)
    {scope : ActiveProcessScope} {alive : Nat} (hslot : s.slot i = .released scope alive) :
    alive = 0 ∨ ∃ result, r = .ok (.ended (some result)) ∧
      (result.termination = .exited ∨ result.termination = .signaled) := by
  cases r with
  | error e =>
    rcases h with hnone | ⟨scope', alive', hslot', hdead⟩
    · cases hnone.symm.trans hslot
    · cases hslot'.symm.trans hslot
      exact .inl hdead
  | ok a =>
    cases a with
    | done =>
      have hnone : s.slot i = .none := h
      cases hnone.symm.trans hslot
    | count active =>
      have hnone : s.slot i = .none := h
      cases hnone.symm.trans hslot
    | ended result =>
      cases result with
      | none =>
        obtain ⟨id, scope', hheld⟩ := h
        cases hheld.symm.trans hslot
      | some result =>
        obtain ⟨scope', alive', hslot', hdead⟩ := h
        cases hslot'.symm.trans hslot
        exact hdead.imp_right (fun hnatural => ⟨result, rfl, hnatural⟩)

theorem left_held {r : Result Answer} (h : Post (Call.Left i) (fun _ => Failed i) r s)
    {id : ProcessId} {scope : ActiveProcessScope} (hslot : s.slot i = .held id scope) :
    r = .ok (.ended none) := by
  cases r with
  | error e =>
    rcases h with hnone | ⟨scope', alive', hslot', -⟩
    · cases hnone.symm.trans hslot
    · cases hslot'.symm.trans hslot
  | ok a =>
    cases a with
    | done =>
      have hnone : s.slot i = .none := h
      cases hnone.symm.trans hslot
    | count active =>
      have hnone : s.slot i = .none := h
      cases hnone.symm.trans hslot
    | ended result =>
      cases result with
      | none => rfl
      | some result =>
        obtain ⟨scope', alive', hslot', -⟩ := h
        cases hslot'.symm.trans hslot

end

section

variable {ι : Type} [DecidableEq ι] {i : ι} {s t : System ι}
variable {scopes : ι → Option ActiveProcessScope} {id : ProcessId} {P : Child → Prop} {α : Type}

/-! ## Supervision -/

theorem calm_emitEvent (event : ProcessEvent) (overflowed : Bool) :
    Only Op.Calm (emitEvent event overflowed) := by
  refine only_bind (only_attempt trivial) (fun answer => ?_)
  cases answer with
  | sent => exact only_pure _
  | disconnected => exact only_pure _
  | full => exact only_pure _

theorem calm_drainChunks (stream : OutputStream) (limit : Nat) :
    ∀ (n : Nat) (pipe : Pipe) (overflowed : Bool),
      Only Op.Calm (drainChunks stream limit n pipe overflowed)
  | 0, _, _ => only_pure _
  | n + 1, pipe, overflowed => by
    refine only_bind (only_attempt trivial) (fun answer => ?_)
    cases answer with
    | closed => exact only_pure _
    | bytes chunk =>
      exact only_bind (calm_emitEvent _ _) (fun _ => calm_drainChunks stream limit n _ _)
    | wouldBlock => exact only_pure _
    | interrupted => exact calm_drainChunks stream limit n pipe overflowed
    | failed => exact only_throw _

theorem calm_drainPipe (stream : OutputStream) (limit : Nat) (pipe : Pipe) (overflowed : Bool) :
    Only Op.Calm (drainPipe stream limit pipe overflowed) := by
  rw [drainPipe]
  split
  · exact only_pure _
  · exact calm_drainChunks stream limit _ pipe overflowed

theorem supervises_signalKill (h : Supervises i id P s) (hP : Stable P) :
    Wp (Calls scopes) i (perform (.signalGroup .kill)) (fun _ => Supervises i id Dead)
      (fun _ _ => False) s := by
  refine supervises_plain h hP trivial (fun w u c t _ _ ht => ?_)
  obtain ⟨signalled, hanswer⟩ := perform_sure (o := .signalGroup .kill) trivial u i w
  rw [hanswer]
  exact ht.mono (fun c' hc' => stable_dead _ c' hc' (dead_signalKill w c))

/-- After `terminate_process_group_immediately` nobody is alive. -/
theorem supervises_terminate (h : Supervises i id P s) (hP : Stable P) (hinv : Inv scopes s) :
    Wp (Calls scopes) i terminateProcessGroupImmediately (fun _ => Supervises i id Dead)
      (fun _ _ => False) s := by
  rw [terminateProcessGroupImmediately]
  refine wp_seq_total hinv (supervises_signalKill h hP) (fun _ t ht hdead => ?_)
  refine wp_seq_total ht (supervises_sure hdead stable_dead trivial) (fun _ u _ hdead => ?_)
  refine supervises_plain hdead stable_dead trivial (fun w u' c r _ hc hr => ?_)
  exact hr.mono (fun c' hc' => stable_dead _ c' hc' (reap_alive hc w.status))

/-- A calm part that fails leaves nobody alive. -/
theorem supervises_orTerminate {part : ProcessM α} (h : Supervises i id P s) (hP : Stable P)
    (hpart : Only Op.Calm part) (hinv : Inv scopes s) :
    Wp (Calls scopes) i (orTerminate part) (fun _ => Supervises i id P)
      (fun _ => Supervises i id Dead) s := by
  rw [orTerminate]
  have hsettled : Wp (Calls scopes) i (settle part) (fun _ => Supervises i id P)
      (fun _ _ => False) s := wp_settle (supervises_calm h hP hpart)
  refine wp_seq_total hinv hsettled (fun r t ht h => ?_)
  cases r with
  | ok a => exact wp_pure h
  | error e =>
    exact wp_seq_total ht (supervises_terminate h hP ht) (fun _ u _ hdead => wp_throw hdead)

theorem supervises_emitEvent (h : Supervises i id P s) (hP : Stable P) (event : ProcessEvent)
    (overflowed : Bool) (hinv : Inv scopes s) :
    Wp (Calls scopes) i (emitEvent event overflowed) (fun _ => Supervises i id P)
      (fun _ _ => False) s := by
  rw [emitEvent]
  refine wp_seq_total hinv (supervises_sure h hP trivial) (fun answer t _ h => ?_)
  cases answer with
  | sent => exact wp_pure h
  | disconnected => exact wp_pure h
  | full => exact wp_pure h

theorem supervises_noticeOverflow (h : Supervises i id P s) (hP : Stable P) (overflowed : Bool)
    (hinv : Inv scopes s) :
    Wp (Calls scopes) i (noticeOverflow overflowed) (fun _ => Supervises i id P)
      (fun _ _ => False) s := by
  rw [noticeOverflow]
  split
  · exact wp_seq_total hinv (supervises_sure h hP trivial) (fun _ t _ h => wp_pure h)
  · exact wp_pure h

theorem supervises_signalOrKill (h : Supervises i id P s) (hP : Stable P) (signal : Signal)
    (hinv : Inv scopes s) :
    Wp (Calls scopes) i (signalOrKill signal) (fun _ => Supervises i id P)
      (fun _ _ => False) s := by
  rw [signalOrKill]
  refine wp_seq_total hinv (supervises_sure h hP trivial) (fun signalled t _ h => ?_)
  cases signalled with
  | true => exact wp_pure h
  | false => exact supervises_sure h hP trivial

theorem supervises_drainPipes (limits : LocalExecutionLimits) {v : Supervision}
    (h : Supervises i id (Watch v) s) (hinv : Inv scopes s) :
    Wp (Calls scopes) i (drainPipes limits v)
      (fun v' t => Supervises i id (Watch v') t ∧ v'.exitStatus = v.exitStatus)
      (fun _ => Supervises i id Dead) s := by
  rw [drainPipes]
  refine wp_seq hinv (supervises_orTerminate h (stable_watch v) (calm_drainPipe ..) hinv)
    (fun stdout t ht h => ?_) (fun _ _ _ hdead => hdead)
  refine wp_seq ht (supervises_orTerminate h (stable_watch v) (calm_drainPipe ..) ht)
    (fun stderr u _ h => ?_) (fun _ _ _ hdead => hdead)
  exact wp_pure ⟨h.mono (fun c hc => ⟨hc.gone, hc.killed, hc.escalated⟩), rfl⟩

/-- The status is looked for only while the whole group may go on, or after it was killed. -/
theorem supervises_observeExit {v : Supervision} (h : Supervises i id (Watch v) s) (now : Nat)
    (hinv : Inv scopes s) :
    Wp (Calls scopes) i (observeExit v now)
      (fun v' => Supervises i id (Watch v')) (fun _ => Supervises i id Dead) s := by
  rw [observeExit]
  split
  · rename_i hlook
    rw [Bool.and_eq_true, Bool.or_eq_true] at hlook
    have hask : v.requestedTermination ≠ none → v.killEscalated = true := by
      intro hrequested
      rcases hlook.2 with hnone | hkilled
      · exact absurd (Option.isNone_iff_eq_none.mp hnone) hrequested
      · exact hkilled
    have hanswer : Wp (Calls scopes) i (settle (perform .tryWait))
        (fun r t => Supervises i id (Watch v) t ∧
          ∀ status, r = .ok (some status) → Supervises i id (fun c => c.leader ≠ .running) t)
        (fun _ _ => False) s := by
      refine wp_settle (supervises_plain h (stable_watch v) trivial (fun w u c t hc hwatch ht => ?_))
      rw [perform_tryWait hc]
      by_cases hok : w.success = true
      · have hchild : Op.onChild w .tryWait c = c.tryWait.2 := if_pos hok
        rw [hchild] at ht
        rw [if_pos hok]
        refine ⟨ht.mono (fun c' hc' => ?_), fun status hstatus => ht.mono (fun c' hc' => ?_)⟩
        · exact stable_watch v c c' ((later_tryWait c).trans hc') hwatch
        · exact hc'.gone (tryWait_gone (Except.ok.inj hstatus))
      · have hchild : Op.onChild w .tryWait c = c := if_neg hok
        rw [hchild] at ht
        rw [if_neg hok]
        exact ⟨ht.mono (fun c' hc' => stable_watch v c c' hc' hwatch),
          fun status hstatus => by cases hstatus⟩
    refine wp_seq_total hinv hanswer (fun r t ht h => ?_)
    obtain ⟨h, hseen⟩ := h
    cases r with
    | ok status =>
      cases status with
      | none => exact wp_pure h
      | some status =>
        refine wp_pure ?_
        obtain ⟨hheld, c, hc, hwatch⟩ := h
        obtain ⟨-, c', hc', hgone⟩ := hseen status rfl
        cases hc.symm.trans hc'
        exact ⟨hheld, c, hc, fun _ => hgone, hwatch.killed, fun hrequested _ => hask hrequested⟩
    | error e =>
      exact wp_seq_total ht (supervises_terminate h (stable_watch v) ht)
        (fun _ u _ hdead => wp_throw hdead)
  · exact wp_pure h

theorem supervises_requestTermination (deadline : Option Nat) {v : Supervision}
    (h : Supervises i id (Watch v) s) (now : Nat) (hinv : Inv scopes s) :
    Wp (Calls scopes) i (requestTermination deadline v now)
      (fun v' => Supervises i id (Watch v')) (fun _ => Supervises i id Dead) s := by
  rw [requestTermination]
  split
  · rename_i hrunning
    rw [Bool.and_eq_true, Option.isNone_iff_eq_none] at hrunning
    refine wp_seq_total hinv (supervises_sure h (stable_watch v) trivial) (fun cancelled t ht h => ?_)
    dsimp only
    split
    · exact wp_pure h
    · refine wp_seq_total ht (supervises_signalOrKill h (stable_watch v) .term ht) (fun _ u _ h => ?_)
      refine wp_pure (h.mono (fun c hc => ⟨hc.gone, hc.killed, fun _ hexit => ?_⟩))
      exact absurd hrunning.1 hexit
  · exact wp_pure h

theorem supervises_escalateKill {v : Supervision} (h : Supervises i id (Watch v) s) (now : Nat)
    (hinv : Inv scopes s) :
    Wp (Calls scopes) i (escalateKill v now)
      (fun v' => Supervises i id (Watch v')) (fun _ => Supervises i id Dead) s := by
  rw [escalateKill]
  split
  · exact wp_pure h
  · split
    · refine wp_seq_total hinv (R := fun _ => Supervises i id Dead) ?_ (fun _ t ht hdead => ?_)
      · rw [signalOrKill]
        refine wp_seq_total hinv (supervises_signalKill h (stable_watch v))
          (fun signalled t _ hdead => ?_)
        cases signalled with
        | true => exact wp_pure hdead
        | false => exact supervises_sure hdead stable_dead trivial
      · refine wp_pure (hdead.mono (fun c hc => ⟨?_, fun _ => hc, fun _ _ => rfl⟩))
        exact fun _ => (alive_eq_zero.mp hc).1
    · exact wp_pure h

theorem supervises_superviseLoop (limits : LocalExecutionLimits) (deadline : Option Nat)
    (rounds : Nat) :
    ∀ {v : Supervision} {s : System ι}, Supervises i id (Watch v) s → Inv scopes s →
      Wp (Calls scopes) i (superviseLoop limits deadline rounds v)
        (fun ended t => Supervises i id (fun _ => True) t ∧
          ∀ v', ended = some v' → Supervises i id (Watch v') t ∧ v'.exitStatus ≠ none)
        (fun _ => Supervises i id Dead) s := by
  induction rounds with
  | zero =>
    intro v s h _
    exact wp_pure ⟨h.mono (fun _ _ => trivial), fun v' hended => by cases hended⟩
  | succ rounds ih =>
    intro v s h hinv
    rw [superviseLoop]
    refine wp_seq hinv (supervises_drainPipes limits h hinv) (fun v₁ t ht h => ?_)
      (fun _ _ _ hdead => hdead)
    refine wp_seq_total ht (supervises_sure h.1 (stable_watch v₁) trivial) (fun now t ht h => ?_)
    refine wp_seq ht (supervises_observeExit h now ht) (fun v₂ t ht h => ?_)
      (fun _ _ _ hdead => hdead)
    refine wp_seq ht (supervises_requestTermination deadline h now ht) (fun v₃ t ht h => ?_)
      (fun _ _ _ hdead => hdead)
    refine wp_seq ht (supervises_escalateKill h now ht) (fun v₄ t ht h => ?_)
      (fun _ _ _ hdead => hdead)
    split
    · rename_i hended
      rw [hasEnded, Bool.and_eq_true] at hended
      refine wp_pure ⟨h.mono (fun _ _ => trivial), fun v' hv' => ?_⟩
      cases hv'
      refine ⟨h, fun hnone => ?_⟩
      rw [hnone] at hended
      cases hended.1
    · refine wp_seq_total ht (supervises_sure h (stable_watch v₄) trivial) (fun _ t ht h => ?_)
      exact ih h ht

theorem supervises_finishSupervision (limits : LocalExecutionLimits) (started : Nat)
    {v : Supervision} (h : Supervises i id (Watch v) s) (hexit : v.exitStatus ≠ none)
    (hinv : Inv scopes s) :
    Wp (Calls scopes) i (finishSupervision limits id started v)
      (fun result => Supervises i id (LeftBy result)) (fun _ => Supervises i id Dead) s := by
  rw [finishSupervision]
  refine wp_seq hinv (supervises_drainPipes limits h hinv) (fun v' t ht h => ?_)
    (fun _ _ _ hdead => hdead)
  obtain ⟨h, hsame⟩ := h
  cases hstatus : v'.exitStatus with
  | none => exact absurd (hsame.symm.trans hstatus) hexit
  | some status =>
    refine wp_seq_total ht (supervises_noticeOverflow h (stable_watch v') _ ht) (fun _ t ht h => ?_)
    refine wp_seq_total ht (supervises_emitEvent h (stable_watch v') _ _ ht) (fun _ t ht h => ?_)
    refine wp_seq_total ht (supervises_sure h (stable_watch v') trivial) (fun _ t _ h => ?_)
    have hseen : v'.exitStatus ≠ none := fun hnone => by cases hstatus.symm.trans hnone
    refine wp_pure (h.mono (fun c hc => ⟨hc.gone hseen, ?_⟩))
    cases hrequested : v'.requestedTermination with
    | none => exact .inr (classifyExit_natural status)
    | some requested =>
      -- the group was killed before the leader was reaped
      refine .inl (hc.killed (hc.escalated (fun hnone => ?_) hseen))
      cases hrequested.symm.trans hnone

theorem supervises_superviseProcess (rounds : Nat) (limits : LocalExecutionLimits)
    (started : Nat) (h : Supervises i id (fun _ => True) s) (hinv : Inv scopes s) :
    Wp (Calls scopes) i (superviseProcess rounds limits id started)
      (fun ended t => Supervises i id (fun _ => True) t ∧
        ∀ result, ended = some result → Supervises i id (LeftBy result) t)
      (fun _ => Supervises i id Dead) s := by
  rw [superviseProcess]
  refine wp_seq hinv (supervises_superviseLoop limits _ rounds (h.mono fun c _ => watch_new c) hinv)
    (fun ended t ht h => ?_) (fun _ _ _ hdead => hdead)
  cases ended with
  | none => exact wp_pure ⟨h.1, fun result hended => by cases hended⟩
  | some v =>
    obtain ⟨hwatch, hexit⟩ := h.2 v rfl
    refine wp_seq ht (supervises_finishSupervision limits started hwatch hexit ht)
      (fun result u _ h => wp_pure ⟨h.mono (fun _ _ => trivial), fun result' hresult => ?_⟩)
      (fun _ _ _ hdead => hdead)
    cases hresult
    exact h

/-! ## Taking and giving back -/

theorem supervises_release (h : Supervises i id P s) (hP : Stable P)
    (hgone : ∀ c, P c → c.leader ≠ .running) :
    Wp (Calls scopes) i (perform (.release id))
      (fun _ => Released i (fun alive => ∃ c, P c ∧ c.alive = alive)) (fun _ _ => False) s := by
  have hallowed : Allowed scopes i (.release id) s := by
    obtain ⟨hheld, c, hc, hPc⟩ := h
    refine ⟨hheld, fun c' hc' => ?_⟩
    cases hc.symm.trans hc'
    exact hgone c hPc
  refine wp_attempt hallowed (fun w _ t hrely _ => ?_)
  have hslot : t.slot i = Function.update (w.before.foldl System.occur s).slot i _ i := hrely.slot
  obtain ⟨⟨scope, hheld⟩, c, hc, hPc⟩ := h.rely hP (rely_occurs i w.before s)
  rw [Function.update_self, hheld] at hslot
  refine ⟨scope, _, hslot, c, hPc, ?_⟩
  rw [System.alive, hc]
  rfl

theorem reserved_release (h : Reserved i id s) :
    Wp (Calls scopes) i (perform (.release id)) (fun _ => Released i (· = 0))
      (fun _ _ => False) s := by
  refine wp_attempt ⟨h.1, fun c hc => by cases h.2.symm.trans hc⟩ (fun w _ t hrely _ => ?_)
  have hslot : t.slot i = Function.update (w.before.foldl System.occur s).slot i _ i := hrely.slot
  obtain ⟨⟨scope, hheld⟩, hnone⟩ := h.rely (rely_occurs i w.before s)
  rw [Function.update_self, hheld] at hslot
  refine ⟨scope, _, hslot, ?_⟩
  rw [System.alive, hnone]
  rfl

theorem reserved_spawn (h : Reserved i id s) :
    Wp (Calls scopes) i (perform .spawn)
      (fun spawned t => if spawned then Supervises i id (fun _ => True) t else Reserved i id t)
      (fun _ _ => False) s := by
  have hallowed : Allowed scopes i .spawn s := by
    obtain ⟨⟨scope, hheld⟩, hnone⟩ := h
    exact ⟨⟨id, scope, hheld⟩, hnone⟩
  refine wp_attempt hallowed (fun w _ t hrely _ => ?_)
  have h' := h.rely (rely_occurs i w.before s)
  change Rely i ((w.before.foldl System.occur s).perform i w .spawn).2 t at hrely
  show Post _ _ ((w.before.foldl System.occur s).perform i w .spawn).1 t
  rw [System.perform] at hrely ⊢
  split at hrely
  · rename_i hok
    obtain ⟨c, hc, -⟩ := hrely.child { leader := .running, members := 0 }
      (Function.update_self i _ _)
    obtain ⟨scope, hheld⟩ := h'.1
    rw [if_pos hok]
    exact ⟨⟨scope, hrely.slot.trans hheld⟩, c, hc, trivial⟩
  · rename_i hfailed
    rw [if_neg hfailed]
    exact h'.rely hrely

/-- A call without a slot has no process either. -/
theorem wp_reserve {scope : ActiveProcessScope} (hfree : s.slot i = .none)
    (hscope : scopes i = some scope) (hinv : Inv scopes s) :
    Wp (Calls scopes) i (perform (.reserve scope)) (Reserved i) (fun _ t => t.slot i = .none) s := by
  refine wp_attempt ⟨hfree, hscope⟩ (fun w _ t hrely _ => ?_)
  have hoccurs := rely_occurs i w.before s
  have hnone : s.child i = none := by
    cases hc : s.child i with
    | none => rfl
    | some c => exact absurd hfree (hinv.spawned i c hc)
  change Rely i ((w.before.foldl System.occur s).perform i w (.reserve scope)).2 t at hrely
  show Post _ _ ((w.before.foldl System.occur s).perform i w (.reserve scope)).1 t
  rcases perform_reserve (w.before.foldl System.occur s) i w scope with
    ⟨e, hanswer⟩ | ⟨id, registry, hanswer, -⟩
  · rw [hanswer] at hrely ⊢
    exact hrely.slot.trans (hoccurs.slot.trans hfree)
  · rw [hanswer] at hrely ⊢
    exact ⟨⟨scope, hrely.slot.trans (Function.update_self i _ _)⟩,
      hrely.absent (hoccurs.absent hnone)⟩

/-- Queries and cancellations do nothing to slots. -/
theorem wp_idle {p : ProcessM α} (hp : Only Op.Plain p) (hfree : s.slot i = .none) :
    Wp (Calls scopes) i p (fun _ t => t.slot i = .none) (fun _ t => t.slot i = .none) s := by
  refine wp_only (J := fun t : System ι => t.slot i = .none) (fun o ho t ht => ⟨?_, ?_⟩) hp hfree
  · cases o with
    | reserve scope => exact absurd ho (fun hplain => hplain)
    | release id => exact absurd ho (fun hplain => hplain)
    | spawn => exact absurd ho (fun hplain => hplain)
    | _ => exact fun scope alive hreleased => by cases ht.symm.trans hreleased
  · intro w _ r hrely _
    have hslot : (exec i w o t).2.slot i = t.slot i :=
      (congrFun (perform_plain ho _ i w).slot i).trans (rely_occurs i w.before t).slot
    exact hrely.slot.trans (hslot.trans ht)

theorem supervises_releaseDead (h : Supervises i id Dead s) (hinv : Inv scopes s) :
    Wp (Calls scopes) i (perform (.release id)) (fun _ => Released i (· = 0))
      (fun _ _ => False) s := by
  refine Wp.mono hinv (supervises_release h stable_dead (fun c hdead => (alive_eq_zero.mp hdead).1))
    (fun _ t _ hreleased => ?_) (fun _ _ _ hfalse => hfalse)
  obtain ⟨scope, alive, hslot, c, hdead, rfl⟩ := hreleased
  exact ⟨scope, c.alive, hslot, hdead⟩

theorem supervises_orAbandon (h : Supervises i id (fun _ => True) s) (ok : Bool) (code : String)
    (hinv : Inv scopes s) :
    Wp (Calls scopes) i (orAbandon ok id code) (fun _ => Supervises i id (fun _ => True))
      (fun _ => Failed i) s := by
  cases ok with
  | true => exact wp_pure h
  | false =>
    refine wp_seq_total hinv (supervises_terminate h stable_any hinv) (fun _ t ht hdead => ?_)
    exact wp_seq_total ht (supervises_releaseDead hdead ht)
      (fun _ _ _ hreleased => wp_throw (.inr hreleased))

theorem supervises_setNonblocking (h : Supervises i id (fun _ => True) s) (hinv : Inv scopes s) :
    Wp (Calls scopes) i setNonblocking (fun _ => Supervises i id (fun _ => True))
      (fun _ _ => False) s := by
  rw [setNonblocking]
  refine wp_seq_total hinv (supervises_sure h stable_any trivial) (fun stdout t _ h => ?_)
  cases stdout with
  | true => exact supervises_sure h stable_any trivial
  | false => exact wp_pure h

theorem wp_spawnSupervisedCommand (rounds : Nat) {scope : ActiveProcessScope}
    (limits : LocalExecutionLimits) (hfree : s.slot i = .none) (hscope : scopes i = some scope)
    (hinv : Inv scopes s) :
    Wp (Calls scopes) i (spawnSupervisedCommand rounds scope limits) (Left i)
      (fun _ => Failed i) s := by
  rw [spawnSupervisedCommand]
  have helse : ∀ (e : VibeCoderError) (t : System ι), Inv scopes t → Failed i t → Failed i t :=
    fun _ _ _ hfailed => hfailed
  refine wp_seq hinv (wp_reserve hfree hscope hinv) (fun id t ht h => ?_)
    (fun _ _ _ hnone => .inl hnone)
  refine wp_seq_total ht (reserved_spawn h) (fun spawned t ht h => ?_)
  have hspawned : Wp (Calls scopes) i (orRelease spawned id)
      (fun _ => Supervises i id (fun _ => True)) (fun _ => Failed i) t := by
    cases spawned with
    | true => exact wp_pure h
    | false =>
      exact wp_seq_total ht (reserved_release h) (fun _ _ _ hreleased => wp_throw (.inr hreleased))
  refine wp_seq ht hspawned (fun _ t ht h => ?_) helse
  refine wp_seq_total ht (supervises_sure h stable_any trivial) (fun started t ht h => ?_)
  refine wp_seq_total ht (supervises_sure h stable_any trivial) (fun ok t ht h => ?_)
  refine wp_seq ht (supervises_orAbandon h ok _ ht) (fun _ t ht h => ?_) helse
  refine wp_seq_total ht (supervises_sure h stable_any trivial) (fun ok t ht h => ?_)
  refine wp_seq ht (supervises_orAbandon h ok _ ht) (fun _ t ht h => ?_) helse
  refine wp_seq_total ht (supervises_setNonblocking h ht) (fun ok t ht h => ?_)
  refine wp_seq ht (supervises_orAbandon h ok _ ht) (fun _ t ht h => ?_) helse
  refine wp_seq_total ht (supervises_sure h stable_any trivial) (fun _ t ht h => ?_)
  refine wp_seq_total ht (supervises_sure h stable_any trivial) (fun ok t ht h => ?_)
  refine wp_seq ht (supervises_orAbandon h ok _ ht) (fun _ t ht h => ?_) helse
  -- the supervisor, and after it the release
  have hsettled : Wp (Calls scopes) i (settle (superviseProcess rounds limits id started))
      (fun r t => (∃ e, r = .error e ∧ Supervises i id Dead t) ∨
        (r = .ok none ∧ Supervises i id (fun _ => True) t) ∨
        ∃ result, r = .ok (some result) ∧ Supervises i id (LeftBy result) t)
      (fun _ _ => False) t := by
    refine wp_settle (Wp.mono ht (supervises_superviseProcess rounds limits started h ht)
      (fun ended t _ h => ?_) (fun e t _ hdead => .inl ⟨e, rfl, hdead⟩))
    cases ended with
    | none => exact .inr (.inl ⟨rfl, h.1⟩)
    | some result => exact .inr (.inr ⟨result, rfl, h.2 result rfl⟩)
  refine wp_seq_total ht hsettled (fun r t ht h => ?_)
  rcases h with ⟨e, rfl, h⟩ | ⟨rfl, h⟩ | ⟨result, rfl, h⟩
  · exact wp_seq_total ht (supervises_releaseDead h ht)
      (fun _ _ _ hreleased => wp_throw (.inr hreleased))
  · obtain ⟨⟨scope, hheld⟩, -⟩ := h
    exact wp_pure ⟨id, scope, hheld⟩
  · refine wp_seq_total ht (supervises_release h (stable_leftBy result) (fun c hc => hc.1))
      (fun _ t _ hreleased => wp_pure ?_)
    obtain ⟨scope, alive, hslot, c, hc, rfl⟩ := hreleased
    exact ⟨scope, c.alive, hslot, hc.2⟩

theorem wp_call (call : Call) (hcall : scopes i = call.scope) (hfree : s.slot i = .none)
    (hinv : Inv scopes s) :
    Wp (Calls scopes) i call.program (Call.Left i) (fun _ => Failed i) s := by
  cases call with
  | start rounds scope limits =>
    have hstarted : Wp (Calls scopes) i (start rounds scope limits) (Left i)
        (fun _ => Failed i) s := by
      refine wp_seq hinv (wp_idle (only_attempt trivial) hfree) (fun _ t ht hfree => ?_)
        (fun _ _ _ hnone => .inl hnone)
      exact wp_spawnSupervisedCommand rounds limits hfree hcall ht
    exact wp_seq hinv hstarted (fun _ _ _ h => wp_pure h) (fun _ _ _ hfailed => hfailed)
  | cancel id =>
    exact wp_seq hinv (wp_idle (only_attempt trivial) hfree) (fun _ _ _ h => wp_pure h)
      (fun _ _ _ hnone => .inl hnone)
  | activeForProject p =>
    exact wp_seq hinv (wp_idle (only_attempt trivial) hfree) (fun _ _ _ h => wp_pure h)
      (fun _ _ _ hnone => .inl hnone)
  | activeRuntimeService id =>
    exact wp_seq hinv (wp_idle (only_attempt trivial) hfree) (fun _ _ _ h => wp_pure h)
      (fun _ _ _ hnone => .inl hnone)
  | ensureNoActiveProjectProcess p =>
    refine wp_seq hinv (wp_idle (only_attempt trivial) hfree) (fun active t _ h => ?_)
      (fun _ _ _ hnone => .inl hnone)
    split
    · exact wp_throw (.inl h)
    · exact wp_pure h

/-! ## Runs -/

/-- The calls in progress on one system, and how often each has given a slot back. -/
structure History (ι : Type) where
  pool : Pool Op (fun o => Result o.Val) ι (System ι) (Result Answer)
  releases : ι → Nat

/-- Any calls, none of which has begun. -/
def History.start (calls : ι → Call) : History ι where
  pool := { threads := fun i => some (calls i).program.run, state := .new }
  releases := fun _ => 0

/-- A call performs its next operation, or something happens to a process or a handle. -/
inductive Happening (ι : Type) where
  | step (i : ι) (w : World ι)
  | occurs (x : ι × Occurrence)

def Op.releases : Op → Nat
  | .release _ => 1
  | _ => 0

/-- How many slots the next operation of a call gives back. -/
def releasing : Option (Proc Op (fun o => Result o.Val) (Result Answer)) → Nat
  | some (.call o _) => o.releases
  | some (.ret _) | none => 0

/-- The scope that each call is for. -/
def scopesOf (calls : ι → Call) (i : ι) : Option ActiveProcessScope := (calls i).scope

/-- No call is dropped. -/
def noDropping (scopes : ι → Option ActiveProcessScope) : Dropping (Calls scopes) where
  suspends := fun _ => false
  abandon := fun _ s => s
  inv_abandon := fun hsuspends => by cases hsuspends
  rely_abandon := fun _ hsuspends => by cases hsuspends

def step (calls : ι → Call) (h : History ι) : Happening ι → History ι
  | .step i w =>
    { pool := Pool.next (noDropping (scopesOf calls)) h.pool (.step i w)
      releases := Function.update h.releases i (h.releases i + releasing (h.pool.threads i)) }
  | .occurs x => { h with pool := { h.pool with state := h.pool.state.occur x } }

def Slot.releases : Slot → Nat
  | .released _ _ => 1
  | .none | .held _ _ => 0

/-- What holds all along a run. -/
structure Sound (calls : ι → Call) (h : History ι) : Prop where
  good : Good (Calls (scopesOf calls)) (fun i => Post (Call.Left i) (fun _ => Failed i)) h.pool
  present : ∀ i, h.pool.threads i ≠ none
  once : ∀ i, h.releases i = (h.pool.state.slot i).releases

/-- A call that is allowed its operation releases just when it says so. -/
theorem perform_releases {o : Op} (hallowed : Allowed scopes i o s) (w : World ι) :
    ((s.perform i w o).2.slot i).releases = (s.slot i).releases + o.releases := by
  by_cases ho : o.Plain
  · rw [(perform_plain ho s i w).slot]
    cases o with
    | release id => exact absurd ho (fun hplain => hplain)
    | _ => rfl
  · cases o with
    | reserve scope =>
      obtain ⟨hfree, -⟩ := hallowed
      rcases perform_reserve s i w scope with ⟨e, h⟩ | ⟨id, registry, h, -⟩
      · rw [h]
        rfl
      · rw [h, hfree]
        show (Function.update s.slot i _ i).releases = _
        rw [Function.update_self]
        rfl
    | release id =>
      obtain ⟨⟨scope, hheld⟩, -⟩ := hallowed
      show (Function.update s.slot i _ i).releases = _
      rw [Function.update_self, hheld]
      rfl
    | spawn =>
      rw [System.perform]
      split
      · rfl
      · rfl
    | _ => exact absurd trivial ho

theorem Sound.step {calls : ι → Call} {h : History ι} (hsound : Sound calls h)
    (e : Happening ι) : Sound calls (step calls h e) := by
  cases e with
  | occurs x =>
    have hrely := rely_occur (x := x) (s := h.pool.state)
    refine ⟨⟨hsound.good.inv.occur x, fun i p hp t ht hinv => ?_⟩, hsound.present, hsound.once⟩
    exact hsound.good.safe i p hp t ((hrely i).trans ht) hinv
  | step i w =>
    have hgood := hsound.good.next (D := noDropping (scopesOf calls)) (e := .step i w)
      (fun _ _ _ => trivial)
    cases hi : h.pool.threads i with
    | none => exact absurd hi (hsound.present i)
    | some p =>
      cases p with
      | ret r =>
        have hsame : Pool.next (noDropping (scopesOf calls)) h.pool (.step i w) = h.pool := by
          rw [Pool.next, hi]
        have hreleases : Function.update h.releases i
            (h.releases i + releasing (h.pool.threads i)) = h.releases := by
          rw [hi]
          exact Function.update_eq_self i h.releases
        have hstep : Process.step calls h (.step i w) = h := by
          rw [Process.step, hsame, hreleases]
        rw [hstep]
        exact hsound
      | call o k =>
        have hallowed := (hsound.good.allowed hi).rely (rely_occurs i w.before h.pool.state)
        have hstate : (Pool.next (noDropping (scopesOf calls)) h.pool (.step i w)).state =
            (exec i w o h.pool.state).2 := by
          rw [Pool.next, hi]
        refine ⟨hgood, fun j => ?_, fun j => ?_⟩
        · show (Pool.next (noDropping (scopesOf calls)) h.pool (.step i w)).threads j ≠ none
          rw [Pool.next, hi]
          show Function.update h.pool.threads i _ j ≠ none
          by_cases hj : j = i
          · rw [hj, Function.update_self]
            exact fun hnone => by cases hnone
          · rw [Function.update_of_ne hj]
            exact hsound.present j
        · show Function.update h.releases i _ j =
            ((Pool.next (noDropping (scopesOf calls)) h.pool (.step i w)).state.slot j).releases
          rw [hstate]
          by_cases hj : j = i
          · subst hj
            have hperformed : ((exec j w o h.pool.state).2.slot j).releases =
                ((w.before.foldl System.occur h.pool.state).slot j).releases + o.releases :=
              perform_releases hallowed w
            rw [Function.update_self, hi, hperformed, (rely_occurs j _ _).slot, hsound.once]
            rfl
          · have hslot : (exec i w o h.pool.state).2.slot j = h.pool.state.slot j :=
              ((rely_occurs j w.before h.pool.state).trans (rely_perform hj o _ w)).slot
            rw [Function.update_of_ne hj, hslot]
            exact hsound.once j

/-! ## The law -/

/-- The process that the leader's own exit ended: what else was in its group may go on. -/
def EndedByItself (h : History ι) (i : ι) : Prop :=
  ∃ result, h.pool.threads i = some (.ret (.ok (.ended (some result)))) ∧
    (result.termination = .exited ∨ result.termination = .signaled)

/-- What the registry promises. -/
structure RegistryLaw (calls : ι → Call) (h : History ι) : Prop where
  /-- However many calls hold a slot, they are at most four, and two of a project or one of a
      service. -/
  total : ∀ is : List ι, is.Nodup → (∀ i ∈ is, ∃ id scope, h.pool.state.slot i = .held id scope) →
    is.length ≤ maxActiveProcesses
  limited : ∀ scope, ∀ is : List ι, is.Nodup →
    (∀ i ∈ is, ∃ id, h.pool.state.slot i = .held id scope) → is.length ≤ scope.limit
  /-- A process whose leader runs has its slot. -/
  running : ∀ i c, h.pool.state.child i = some c → c.leader = .running →
    ∃ id scope, h.pool.state.slot i = .held id scope
  /-- A call gives back the slot it holds, once, and has given it back when it has returned. -/
  holds : ∀ i id k, h.pool.threads i = some (.call (.release id) k) →
    ∃ scope, h.pool.state.slot i = .held id scope
  once : ∀ i, h.releases i = (h.pool.state.slot i).releases
  returned : ∀ i r, h.pool.threads i = some (.ret r) → r ≠ .ok (.ended none) →
    ∀ id scope, h.pool.state.slot i ≠ .held id scope
  /-- It is given back when the leader is gone, and nobody is alive unless that exited by itself. -/
  released : ∀ i scope alive, h.pool.state.slot i = .released scope alive →
    (∀ c, h.pool.state.child i = some c → c.leader ≠ .running) ∧ (alive = 0 ∨ EndedByItself h i)
  /-- Without a slot of a project, what can still write to it is left by such a leader. -/
  quiet : ∀ p, countScope h.pool.state.registry.active (.project p) = 0 →
    ∀ i rounds limits c, calls i = .start rounds (.project p) limits →
      h.pool.state.child i = some c → c.leader ≠ .running ∧ (c.alive = 0 ∨ EndedByItself h i)

theorem Sound.law {calls : ι → Call} {h : History ι} (hsound : Sound calls h) :
    RegistryLaw calls h := by
  have hinv : Inv (scopesOf calls) h.pool.state := hsound.good.inv
  -- a call that gave its slot back has returned
  have hended : ∀ i scope alive, h.pool.state.slot i = .released scope alive →
      alive = 0 ∨ EndedByItself h i := by
    intro i scope alive hreleased
    cases hi : h.pool.threads i with
    | none => exact absurd hi (hsound.present i)
    | some p =>
      cases p with
      | call o k =>
        have hallowed : Allowed (scopesOf calls) i o h.pool.state := hsound.good.allowed hi
        exact absurd hreleased (hallowed.not_released scope alive)
      | ret r =>
        refine (left_released (hsound.good.post hi) hreleased).imp_right (fun hnatural => ?_)
        obtain ⟨result, rfl, hnatural⟩ := hnatural
        exact ⟨result, hi, hnatural⟩
  have hgone : ∀ i scope alive c, h.pool.state.slot i = .released scope alive →
      h.pool.state.child i = some c → c.leader ≠ .running :=
    fun i scope alive c hreleased hc => (hinv.settled i scope alive c hreleased hc).1
  refine ⟨fun is hnodup hheld => ?_, fun scope is hnodup hheld => ?_, fun i c hc hrunning => ?_,
    fun i id k hi => ?_, hsound.once, fun i r hi hover id scope hheld => ?_,
    fun i scope alive hreleased => ⟨fun c hc => hgone i scope alive c hreleased hc,
      hended i scope alive hreleased⟩, fun p hnone i rounds limits c hcall hc => ?_⟩
  · have hlength := hinv.length_le (K := fun _ => true) hnodup (fun i hi => by
      obtain ⟨id, scope, hslot⟩ := hheld i hi
      exact ⟨id, scope, hslot, rfl⟩)
    rw [List.countP_true] at hlength
    exact Nat.le_trans hlength h.pool.state.registry.bounded
  · have hlength := hinv.length_le (K := fun a => a.2.scope == scope) hnodup (fun i hi => by
      obtain ⟨id, hslot⟩ := hheld i hi
      exact ⟨id, scope, hslot, beq_self_eq_true scope⟩)
    exact Nat.le_trans hlength (h.pool.state.registry.limited scope)
  · cases hslot : h.pool.state.slot i with
    | none => exact absurd hslot (hinv.spawned i c hc)
    | held id scope => exact ⟨id, scope, rfl⟩
    | released scope alive => exact absurd hrunning (hgone i scope alive c hslot hc)
  · have hallowed : Allowed (scopesOf calls) i (.release id) h.pool.state := hsound.good.allowed hi
    exact hallowed.1
  · exact hover (left_held (hsound.good.post hi) hheld)
  · cases hslot : h.pool.state.slot i with
    | none => exact absurd hslot (hinv.spawned i c hc)
    | held id scope =>
      -- a slot of this project would be counted
      have hscope : (calls i).scope = some scope := hinv.scope i scope (congrArg Slot.scope hslot)
      rw [hcall] at hscope
      cases hscope
      have hmem : (id, ({ scope := .project p, cancelRequested := i } : ActiveProcess ι)) ∈
          h.pool.state.registry.active := (hinv.owned id _).mpr hslot
      exact absurd (beq_self_eq_true _) (List.countP_eq_zero.mp hnone _ hmem)
    | released scope alive =>
      obtain ⟨hdown, hdead⟩ := hinv.settled i scope alive c hslot hc
      exact ⟨hdown, (hended i scope alive hslot).imp_left hdead⟩

end

end VibeCoder.Process
