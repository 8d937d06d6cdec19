/-
  How a process is ended (`supervise_process`): what the loop's checks amount to, whatever the clock,
  the cancellation flag and the child do.

  The supervisor runs against arbitrary answers, and the trace of what it asked and was told is its
  history.  Ruled out are the two errors that end a supervision at once: a read that fails, and a
  wait that fails (`Untroubled`).

  1. **The protocol** (`Phase`, `observe`) — an observer that sees one entry after the other and
     says what may come next: the group is told to end once, with a reason that stands; it is killed
     once, after that and the grace period; in between nobody waits for the leader.

  2. **The supervisor follows it** (`wp_superviseLoop`) — each part of a round moves the observer to
     where the variables of the loop say it is (`Matches`).

  3. **What it means for a trace** (`Orderly`, `Reported`) — the same in terms of the entries
     themselves, read off the observer by induction from the end.

  The leader alone is killed just where the system refused a signal to its group (a leader may leave
  the group it was made the leader of), and then without any grace (`refusedSignal_kills`).
-/
import Mathlib.Data.List.Induction
import VibeCoder.Lib.Trace
import VibeCoder.Process.Local

namespace VibeCoder.Process.Termination

open Resume

/-- What one supervisor performed, and what it was answered. -/
abbrev History := Trace Op (fun o => Result o.Val)

/-- One operation and its answer. -/
abbrev Entry := (o : Op) × Result o.Val

/-- Answers without a failed read or wait; the other operations cannot fail. -/
structure Untroubled (w : (o : Op) → Result o.Val) : Prop where
  answered : ∀ o, ∃ v, w o = .ok v
  read : ∀ stream, w (.read stream) ≠ .ok .failed

/-- One supervisor against such answers. -/
abbrev Calm : Setting Op (fun o => Result o.Val) Unit ((o : Op) → Result o.Val) History :=
  RecordedUnder Untroubled

/-! ## The protocol -/

/-- What the observer knows: the last time and flag that were read, the first termination that was
    requested and when, whether the group was killed, the status the leader was reaped with, and
    whether the last entry is a signal that the system refused. -/
structure Phase where
  clock : Option Nat
  flag : Option Bool
  requested : Option (ProcessTermination × Nat)
  escalated : Bool
  exited : Option ExitStatus
  refused : Bool

def Phase.start : Phase where
  clock := none
  flag := none
  requested := none
  escalated := false
  exited := none
  refused := false

/-- Why a termination is requested at a time: the flag, or else the deadline. -/
def reason (deadline : Option Nat) (flag : Bool) (now : Nat) : Option ProcessTermination :=
  if flag then some .cancelled
  else if deadline.any (fun deadline => deadline ≤ now) then some .timedOut
  else none

/-- One entry: the next phase, or nothing if the entry breaks the protocol. -/
def observe (deadline : Option Nat) (p : Phase) : Entry → Option Phase
  | ⟨.now, .ok t⟩ => some { p with clock := some t, refused := false }
  | ⟨.loadCancel, .ok b⟩ => some { p with flag := some b, refused := false }
  | ⟨.tryWait, .ok status⟩ =>
    -- not after the leader was reaped, and not between the two signals
    if p.exited = none ∧ (p.requested = none ∨ p.escalated = true) then
      some { p with exited := status, refused := false }
    else none
  | ⟨.signalGroup .term, .ok sent⟩ =>
    match p.clock, p.flag with
    | some now, some flag =>
      match reason deadline flag now with
      | some kind =>
        if p.exited = none ∧ p.requested = none then
          some { p with requested := some (kind, now), refused := !sent }
        else none
      | none => none
    | _, _ => none
  | ⟨.signalGroup .kill, .ok sent⟩ =>
    match p.clock, p.requested with
    | some now, some (_, requestedAt) =>
      if p.escalated = false ∧ now - requestedAt ≥ processTerminationGraceMs then
        some { p with escalated := true, refused := !sent }
      else none
    | _, _ => none
  | ⟨.killChild, .ok ()⟩ => if p.refused then some { p with refused := false } else none
  | ⟨.read _, .ok _⟩ | ⟨.trySend _, .ok _⟩ | ⟨.sleep, .ok _⟩ => some { p with refused := false }
  | _ => none

/-- The phase after a history that keeps to the protocol. -/
def follow (deadline : Option Nat) (history : History) : Option Phase :=
  history.foldlM (observe deadline) .start

theorem follow_append (deadline : Option Nat) (history more : History) :
    follow deadline (history ++ more) =
      (follow deadline history).bind (fun p => more.foldlM (observe deadline) p) := by
  rw [follow, List.foldlM_append]
  rfl

theorem follow_snoc {deadline : Option Nat} {history : History} {p : Phase}
    (h : follow deadline history = some p) (entry : Entry) :
    follow deadline (history ++ [entry]) = observe deadline p entry := by
  rw [follow_append, h]
  simp

/-- A history cut at an entry: the phase before it, and the one it leads to. -/
theorem follow_cut {deadline : Option Nat} {before after : History} {entry : Entry} {p : Phase}
    (h : follow deadline (before ++ entry :: after) = some p) :
    ∃ q r, follow deadline before = some q ∧ observe deadline q entry = some r ∧
      after.foldlM (observe deadline) r = some p := by
  rw [follow_append, Option.bind_eq_some_iff] at h
  obtain ⟨q, hq, h⟩ := h
  rw [List.foldlM_cons] at h
  obtain ⟨r, hr, h⟩ := Option.bind_eq_some_iff.mp h
  exact ⟨q, r, hq, hr, h⟩

/-- When the group may be told to end. -/
theorem observe_term {deadline : Option Nat} {p : Phase} {now : Nat} {flag : Bool}
    {kind : ProcessTermination} (hclock : p.clock = some now) (hflag : p.flag = some flag)
    (hreason : reason deadline flag now = some kind) (hexited : p.exited = none)
    (hrequested : p.requested = none) (sent : Bool) :
    observe deadline p ⟨.signalGroup .term, .ok sent⟩ =
      some { p with requested := some (kind, now), refused := !sent } := by
  unfold observe
  simp [hclock, hflag, hreason, hexited, hrequested]

/-- When the group may be killed. -/
theorem observe_kill {deadline : Option Nat} {p : Phase} {now requestedAt : Nat}
    {kind : ProcessTermination} (hclock : p.clock = some now)
    (hrequested : p.requested = some (kind, requestedAt)) (hescalated : p.escalated = false)
    (hgrace : now - requestedAt ≥ processTerminationGraceMs) (sent : Bool) :
    observe deadline p ⟨.signalGroup .kill, .ok sent⟩ =
      some { p with escalated := true, refused := !sent } := by
  unfold observe
  simp [hclock, hrequested, hescalated, hgrace]

theorem observe_term_some {deadline : Option Nat} {p q : Phase} {answer : Result Bool}
    (h : observe deadline p ⟨.signalGroup .term, answer⟩ = some q) :
    ∃ now flag kind sent, answer = .ok sent ∧ p.clock = some now ∧ p.flag = some flag ∧
      reason deadline flag now = some kind ∧ p.exited = none ∧ p.requested = none ∧
      q = { p with requested := some (kind, now), refused := !sent } := by
  cases answer with
  | error e => cases h
  | ok sent =>
    unfold observe at h
    dsimp only at h
    split at h
    · rename_i now flag hclock hflag
      split at h
      · rename_i kind hreason
        split at h
        · rename_i hallowed
          cases h
          exact ⟨now, flag, kind, sent, rfl, hclock, hflag, hreason, hallowed.1, hallowed.2, rfl⟩
        · cases h
      · cases h
    · cases h

theorem observe_kill_some {deadline : Option Nat} {p q : Phase} {answer : Result Bool}
    (h : observe deadline p ⟨.signalGroup .kill, answer⟩ = some q) :
    ∃ now kind requestedAt sent, answer = .ok sent ∧ p.clock = some now ∧
      p.requested = some (kind, requestedAt) ∧ p.escalated = false ∧
      now - requestedAt ≥ processTerminationGraceMs ∧
      q = { p with escalated := true, refused := !sent } := by
  cases answer with
  | error e => cases h
  | ok sent =>
    unfold observe at h
    dsimp only at h
    split at h
    · rename_i now kind requestedAt hclock hrequested
      split at h
      · rename_i hallowed
        cases h
        exact ⟨now, kind, requestedAt, sent, rfl, hclock, hrequested, hallowed.1, hallowed.2, rfl⟩
      · cases h
    · cases h

theorem observe_tryWait_some {deadline : Option Nat} {p q : Phase}
    {answer : Result (Option ExitStatus)} (h : observe deadline p ⟨.tryWait, answer⟩ = some q) :
    ∃ status, answer = .ok status ∧ p.exited = none ∧ (p.requested = none ∨ p.escalated = true) ∧
      q = { p with exited := status, refused := false } := by
  cases answer with
  | error e => cases h
  | ok status =>
    unfold observe at h
    dsimp only at h
    split at h
    · rename_i hallowed
      cases h
      exact ⟨status, rfl, hallowed.1, hallowed.2, rfl⟩
    · cases h

/-! ## The supervisor follows it -/

variable {deadline : Option Nat} {limits : LocalExecutionLimits} {history : History}

/-- The variables of the loop, as the observer sees them. -/
def phaseOf (s : Supervision) (clock : Option Nat) (flag : Option Bool) : Phase where
  clock := clock
  flag := flag
  requested := s.requestedTermination
  escalated := s.killEscalated
  exited := s.exitStatus
  refused := false

/-- Nothing fails. -/
abbrev Never : VibeCoderError → History → Prop := fun _ _ => False

/-- The operations that the protocol takes no notice of. -/
def Neutral : Op → Prop
  | .read _ | .trySend _ | .sleep => True
  | _ => False

theorem observe_neutral {o : Op} (ho : Neutral o) {p : Phase} (hp : p.refused = false) (v : o.Val) :
    observe deadline p ⟨o, .ok v⟩ = some p := by
  have hsame : ({ p with refused := false } : Phase) = p := by
    cases p
    cases hp
    rfl
  cases o with
  | read stream => exact congrArg some hsame
  | trySend event => exact congrArg some hsame
  | sleep => exact congrArg some hsame
  | _ => exact ho.elim

/-- One operation that is answered. -/
theorem wp_op {o : Op} {Q : o.Val → History → Prop} {E : VibeCoderError → History → Prop}
    (h : ∀ w, Untroubled w → ∀ v, w o = .ok v → Q v (history ++ [⟨o, .ok v⟩])) :
    Wp Calm () (perform o) Q E history := by
  refine wp_recordUnder (fun w hw => ?_)
  obtain ⟨v, hv⟩ := hw.answered o
  rw [hv]
  exact h w hw v hv

/-- One operation, seen by the observer. -/
theorem wp_observe {p : Phase} {o : Op} (h : follow deadline history = some p)
    {Q : o.Val → History → Prop} {E : VibeCoderError → History → Prop}
    (hQ : ∀ v later, follow deadline later = observe deadline p ⟨o, .ok v⟩ → Q v later) :
    Wp Calm () (perform o) Q E history := by
  refine wp_op (fun w _ v _ => hQ v _ ?_)
  exact follow_snoc h ⟨o, .ok v⟩

theorem wp_neutral {p : Phase} (hp : p.refused = false) {o : Op} (ho : Neutral o)
    (h : follow deadline history = some p) {E : VibeCoderError → History → Prop} :
    Wp Calm () (perform o) (fun _ later => follow deadline later = some p) E history := by
  refine wp_observe h (fun v later hlater => ?_)
  rw [hlater, observe_neutral ho hp]

theorem wp_emitEvent {p : Phase} (hp : p.refused = false) (event : ProcessEvent)
    (overflowed : Bool) (h : follow deadline history = some p) :
    Wp Calm () (emitEvent event overflowed) (fun _ later => follow deadline later = some p) Never
      history := by
  refine wp_seq_total trivial (wp_neutral hp (o := .trySend event) trivial h) (fun answer t _ ht => ?_)
  cases answer with
  | sent => exact wp_pure ht
  | full => exact wp_pure ht
  | disconnected => exact wp_pure ht

/-- The reads of a poll, none of which fails. -/
theorem wp_drainChunks {p : Phase} (hp : p.refused = false) (stream : OutputStream) (limit n : Nat)
    (pipe : Pipe) (overflowed : Bool) (h : follow deadline history = some p) :
    Wp Calm () (drainChunks stream limit n pipe overflowed)
      (fun _ later => follow deadline later = some p) Never history := by
  induction n generalizing pipe overflowed history with
  | zero => exact wp_pure h
  | succ n ih =>
    refine wp_bind (wp_op (fun w hw v hv => ?_))
    have hlater : follow deadline (history ++ [⟨.read stream, .ok v⟩]) = some p := by
      rw [follow_snoc h, observe_neutral (o := .read stream) trivial hp]
    cases v with
    | closed => exact wp_pure hlater
    | bytes chunk =>
      refine wp_seq_total trivial (wp_emitEvent hp _ _ hlater) (fun overflowed t _ ht => ?_)
      exact ih _ _ ht
    | wouldBlock => exact wp_pure hlater
    | interrupted => exact ih _ _ hlater
    | failed => exact absurd hv (hw.read stream)

theorem wp_drainPipe {p : Phase} (hp : p.refused = false) (stream : OutputStream) (limit : Nat)
    (pipe : Pipe) (overflowed : Bool) (h : follow deadline history = some p) :
    Wp Calm () (drainPipe stream limit pipe overflowed)
      (fun _ later => follow deadline later = some p) Never history := by
  unfold drainPipe
  split
  · exact wp_pure h
  · exact wp_drainChunks hp _ _ _ _ _ h

/-- A part that cannot fail terminates nothing. -/
theorem wp_orTerminate {α : Type} {part : ProcessM α} {Q : α → History → Prop}
    (h : Wp Calm () part Q Never history) : Wp Calm () (orTerminate part) Q Never history := by
  refine wp_bind (wp_settle (Wp.mono trivial h (fun a t _ ha => ?_) (fun _ _ _ hfalse => ?_)))
  · exact wp_pure ha
  · exact hfalse.elim

/-- A round of reads changes nothing the protocol is about. -/
theorem wp_drainPipes {clock : Option Nat} {flag : Option Bool} (s : Supervision)
    (h : follow deadline history = some (phaseOf s clock flag)) :
    Wp Calm () (drainPipes limits s)
      (fun s' later => s'.exitStatus = s.exitStatus ∧ s'.requestedTermination = s.requestedTermination
        ∧ follow deadline later = some (phaseOf s' clock flag)) Never history := by
  refine wp_seq_total trivial (wp_orTerminate (wp_drainPipe rfl _ _ _ _ h)) (fun out t _ ht => ?_)
  refine wp_seq_total trivial (wp_orTerminate (wp_drainPipe rfl _ _ _ _ ht)) (fun err u _ hu => ?_)
  exact wp_pure ⟨rfl, rfl, hu⟩

/-- A natural exit is looked for only while the leader may be reaped. -/
theorem wp_observeExit {now : Nat} {flag : Option Bool} (s : Supervision)
    (h : follow deadline history = some (phaseOf s (some now) flag)) :
    Wp Calm () (observeExit s now)
      (fun s' later => follow deadline later = some (phaseOf s' (some now) flag)) Never history := by
  unfold observeExit
  split
  · rename_i hlook
    rw [Bool.and_eq_true, Bool.or_eq_true, Option.isNone_iff_eq_none, Option.isNone_iff_eq_none]
      at hlook
    refine wp_bind (wp_settle (wp_observe h (fun status later hlater => ?_)))
    have hallowed : (phaseOf s (some now) flag).exited = none ∧
        ((phaseOf s (some now) flag).requested = none ∨
          (phaseOf s (some now) flag).escalated = true) := hlook
    unfold observe at hlater
    dsimp only at hlater
    rw [if_pos hallowed] at hlater
    cases status with
    | none =>
      have hsame : phaseOf s (some now) flag =
          { phaseOf s (some now) flag with exited := none, refused := false } := by
        rw [← hallowed.1]
        rfl
      refine wp_pure ?_
      rw [hlater, ← hsame]
    | some status => exact wp_pure hlater
  · exact wp_pure h

/-- A group signal, and the leader alone where it was refused. -/
theorem wp_signalOrKill {p q : Phase} {signal : Signal} (hq : q.refused = false)
    (h : follow deadline history = some p)
    (hsent : ∀ sent, observe deadline p ⟨.signalGroup signal, .ok sent⟩ =
      some { q with refused := !sent }) :
    Wp Calm () (signalOrKill signal) (fun _ later => follow deadline later = some q) Never
      history := by
  have hsame : ({ q with refused := false } : Phase) = q := by
    cases q
    cases hq
    rfl
  refine wp_bind (wp_observe h (fun sent later hlater => ?_))
  rw [hsent sent] at hlater
  cases sent with
  | true =>
    refine wp_pure ?_
    rw [hlater]
    exact congrArg some hsame
  | false =>
    refine wp_observe hlater (fun v last hlast => ?_)
    rw [hlast]
    exact congrArg some hsame

/-- A termination is requested once, while no exit has been seen, for a reason there is. -/
theorem wp_requestTermination {now : Nat} {flag : Option Bool} (s : Supervision)
    (h : follow deadline history = some (phaseOf s (some now) flag)) :
    Wp Calm () (requestTermination deadline s now)
      (fun s' later => ∃ flag, follow deadline later = some (phaseOf s' (some now) flag)) Never
      history := by
  unfold requestTermination
  split
  · rename_i hfree
    rw [Bool.and_eq_true, Option.isNone_iff_eq_none, Option.isNone_iff_eq_none] at hfree
    refine wp_bind (wp_observe h (fun cancelled later hlater => ?_))
    have hread : follow deadline later = some (phaseOf s (some now) (some cancelled)) := hlater
    have hfold : (if cancelled = true then some ProcessTermination.cancelled
        else if deadline.any (fun deadline => decide (deadline ≤ now)) = true then some .timedOut
        else none) = reason deadline cancelled now := rfl
    dsimp only
    rw [hfold]
    cases hreason : reason deadline cancelled now with
    | none => exact wp_pure ⟨_, hread⟩
    | some kind =>
      have hsignal : ∀ sent, observe deadline (phaseOf s (some now) (some cancelled))
          ⟨.signalGroup .term, .ok sent⟩ =
          some { phaseOf { s with requestedTermination := some (kind, now) } (some now)
            (some cancelled) with refused := !sent } := by
        intro sent
        exact observe_term rfl rfl hreason hfree.1 hfree.2 sent
      refine wp_seq_total trivial (wp_signalOrKill rfl hread hsignal) (fun _ t _ ht => ?_)
      exact wp_pure ⟨_, ht⟩
  · exact wp_pure ⟨_, h⟩

/-- The group is killed once, after the grace period. -/
theorem wp_escalateKill {now : Nat} {flag : Option Bool} (s : Supervision)
    (h : follow deadline history = some (phaseOf s (some now) flag)) :
    Wp Calm () (escalateKill s now)
      (fun s' later => follow deadline later = some (phaseOf s' (some now) flag)) Never history := by
  unfold escalateKill
  cases hrequested : s.requestedTermination with
  | none => exact wp_pure h
  | some requested =>
    obtain ⟨kind, requestedAt⟩ := requested
    simp only
    split
    · rename_i hdue
      rw [Bool.and_eq_true, Bool.not_eq_true', decide_eq_true_eq] at hdue
      have hsignal : ∀ sent, observe deadline (phaseOf s (some now) flag)
          ⟨.signalGroup .kill, .ok sent⟩ =
          some { phaseOf { s with killEscalated := true } (some now) flag with
            refused := !sent } := by
        intro sent
        exact observe_kill rfl hrequested hdue.1 hdue.2 sent
      refine wp_seq_total trivial (wp_signalOrKill rfl h hsignal) (fun _ t _ ht => ?_)
      rw [hrequested] at ht
      exact wp_pure ht
    · exact wp_pure h

/-- The loop is left with an exit status. -/
def Left (deadline : Option Nat) (ended : Option Supervision) (history : History) : Prop :=
  match ended with
  | none => ∃ p, follow deadline history = some p
  | some s => s.exitStatus.isSome = true ∧
      ∃ clock flag, follow deadline history = some (phaseOf s clock flag)

/-- **The loop keeps to the protocol**, by induction on its rounds. -/
theorem wp_superviseLoop (rounds : Nat) (s : Supervision) {clock : Option Nat} {flag : Option Bool}
    (h : follow deadline history = some (phaseOf s clock flag)) :
    Wp Calm () (superviseLoop limits deadline rounds s) (Left deadline) Never history := by
  induction rounds generalizing s clock flag history with
  | zero => exact wp_pure ⟨_, h⟩
  | succ rounds ih =>
    refine wp_seq_total trivial (wp_drainPipes s h) (fun s₁ t₁ _ h₁ => ?_)
    obtain ⟨-, -, h₁⟩ := h₁
    refine wp_bind (wp_observe h₁ (fun now t₂ h₂ => ?_))
    have hnow : follow deadline t₂ = some (phaseOf s₁ (some now) flag) := h₂
    refine wp_seq_total trivial (wp_observeExit s₁ hnow) (fun s₃ t₃ _ h₃ => ?_)
    refine wp_seq_total trivial (wp_requestTermination s₃ h₃) (fun s₄ t₄ _ h₄ => ?_)
    obtain ⟨flag, h₄⟩ := h₄
    refine wp_seq_total trivial (wp_escalateKill s₄ h₄) (fun s₅ t₅ _ h₅ => ?_)
    split
    · rename_i hended
      unfold hasEnded at hended
      rw [Bool.and_eq_true] at hended
      exact wp_pure ⟨hended.1, _, _, h₅⟩
    · refine wp_seq_total trivial (wp_neutral rfl (o := .sleep) trivial h₅) (fun _ t₆ _ h₆ => ?_)
      exact ih s₅ h₆

/-- What a result says, in terms of the last phase. -/
def Concludes (deadline : Option Nat) (result : ProcessResult) (history : History) : Prop :=
  ∃ p status, follow deadline history = some p ∧ p.exited = some status ∧
    result.exitCode = status.code ∧
    result.termination = (match p.requested with
      | some (kind, _) => kind
      | none => classifyExit status)

theorem wp_noticeOverflow {p : Phase} (hp : p.refused = false) (overflowed : Bool)
    (h : follow deadline history = some p) :
    Wp Calm () (noticeOverflow overflowed) (fun _ later => follow deadline later = some p) Never
      history := by
  unfold noticeOverflow
  split
  · refine wp_seq_total trivial (wp_neutral hp (o := .trySend .eventQueueOverflow) trivial h)
      (fun _ t _ ht => ?_)
    exact wp_pure ht
  · exact wp_pure h

theorem wp_finishSupervision {processId : ProcessId} {started : Nat} (s : Supervision)
    {clock : Option Nat} {flag : Option Bool} (hexit : s.exitStatus.isSome = true)
    (h : follow deadline history = some (phaseOf s clock flag)) :
    Wp Calm () (finishSupervision limits processId started s) (Concludes deadline) Never
      history := by
  refine wp_seq_total trivial (wp_drainPipes s h) (fun s₁ t₁ _ h₁ => ?_)
  obtain ⟨hexited, hrequested, h₁⟩ := h₁
  obtain ⟨status, hstatus⟩ := Option.isSome_iff_exists.mp hexit
  rw [hstatus] at hexited
  rw [hexited]
  refine wp_seq_total trivial (wp_noticeOverflow rfl _ h₁) (fun _ t₂ _ h₂ => ?_)
  refine wp_seq_total trivial (wp_emitEvent rfl _ _ h₂) (fun _ t₃ _ h₃ => ?_)
  refine wp_bind (wp_observe h₃ (fun now t₄ h₄ => ?_))
  exact wp_pure ⟨_, status, h₄, hexited, rfl, rfl⟩

/-- Every run of a supervisor keeps to the protocol, and none fails. -/
theorem wp_superviseProcess (rounds : Nat) (processId : ProcessId) (started : Nat) :
    Wp Calm () (superviseProcess rounds limits processId started)
      (fun ended later => (∃ p, follow (limits.timeout.map (started + ·)) later = some p) ∧
        ∀ result, ended = some result →
          Concludes (limits.timeout.map (started + ·)) result later) Never [] := by
  have hnew : follow (limits.timeout.map (started + ·)) [] =
      some (phaseOf .new none none) := rfl
  refine wp_seq_total trivial (wp_superviseLoop rounds .new hnew) (fun ended t _ hleft => ?_)
  cases ended with
  | none =>
    obtain ⟨p, hp⟩ := hleft
    exact wp_pure ⟨⟨p, hp⟩, fun result hresult => by cases hresult⟩
  | some s =>
    obtain ⟨hexit, clock, flag, h⟩ := hleft
    refine wp_seq_total trivial (wp_finishSupervision s hexit h) (fun result t _ hconcludes => ?_)
    refine wp_pure ⟨?_, fun other hother => ?_⟩
    · obtain ⟨p, -, hp, -⟩ := hconcludes
      exact ⟨p, hp⟩
    · cases hother
      exact hconcludes

/-! ## What it means for a trace -/

/-- The times and the flags that were read, in order. -/
def readings (history : History) : List Nat :=
  history.filterMap (fun
    | ⟨.now, .ok t⟩ => some t
    | _ => none)

def flags (history : History) : List Bool :=
  history.filterMap (fun
    | ⟨.loadCancel, .ok b⟩ => some b
    | _ => none)

/-- A signal to the group. -/
def signals (signal : Signal) (history : History) : Nat :=
  history.countP (fun
    | ⟨.signalGroup s, _⟩ => decide (s = signal)
    | _ => false)

theorem readings_snoc (history : History) (entry : Entry) :
    readings (history ++ [entry]) = readings history ++ readings [entry] := by
  rw [readings, List.filterMap_append]
  rfl

theorem flags_snoc (history : History) (entry : Entry) :
    flags (history ++ [entry]) = flags history ++ flags [entry] := by
  rw [flags, List.filterMap_append]
  rfl

theorem signals_append (signal : Signal) (history more : History) :
    signals signal (history ++ more) = signals signal history + signals signal more :=
  List.countP_append

/-- The group was told to end, for a reason that was read off just before, while no exit had been
    seen. -/
structure Told (deadline : Option Nat) (kind : ProcessTermination) (requestedAt : Nat)
    (earlier : History) : Prop where
  flag : ∃ flag, (flags earlier).getLast? = some flag ∧
    reason deadline flag requestedAt = some kind
  clock : (readings earlier).getLast? = some requestedAt
  running : ∀ status, ⟨.tryWait, .ok (some status)⟩ ∉ earlier

/-- What the observer's phase says about the history. -/
structure Explains (deadline : Option Nat) (history : History) (p : Phase) : Prop where
  clock : p.clock = (readings history).getLast?
  flag : p.flag = (flags history).getLast?
  running : p.exited = none → ∀ status, ⟨.tryWait, .ok (some status)⟩ ∉ history
  exited : ∀ status, p.exited = some status → ⟨.tryWait, .ok (some status)⟩ ∈ history
  terms : signals .term history = if p.requested.isSome then 1 else 0
  kills : signals .kill history = if p.escalated then 1 else 0
  requested : ∀ kind requestedAt, p.requested = some (kind, requestedAt) →
    ∃ earlier answer later, history = earlier ++ ⟨.signalGroup .term, answer⟩ :: later ∧
      Told deadline kind requestedAt earlier ∧
      (p.escalated = false → ∀ entry ∈ later, entry.1 ≠ .tryWait)
  unsent : p.escalated = true → p.requested ≠ none
  refused : p.refused = true → ∃ earlier signal,
    history = earlier ++ [⟨.signalGroup signal, .ok false⟩]

theorem explains_start : Explains deadline [] .start where
  clock := rfl
  flag := rfl
  running := fun _ _ h => absurd h List.not_mem_nil
  exited := fun _ h => by cases h
  terms := rfl
  kills := rfl
  requested := fun _ _ h => by cases h
  unsent := fun h => by cases h
  refused := fun h => by cases h

/-- An entry that the signals and waits are not about. -/
theorem Explains.quiet {p q : Phase} {entry : Entry} (h : Explains deadline history p)
    (hsignals : ∀ signal, signals signal [entry] = 0) (hwait : entry.1 ≠ .tryWait)
    (hclock : q.clock = (readings (history ++ [entry])).getLast?)
    (hflag : q.flag = (flags (history ++ [entry])).getLast?)
    (hrequested : q.requested = p.requested) (hescalated : q.escalated = p.escalated)
    (hexited : q.exited = p.exited) (hrefused : q.refused = false) :
    Explains deadline (history ++ [entry]) q where
  clock := hclock
  flag := hflag
  running := by
    intro hnone status hmem
    rw [hexited] at hnone
    rcases List.mem_append.mp hmem with hold | hnew
    · exact h.running hnone status hold
    · rw [← List.mem_singleton.mp hnew] at hwait
      exact hwait rfl
  exited := by
    intro status hstatus
    rw [hexited] at hstatus
    exact List.mem_append_left _ (h.exited status hstatus)
  terms := by
    rw [signals_append, hsignals, Nat.add_zero, hrequested]
    exact h.terms
  kills := by
    rw [signals_append, hsignals, Nat.add_zero, hescalated]
    exact h.kills
  requested := by
    intro kind requestedAt hsome
    rw [hrequested] at hsome
    obtain ⟨earlier, answer, later, rfl, htold, hlater⟩ := h.requested kind requestedAt hsome
    refine ⟨earlier, answer, later ++ [entry], by simp, htold, fun hesc e he => ?_⟩
    rw [hescalated] at hesc
    rcases List.mem_append.mp he with hold | hnew
    · exact hlater hesc e hold
    · rw [List.mem_singleton.mp hnew]
      exact hwait
  unsent := by
    rw [hescalated, hrequested]
    exact h.unsent
  refused := by
    rw [hrefused]
    exact fun hfalse => by cases hfalse

theorem readings_quiet {entry : Entry} (hentry : readings [entry] = []) :
    readings (history ++ [entry]) = readings history := by
  rw [readings_snoc, hentry, List.append_nil]

theorem flags_quiet {entry : Entry} (hentry : flags [entry] = []) :
    flags (history ++ [entry]) = flags history := by
  rw [flags_snoc, hentry, List.append_nil]

/-- An entry that the observer takes no notice of. -/
theorem Explains.silent {p : Phase} {entry : Entry} (h : Explains deadline history p)
    (hsignals : ∀ signal, signals signal [entry] = 0) (hwait : entry.1 ≠ .tryWait)
    (hreadings : readings [entry] = []) (hflags : flags [entry] = []) :
    Explains deadline (history ++ [entry]) { p with refused := false } := by
  refine h.quiet hsignals hwait ?_ ?_ rfl rfl rfl rfl
  · rw [readings_quiet hreadings]
    exact h.clock
  · rw [flags_quiet hflags]
    exact h.flag

/-- The group is told to end. -/
theorem Explains.term {p q : Phase} {answer : Result Bool} (h : Explains deadline history p)
    (hq : observe deadline p ⟨.signalGroup .term, answer⟩ = some q) :
    Explains deadline (history ++ [⟨.signalGroup .term, answer⟩]) q := by
  obtain ⟨now, flag, kind, sent, rfl, hclock, hflag, hreason, hexited, hnone, rfl⟩ :=
    observe_term_some hq
  have htold : Told deadline kind now history := by
    refine ⟨⟨flag, ?_, hreason⟩, ?_, h.running hexited⟩
    · rw [← h.flag, hflag]
    · rw [← h.clock, hclock]
  have hunescalated : p.escalated = false := by
    rw [← Bool.not_eq_true]
    exact fun hesc => h.unsent hesc hnone
  refine ⟨?_, ?_, ?_, ?_, ?_, ?_, ?_, ?_, ?_⟩
  · rw [readings_quiet rfl]
    exact h.clock
  · rw [flags_quiet rfl]
    exact h.flag
  · intro hrun status hmem
    rcases List.mem_append.mp hmem with hold | hnew
    · exact h.running hrun status hold
    · cases List.mem_singleton.mp hnew
  · intro status hstatus
    exact List.mem_append_left _ (h.exited status hstatus)
  · rw [signals_append, h.terms, hnone]
    rfl
  · rw [signals_append, h.kills]
    rfl
  · intro kind' requestedAt hsome
    cases hsome
    exact ⟨history, .ok sent, [], rfl, htold, fun _ e he => absurd he List.not_mem_nil⟩
  · intro _ hfalse
    cases hfalse
  · intro hrefused
    cases sent with
    | true => cases hrefused
    | false => exact ⟨history, .term, rfl⟩

/-- The group is killed. -/
theorem Explains.kill {p q : Phase} {answer : Result Bool} (h : Explains deadline history p)
    (hq : observe deadline p ⟨.signalGroup .kill, answer⟩ = some q) :
    Explains deadline (history ++ [⟨.signalGroup .kill, answer⟩]) q := by
  obtain ⟨now, kind, requestedAt, sent, rfl, -, hrequested, hescalated, -, rfl⟩ :=
    observe_kill_some hq
  refine ⟨?_, ?_, ?_, ?_, ?_, ?_, ?_, ?_, ?_⟩
  · rw [readings_quiet rfl]
    exact h.clock
  · rw [flags_quiet rfl]
    exact h.flag
  · intro hrun status hmem
    rcases List.mem_append.mp hmem with hold | hnew
    · exact h.running hrun status hold
    · cases List.mem_singleton.mp hnew
  · intro status hstatus
    exact List.mem_append_left _ (h.exited status hstatus)
  · rw [signals_append, h.terms]
    rfl
  · rw [signals_append, h.kills, hescalated]
    rfl
  · intro kind' requestedAt' hsome
    obtain ⟨earlier, answer, later, rfl, htold, -⟩ := h.requested kind' requestedAt' hsome
    exact ⟨earlier, answer, later ++ [⟨.signalGroup .kill, .ok sent⟩], by simp, htold,
      fun hfalse => by cases hfalse⟩
  · intro _
    rw [hrequested]
    exact Option.some_ne_none _
  · intro hrefused
    cases sent with
    | true => cases hrefused
    | false => exact ⟨history, .kill, rfl⟩

/-- The leader is waited for. -/
theorem Explains.tryWait {p q : Phase} {answer : Result (Option ExitStatus)}
    (h : Explains deadline history p) (hq : observe deadline p ⟨.tryWait, answer⟩ = some q) :
    Explains deadline (history ++ [⟨.tryWait, answer⟩]) q := by
  obtain ⟨status, rfl, hexited, hallowed, rfl⟩ := observe_tryWait_some hq
  refine ⟨?_, ?_, ?_, ?_, ?_, ?_, ?_, h.unsent, fun hfalse => by cases hfalse⟩
  · rw [readings_quiet rfl]
    exact h.clock
  · rw [flags_quiet rfl]
    exact h.flag
  · intro hnone status' hmem
    rcases List.mem_append.mp hmem with hold | hnew
    · exact h.running hexited status' hold
    · cases List.mem_singleton.mp hnew
      cases hnone
  · intro status' hstatus
    cases hstatus
    exact List.mem_append_right _ (List.mem_singleton_self _)
  · rw [signals_append, h.terms]
    rfl
  · rw [signals_append, h.kills]
    rfl
  · intro kind requestedAt hsome
    obtain ⟨earlier, answer, later, rfl, htold, -⟩ := h.requested kind requestedAt hsome
    refine ⟨earlier, answer, later ++ [⟨.tryWait, .ok status⟩], by simp, htold, fun hesc => ?_⟩
    -- a termination was requested, so the leader is waited for only after the kill
    rcases hallowed with hnone | hescalated
    · rw [hnone] at hsome
      cases hsome
    · cases hescalated.symm.trans hesc

/-- **Step lemma**: one case for each kind of entry. -/
theorem Explains.step {p q : Phase} {entry : Entry} (h : Explains deadline history p)
    (hq : observe deadline p entry = some q) : Explains deadline (history ++ [entry]) q := by
  obtain ⟨o, answer⟩ := entry
  cases o with
  | signalGroup signal =>
    cases signal with
    | term => exact h.term hq
    | kill => exact h.kill hq
  | tryWait => exact h.tryWait hq
  | now =>
    cases answer with
    | error e => cases hq
    | ok t =>
      cases hq
      refine h.quiet (fun _ => rfl) (fun hne => by cases hne) ?_ ?_ rfl rfl rfl rfl
      · rw [readings_snoc]
        exact List.getLast?_concat.symm
      · rw [flags_quiet rfl]
        exact h.flag
  | loadCancel =>
    cases answer with
    | error e => cases hq
    | ok b =>
      cases hq
      refine h.quiet (fun _ => rfl) (fun hne => by cases hne) ?_ ?_ rfl rfl rfl rfl
      · rw [readings_quiet rfl]
        exact h.clock
      · rw [flags_snoc]
        exact List.getLast?_concat.symm
  | killChild =>
    cases answer with
    | error e => cases hq
    | ok u =>
      unfold observe at hq
      dsimp only at hq
      split at hq
      · cases hq
        exact h.silent (fun _ => rfl) (fun hne => by cases hne) rfl rfl
      · cases hq
  | read stream =>
    cases answer with
    | error e => cases hq
    | ok v =>
      cases hq
      exact h.silent (fun _ => rfl) (fun hne => by cases hne) rfl rfl
  | trySend event =>
    cases answer with
    | error e => cases hq
    | ok v =>
      cases hq
      exact h.silent (fun _ => rfl) (fun hne => by cases hne) rfl rfl
  | sleep =>
    cases answer with
    | error e => cases hq
    | ok v =>
      cases hq
      exact h.silent (fun _ => rfl) (fun hne => by cases hne) rfl rfl
  | _ => cases answer <;> cases hq

/-- The observer explains every history that keeps to the protocol, by induction from its end. -/
theorem explains_of_follow {p : Phase} (h : follow deadline history = some p) :
    Explains deadline history p := by
  induction history using List.reverseRecOn generalizing p with
  | nil =>
    cases h
    exact explains_start
  | append_singleton history entry ih =>
    obtain ⟨q, r, hq, hr, hlast⟩ := follow_cut h
    cases hlast
    exact (ih hq).step hr

/-- Once the leader was reaped, nothing is requested any more. -/
theorem settled_after_exit {more : History} {q p : Phase} {status : ExitStatus}
    (hexited : q.exited = some status)
    (h : more.foldlM (observe deadline) q = some p) :
    p.requested = q.requested ∧ p.exited = some status := by
  induction more generalizing q with
  | nil =>
    cases h
    exact ⟨rfl, hexited⟩
  | cons entry more ih =>
    rw [List.foldlM_cons] at h
    obtain ⟨r, hr, h⟩ := Option.bind_eq_some_iff.mp h
    have hkept : r.requested = q.requested ∧ r.exited = some status := by
      obtain ⟨o, answer⟩ := entry
      cases o with
      | signalGroup signal =>
        cases signal with
        | term =>
          obtain ⟨-, -, -, -, -, -, -, -, hnone, -, -⟩ := observe_term_some hr
          cases hexited.symm.trans hnone
        | kill =>
          obtain ⟨-, -, -, -, -, -, -, -, -, rfl⟩ := observe_kill_some hr
          exact ⟨rfl, hexited⟩
      | tryWait =>
        obtain ⟨-, -, hnone, -, -⟩ := observe_tryWait_some hr
        cases hexited.symm.trans hnone
      | killChild =>
        cases answer with
        | error e => cases hr
        | ok u =>
          unfold observe at hr
          dsimp only at hr
          split at hr
          · cases hr
            exact ⟨rfl, hexited⟩
          · cases hr
      | now | loadCancel | read stream | trySend event | sleep =>
        cases answer with
        | error e => cases hr
        | ok v =>
          cases hr
          exact ⟨rfl, hexited⟩
      | _ => cases answer <;> cases hr
    obtain ⟨hrequested, hstatus⟩ := ih hkept.2 h
    exact ⟨hrequested.trans hkept.1, hstatus⟩

/-- The signals of a history: each goes to the group at most once; the second one a grace period
    after the first, without a wait for the leader in between; the leader alone is killed only right
    after a refused signal; and it is never waited for to the end. -/
structure Orderly (history : History) : Prop where
  term_once : signals .term history ≤ 1
  kill_once : signals .kill history ≤ 1
  kill_after : ∀ before answer after,
    history = before ++ ⟨.signalGroup .kill, answer⟩ :: after →
      ∃ earlier sent later requestedAt now,
        before = earlier ++ ⟨.signalGroup .term, sent⟩ :: later ∧
        (∀ entry ∈ later, entry.1 ≠ .tryWait) ∧
        (readings earlier).getLast? = some requestedAt ∧ (readings before).getLast? = some now ∧
        now - requestedAt ≥ processTerminationGraceMs
  leader_alone : ∀ before answer after, history = before ++ ⟨.killChild, answer⟩ :: after →
    ∃ earlier signal, before = earlier ++ [⟨.signalGroup signal, .ok false⟩]
  never_waits : ∀ entry ∈ history, entry.1 ≠ .waitChild

/-- The termination a result reports: that of the exit, if it was observed before anything was
    requested, and then nothing is requested later; else the reason of the one request there was. -/
def Reported (deadline : Option Nat) (result : ProcessResult) (history : History) : Prop :=
  ∃ before status after, history = before ++ ⟨.tryWait, .ok (some status)⟩ :: after ∧
    result.exitCode = status.code ∧
    ((signals .term history = 0 ∧ result.termination = classifyExit status) ∨
      ∃ earlier sent later kind requestedAt,
        before = earlier ++ ⟨.signalGroup .term, sent⟩ :: later ∧
        Told deadline kind requestedAt earlier ∧ result.termination = kind)

theorem orderly_of_follow {p : Phase} (h : follow deadline history = some p) :
    Orderly history where
  term_once := by
    rw [(explains_of_follow h).terms]
    split
    · exact Nat.le_refl 1
    · exact Nat.zero_le 1
  kill_once := by
    rw [(explains_of_follow h).kills]
    split
    · exact Nat.le_refl 1
    · exact Nat.zero_le 1
  kill_after := by
    rintro before answer after rfl
    obtain ⟨q, r, hq, hr, -⟩ := follow_cut h
    obtain ⟨now, kind, requestedAt, sent, -, hclock, hrequested, hescalated, hgrace, -⟩ :=
      observe_kill_some hr
    have hexplains := explains_of_follow hq
    obtain ⟨earlier, told, later, rfl, htold, hlater⟩ :=
      hexplains.requested kind requestedAt hrequested
    refine ⟨earlier, told, later, requestedAt, now, rfl, hlater hescalated, htold.clock, ?_, hgrace⟩
    rw [← hexplains.clock, hclock]
  leader_alone := by
    rintro before answer after rfl
    obtain ⟨q, r, hq, hr, -⟩ := follow_cut h
    cases answer with
    | error e => cases hr
    | ok u =>
      unfold observe at hr
      dsimp only at hr
      split at hr
      · rename_i hrefused
        exact (explains_of_follow hq).refused hrefused
      · cases hr
  never_waits := by
    rintro ⟨o, answer⟩ hmem rfl
    obtain ⟨before, after, rfl⟩ := List.mem_iff_append.mp hmem
    obtain ⟨q, r, -, hr, -⟩ := follow_cut h
    cases answer with
    | error e => cases hr
    | ok v => cases hr

theorem reported_of_concludes {result : ProcessResult} (h : Concludes deadline result history) :
    Reported deadline result history := by
  obtain ⟨p, status, hp, hexited, hcode, htermination⟩ := h
  have hexplains := explains_of_follow hp
  obtain ⟨before, after, rfl⟩ := List.mem_iff_append.mp (hexplains.exited status hexited)
  refine ⟨before, status, after, rfl, hcode, ?_⟩
  obtain ⟨q, r, hq, hr, hafter⟩ := follow_cut hp
  obtain ⟨seen, hseen, -, -, rfl⟩ := observe_tryWait_some hr
  cases hseen
  -- whatever was requested was requested before the exit was seen
  obtain ⟨hrequested, -⟩ := settled_after_exit rfl hafter
  change p.requested = q.requested at hrequested
  rw [hrequested] at htermination
  cases hnone : q.requested with
  | none =>
    rw [hnone] at htermination
    refine .inl ⟨?_, htermination⟩
    rw [hexplains.terms, hrequested, hnone]
    rfl
  | some requested =>
    obtain ⟨kind, requestedAt⟩ := requested
    rw [hnone] at htermination
    obtain ⟨earlier, sent, later, rfl, htold, -⟩ :=
      (explains_of_follow hq).requested kind requestedAt hnone
    exact .inr ⟨earlier, sent, later, kind, requestedAt, rfl, htold, htermination⟩

/-- **The termination protocol.**  Whatever the clock, the flag and the child do, as long as no read
    and no wait fails: the signals are orderly, no supervision fails, the loop is left only with an
    exit status, and a result reports the exit or the one request that came before it. -/
theorem termination_protocol (rounds : Nat) (limits : LocalExecutionLimits) (processId : ProcessId)
    (started : Nat) (w : Nat → (o : Op) → Result o.Val) (hw : ∀ n, Untroubled (w n)) :
    let run := runAlone record w (superviseProcess rounds limits processId started) 0 []
    Orderly run.2.2 ∧
      (∃ ended, run.1 = .ok ended ∧ ∀ result, ended = some result →
        Reported (limits.timeout.map (started + ·)) result run.2.2) ∧
      ∀ (deadline : Option Nat) s,
        (runAlone record w (superviseLoop limits deadline rounds .new) 0 []).1 = .ok (some s) →
          s.exitStatus.isSome = true := by
  have hsupervised : Wp Calm () (superviseProcess rounds limits processId started) _ Never [] :=
    wp_superviseProcess rounds processId started
  have hrun := wp_run (n := 0) hw hsupervised
  refine ⟨?_, ?_, fun deadline s hs => ?_⟩
  · cases hended : (runAlone record w (superviseProcess rounds limits processId started) 0 []).1 with
    | error e =>
      rw [hended] at hrun
      exact hrun.elim
    | ok ended =>
      rw [hended] at hrun
      obtain ⟨⟨p, hp⟩, -⟩ := hrun
      exact orderly_of_follow hp
  · cases hended : (runAlone record w (superviseProcess rounds limits processId started) 0 []).1 with
    | error e =>
      rw [hended] at hrun
      exact hrun.elim
    | ok ended =>
      rw [hended] at hrun
      exact ⟨ended, rfl, fun result hresult => reported_of_concludes (hrun.2 result hresult)⟩
  · have hnew : follow deadline [] = some (phaseOf .new none none) := rfl
    have hlooped : Wp Calm () (superviseLoop limits deadline rounds .new) _ Never [] :=
      wp_superviseLoop rounds .new hnew
    have hloop := wp_run (n := 0) hw hlooped
    rw [hs] at hloop
    exact hloop.1

/-! ## Two runs -/

/-- Answers of a system whose clock shows `now`: both pipes are closed, termination has been
    requested, and a signal is accepted or not. -/
def answering (now : Nat) (status : Option ExitStatus) (sent : Bool) : (o : Op) → Result o.Val
  | .prepare | .release _ | .cancel _ | .killChild | .waitChild | .sleep => .ok ()
  | .reserve _ => .ok ⟨0⟩
  | .activeForProject _ | .activeRuntimeService _ => .ok (0 : Nat)
  | .now => .ok now
  | .spawn | .takePipe _ | .setNonblocking _ | .startThread | .loadCancel => .ok true
  | .signalGroup _ => .ok sent
  | .trySend _ => .ok .sent
  | .read _ => .ok .closed
  | .tryWait => .ok status

theorem untroubled_answering (now : Nat) (status : Option ExitStatus) (sent : Bool) :
    Untroubled (answering now status sent) where
  answered := by
    intro o
    cases o with
    | _ => exact ⟨_, rfl⟩
  read := by
    intro stream hfailed
    cases hfailed

/-- The clock goes on by 100 ms with each operation, and the leader has ended by the tenth. -/
def cancelledRun (sent : Bool) : Result (Option ProcessResult) × Nat × History :=
  runAlone record
    (fun n => answering (100 * n) (if n < 10 then none else some (.signaled 9)) sent)
    (superviseProcess 3 { timeout := none, maxStdoutBytes := 0, maxStderrBytes := 0 } ⟨0⟩ 0) 0 []

theorem termination_protocol_cancelled :
    (∃ result, (cancelledRun true).1 = .ok (some result) ∧ result.termination = .cancelled) ∧
      signals .kill (cancelledRun true).2.2 = 1 ∧ Orderly (cancelledRun true).2.2 :=
  ⟨⟨_, rfl, rfl⟩, rfl,
    (termination_protocol 3 { timeout := none, maxStdoutBytes := 0, maxStderrBytes := 0 } ⟨0⟩ 0
      (fun n => answering (100 * n) (if n < 10 then none else some (.signaled 9)) true)
      (fun _ => untroubled_answering _ _ _)).1⟩

/-- How often the leader alone was killed. -/
def leaderKills (history : History) : Nat :=
  history.countP (fun
    | ⟨.killChild, _⟩ => true
    | _ => false)

/-- Where the system refuses the signals to the group, the leader gets `SIGKILL` at the time of the
    request, with no grace, and once more when the grace period is over. -/
theorem refusedSignal_kills :
    (∀ n, Untroubled (answering (100 * n) (if n < 10 then none else some (.signaled 9)) false)) ∧
      (∃ result, (cancelledRun false).1 = .ok (some result) ∧ result.termination = .cancelled) ∧
      leaderKills (cancelledRun false).2.2 = 2 ∧
      ∃ before after, (cancelledRun false).2.2 = before ++ ⟨.killChild, .ok ()⟩ :: after ∧
        signals .kill before = 0 ∧ readings before = [200] :=
  ⟨fun _ => untroubled_answering _ _ _, ⟨_, rfl, rfl⟩, rfl,
    (cancelledRun false).2.2.take 6, (cancelledRun false).2.2.drop 7, rfl, rfl, rfl⟩

end VibeCoder.Process.Termination
