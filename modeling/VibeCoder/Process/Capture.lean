/-
  What the supervisor captures of what the child's side writes.

  1. **Pipes** — a pipe has taken in some bytes and given out the first of them.  Between any two
     operations of the supervisor the child's side may write more, or close its end for good; a read
     takes from the front, finds nothing, finds the end, or is interrupted.

  2. **Capture** — what `drain_pipe` has kept is what it took, up to the limit; the flag says that it
     took more than that; and a pipe is closed after its last byte (`Captured`).

  3. **The defect** — the supervisor stops reading `exitPipeDrainGraceMs` after the exit, whatever is
     left.  The flag does not say so.
-/
import VibeCoder.Process.Local

namespace VibeCoder.Process.Capture

open Resume

/-! ## Pipes -/

/-- A pipe: the bytes written to it, those taken from it, and those that had been written when it was
    last read. -/
structure PipeState where
  written : List UInt8
  taken : List UInt8
  seen : List UInt8
  /-- Every writing end is closed. -/
  ended : Bool
  taken_prefix : taken <+: seen
  seen_prefix : seen <+: written

namespace PipeState

def new : PipeState where
  written := []
  taken := []
  seen := []
  ended := false
  taken_prefix := List.prefix_rfl
  seen_prefix := List.prefix_rfl

/-- What is in the pipe. -/
def unread (p : PipeState) : List UInt8 := p.written.drop p.taken.length

theorem taken_unread (p : PipeState) : p.taken ++ p.unread = p.written := by
  obtain ⟨rest, hrest⟩ := p.taken_prefix.trans p.seen_prefix
  rw [unread, ← hrest, List.drop_left]

/-- The child's side writes, and may close its end. -/
def write (p : PipeState) (bytes : List UInt8) (closes : Bool) : PipeState :=
  if p.ended then p
  else { p with
    written := p.written ++ bytes
    ended := closes
    seen_prefix := p.seen_prefix.trans (List.prefix_append _ _) }

/-- The supervisor looks at the pipe. -/
def look (p : PipeState) : PipeState :=
  { p with
    seen := p.written
    taken_prefix := p.taken_prefix.trans p.seen_prefix
    seen_prefix := List.prefix_rfl }

/-- So many bytes are taken from the front. -/
def take (p : PipeState) (count : Nat) : PipeState :=
  { p with
    taken := p.taken ++ p.unread.take count
    seen := p.written
    taken_prefix := by
      have hall := p.taken_unread
      refine ⟨p.unread.drop count, ?_⟩
      rw [List.append_assoc, List.take_append_drop, hall]
    seen_prefix := List.prefix_rfl }

end PipeState

abbrev Pipes := OutputStream → PipeState

/-- What the surroundings contribute to one operation: what has been written and closed before it,
    how a read goes, and the answers to all other operations. -/
structure Surroundings where
  writes : OutputStream → List UInt8
  closes : OutputStream → Bool
  failed : Bool
  interrupted : Bool
  count : Nat
  answer : (o : Op) → Result o.Val

/-- How much of what is there a read takes. -/
def Surroundings.size (w : Surroundings) : Nat := max 1 (min w.count outputChunkBytes)

/-- A nonblocking `read`. -/
def readPipe (w : Surroundings) (p : PipeState) : ReadAnswer × PipeState :=
  if w.failed then (.failed, p.look)
  else if w.interrupted then (.interrupted, p.look)
  else if hunread : p.unread = [] then (if p.ended then .closed else .wouldBlock, p.look)
  else
    (.bytes {
      bytes := p.unread.take w.size
      nonempty := by
        intro hnil
        rcases List.take_eq_nil_iff.mp hnil with h | h
        · unfold Surroundings.size at h
          omega
        · exact hunread h
      fits := by
        rw [List.length_take, Surroundings.size]
        have hone : 1 ≤ outputChunkBytes := by decide
        omega }, p.take w.size)

/-- The pipes after what has happened since the last operation. -/
def Pipes.pass (x : Pipes) (w : Surroundings) : Pipes :=
  fun stream => (x stream).write (w.writes stream) (w.closes stream)

/-- One operation of the supervisor. -/
def piped (w : Surroundings) (o : Op) (x : Pipes) : Result o.Val × Pipes :=
  match o with
  | .read stream =>
    let (answer, p) := readPipe w (x.pass w stream)
    (.ok answer, Function.update (x.pass w) stream p)
  | o => (w.answer o, x.pass w)

/-! ## Capture -/

/-- **What is kept of a pipe**: the first `limit` of the bytes that were taken from it. -/
structure Captured (limit : Nat) (pipe : Pipe) (p : PipeState) : Prop where
  capture : pipe.capture = p.taken.take limit
  truncated : pipe.truncated = decide (limit < p.taken.length)
  closed : pipe.closed = true → p.ended = true ∧ p.unread = []

theorem captured_new (limit : Nat) :
    Captured limit { closed := false, capture := [], truncated := false } .new where
  capture := List.take_nil.symm
  truncated := (decide_eq_false (Nat.not_lt_zero limit)).symm
  closed h := by cases h

section

variable {limit : Nat} {pipe : Pipe} {p : PipeState}

/-- What happens outside changes nothing of it: a pipe that is closed gets no more bytes. -/
theorem Captured.write (h : Captured limit pipe p) (bytes : List UInt8) (closes : Bool) :
    Captured limit pipe (p.write bytes closes) := by
  unfold PipeState.write
  by_cases hended : p.ended = true
  · rw [if_pos hended]
    exact h
  · rw [if_neg hended]
    exact ⟨h.capture, h.truncated, fun hclosed => absurd (h.closed hclosed).1 hended⟩

theorem Captured.look (h : Captured limit pipe p) : Captured limit pipe p.look :=
  ⟨h.capture, h.truncated, h.closed⟩

/-- **`append_bounded`** on what a read took. -/
theorem Captured.append (h : Captured limit pipe p) (hopen : pipe.closed = false) (count : Nat) :
    Captured limit (appendBounded pipe (p.unread.take count) limit) (p.take count) := by
  have hlen : pipe.capture.length = min limit p.taken.length := by
    rw [h.capture, List.length_take]
  refine ⟨?_, ?_, fun hclosed => ?_⟩
  · show pipe.capture ++ (p.unread.take count).take _ = (p.taken ++ p.unread.take count).take limit
    rw [List.take_append, h.capture, ← h.capture, hlen]
    congr 1
    rw [List.take_eq_take_iff]
    omega
  · show (pipe.truncated || decide _) = decide (limit < (p.taken ++ p.unread.take count).length)
    rw [h.truncated, List.length_append, hlen, ← Bool.decide_or]
    congr 1
    rw [eq_iff_iff]
    omega
  · rw [show pipe.closed = true from hclosed] at hopen
    cases hopen

/-- The end has been found. -/
theorem Captured.close (h : Captured limit pipe p) (hended : p.ended = true)
    (hunread : p.unread = []) : Captured limit { pipe with closed := true } p.look :=
  ⟨h.capture, h.truncated, fun _ => ⟨hended, hunread⟩⟩

end

/-! ## The supervisor -/

/-- The supervisor in these surroundings. -/
abbrev Piped : Setting Op (fun o => Result o.Val) Unit Surroundings Pipes :=
  Setting.solo piped (fun _ => True)

/-- What does not read. -/
def Quiet : Op → Prop
  | .read _ => False
  | _ => True

theorem piped_quiet {o : Op} (ho : Quiet o) (w : Surroundings) (x : Pipes) :
    (piped w o x).2 = x.pass w := by
  cases o with
  | read stream => exact ho.elim
  | _ => rfl

/-- What is kept of both pipes. -/
structure Holds (limits : LocalExecutionLimits) (v : Supervision) (x : Pipes) : Prop where
  stdout : Captured limits.maxStdoutBytes v.stdout (x .stdout)
  stderr : Captured limits.maxStderrBytes v.stderr (x .stderr)

theorem Holds.pass {limits : LocalExecutionLimits} {v : Supervision} {x : Pipes}
    (h : Holds limits v x) (w : Surroundings) : Holds limits v (x.pass w) :=
  ⟨h.stdout.write _ _, h.stderr.write _ _⟩

section

variable {limits : LocalExecutionLimits} {v : Supervision} {x : Pipes} {α : Type}

/-- What does not read changes nothing of what is kept. -/
theorem wp_quiet {J : Pipes → Prop} (hpass : ∀ w y, J y → J (y.pass w)) {p : ProcessM α}
    (hp : Only Quiet p) (h : J x) : Wp Piped () p (fun _ => J) (fun _ => J) x := by
  refine wp_only (P := Quiet) (fun o ho y hy => ⟨trivial, fun w _ t ht _ => ?_⟩) hp h
  have ht' : (piped w o y).2 = t := ht
  rw [← ht', piped_quiet ho]
  exact hpass w y hy

theorem wp_read {stream : OutputStream} {Q : ReadAnswer → Pipes → Prop}
    {E : VibeCoderError → Pipes → Prop}
    (h : ∀ w, Q (readPipe w (x.pass w stream)).1
      (Function.update (x.pass w) stream (readPipe w (x.pass w stream)).2)) :
    Wp Piped () (perform (.read stream)) Q E x := by
  refine wp_attempt trivial (fun w _ t ht _ => ?_)
  have ht' : (piped w (.read stream) x).2 = t := ht
  rw [← ht']
  exact h w

theorem only_emitEvent (event : ProcessEvent) (overflowed : Bool) :
    Only Quiet (emitEvent event overflowed) := by
  refine only_bind (only_attempt trivial) (fun answer => ?_)
  cases answer with
  | sent => exact only_pure _
  | full => exact only_pure _
  | disconnected => exact only_pure _

/-- One of the pipes is being read, and the other is left alone. -/
structure Reading (stream other : OutputStream) (limit : Nat) (pipe : Pipe) (otherLimit : Nat)
    (otherPipe : Pipe) (x : Pipes) : Prop where
  here : Captured limit pipe (x stream)
  there : Captured otherLimit otherPipe (x other)

/-- By induction on the reads of one poll. -/
theorem wp_drainChunks {stream other : OutputStream} (hne : other ≠ stream) (limit otherLimit : Nat)
    (otherPipe : Pipe) :
    ∀ (n : Nat) (pipe : Pipe) (overflowed : Bool) (x : Pipes), pipe.closed = false →
      Reading stream other limit pipe otherLimit otherPipe x →
      Wp Piped () (drainChunks stream limit n pipe overflowed)
        (fun r t => Reading stream other limit r.1 otherLimit otherPipe t) (fun _ _ => True) x := by
  intro n
  induction n with
  | zero => exact fun pipe overflowed x _ h => wp_pure h
  | succ n ih =>
    intro pipe overflowed x hopen h
    refine wp_bind (wp_read fun w => ?_)
    have hhere : Captured limit pipe (x.pass w stream) := h.here.write _ _
    have hthere : ∀ p, Captured otherLimit otherPipe (Function.update (x.pass w) stream p other) := by
      intro p
      rw [Function.update_of_ne hne]
      exact h.there.write _ _
    have hlook : Reading stream other limit pipe otherLimit otherPipe
        (Function.update (x.pass w) stream (x.pass w stream).look) := by
      refine ⟨?_, hthere _⟩
      rw [Function.update_self]
      exact hhere.look
    unfold readPipe
    split_ifs with hfailed hinterrupted hunread hended
    · exact wp_throw trivial
    · exact ih pipe overflowed _ hopen hlook
    · -- the end of the pipe
      refine wp_pure ⟨?_, hthere _⟩
      rw [Function.update_self]
      exact hhere.close hended hunread
    · exact wp_pure hlook
    · -- a chunk: it is sent on, and the next read follows
      have hchunk : Reading stream other limit
          (appendBounded pipe ((x.pass w stream).unread.take w.size) limit) otherLimit otherPipe
          (Function.update (x.pass w) stream ((x.pass w stream).take w.size)) := by
        refine ⟨?_, hthere _⟩
        rw [Function.update_self]
        exact hhere.append hopen w.size
      refine wp_seq trivial (wp_quiet (J := Reading stream other limit
        (appendBounded pipe ((x.pass w stream).unread.take w.size) limit) otherLimit otherPipe)
        (fun w' y hy => ⟨hy.here.write _ _, hy.there.write _ _⟩)
        (only_emitEvent _ overflowed) hchunk) (fun overflowed' t _ ht => ?_) (fun _ _ _ _ => trivial)
      exact ih _ overflowed' t hopen ht

theorem wp_drainPipe {stream other : OutputStream} (hne : other ≠ stream) {limit otherLimit : Nat}
    {pipe otherPipe : Pipe} (overflowed : Bool)
    (h : Reading stream other limit pipe otherLimit otherPipe x) :
    Wp Piped () (drainPipe stream limit pipe overflowed)
      (fun r t => Reading stream other limit r.1 otherLimit otherPipe t) (fun _ _ => True) x := by
  rw [drainPipe]
  split_ifs with hclosed
  · exact wp_pure h
  · exact wp_drainChunks hne limit otherLimit otherPipe _ pipe overflowed x
      (Bool.eq_false_iff.mpr hclosed) h

theorem only_terminate : Only Quiet terminateProcessGroupImmediately :=
  only_bind (only_attempt trivial) (fun _ =>
    only_bind (only_attempt trivial) (fun _ => only_attempt trivial))

theorem only_signalOrKill (signal : Signal) : Only Quiet (signalOrKill signal) := by
  refine only_bind (only_attempt trivial) (fun signalled => ?_)
  cases signalled with
  | true => exact only_pure _
  | false => exact only_attempt trivial

/-- What fails is not looked at. -/
theorem wp_orTerminate {part : ProcessM α} {Q : α → Pipes → Prop}
    (h : Wp Piped () part Q (fun _ _ => True) x) :
    Wp Piped () (orTerminate part) Q (fun _ _ => True) x := by
  refine wp_bind (wp_settle (Wp.mono trivial h (fun a t _ ht => wp_pure ht) (fun e t _ _ => ?_)))
  exact wp_seq trivial (wp_quiet (J := fun _ => True) (fun _ _ _ => trivial) only_terminate trivial)
    (fun _ _ _ _ => wp_throw trivial) (fun _ _ _ _ => trivial)

theorem wp_drainPipes (h : Holds limits v x) :
    Wp Piped () (drainPipes limits v) (fun v' t => Holds limits v' t) (fun _ _ => True) x := by
  have hreading : Reading .stdout .stderr limits.maxStdoutBytes v.stdout limits.maxStderrBytes
      v.stderr x := ⟨h.stdout, h.stderr⟩
  refine wp_seq trivial (wp_orTerminate (wp_drainPipe (by decide) _ hreading)) (fun r t _ ht => ?_)
    (fun _ _ _ _ => trivial)
  have hreading' : Reading .stderr .stdout limits.maxStderrBytes v.stderr limits.maxStdoutBytes
      r.1 t := ⟨ht.there, ht.here⟩
  refine wp_seq trivial (wp_orTerminate (wp_drainPipe (by decide) _ hreading')) (fun r' u _ hu => ?_)
    (fun _ _ _ _ => trivial)
  exact wp_pure ⟨hu.there, hu.here⟩

/-- A part that does not read, from pipes of which something is kept. -/
theorem wp_holds {p : ProcessM α} (hp : Only Quiet p) (h : Holds limits v x) :
    Wp Piped () p (fun _ t => Holds limits v t) (fun _ _ => True) x :=
  Wp.mono trivial (wp_quiet (J := Holds limits v) (fun w _ hy => hy.pass w) hp h)
    (fun _ _ _ ht => ht) (fun _ _ _ _ => trivial)

section

variable (h : Holds limits v x) (now : Nat)
include h

theorem wp_observeExit :
    Wp Piped () (observeExit v now) (fun v' t => Holds limits v' t) (fun _ _ => True) x := by
  rw [observeExit]
  split
  · refine wp_bind (wp_settle (Wp.mono trivial (wp_holds (p := perform .tryWait)
      (only_attempt trivial) h) (fun answer t _ ht => ?_) (fun e t _ _ => ?_)))
    · cases answer with
      | none => exact wp_pure ht
      | some status => exact wp_pure ⟨ht.stdout, ht.stderr⟩
    · exact wp_seq trivial (wp_quiet (J := fun _ => True) (fun _ _ _ => trivial) only_terminate
        trivial) (fun _ _ _ _ => wp_throw trivial) (fun _ _ _ _ => trivial)
  · exact wp_pure h

theorem wp_requestTermination (deadline : Option Nat) :
    Wp Piped () (requestTermination deadline v now) (fun v' t => Holds limits v' t)
      (fun _ _ => True) x := by
  rw [requestTermination]
  split
  · refine wp_seq trivial (wp_holds (p := perform .loadCancel) (only_attempt trivial) h)
      (fun cancelled t _ ht => ?_) (fun _ _ _ _ => trivial)
    dsimp only
    split
    · exact wp_pure ht
    · exact wp_seq trivial (wp_holds (only_signalOrKill .term) ht)
        (fun _ u _ hu => wp_pure ⟨hu.stdout, hu.stderr⟩) (fun _ _ _ _ => trivial)
  · exact wp_pure h

theorem wp_escalateKill :
    Wp Piped () (escalateKill v now) (fun v' t => Holds limits v' t) (fun _ _ => True) x := by
  rw [escalateKill]
  split
  · exact wp_pure h
  · split
    · exact wp_seq trivial (wp_holds (only_signalOrKill .kill) h)
        (fun _ t _ ht => wp_pure ⟨ht.stdout, ht.stderr⟩) (fun _ _ _ _ => trivial)
    · exact wp_pure h

end

/-- By induction on the rounds, with `Holds` as the invariant of the loop. -/
theorem wp_superviseLoop (limits : LocalExecutionLimits) (deadline : Option Nat) (rounds : Nat) :
    ∀ (v : Supervision) (x : Pipes), Holds limits v x →
      Wp Piped () (superviseLoop limits deadline rounds v)
        (fun r t => ∀ v' ∈ r, Holds limits v' t) (fun _ _ => True) x := by
  induction rounds with
  | zero => exact fun v x _ => wp_pure nofun
  | succ rounds ih =>
    intro v x h
    refine wp_seq trivial (wp_drainPipes h) (fun v₁ t₁ _ h₁ => ?_) (fun _ _ _ _ => trivial)
    refine wp_seq trivial (wp_holds (p := perform .now) (only_attempt trivial) h₁)
      (fun now t₂ _ h₂ => ?_) (fun _ _ _ _ => trivial)
    refine wp_seq trivial (wp_observeExit h₂ now) (fun v₃ t₃ _ h₃ => ?_) (fun _ _ _ _ => trivial)
    refine wp_seq trivial (wp_requestTermination h₃ now deadline) (fun v₄ t₄ _ h₄ => ?_)
      (fun _ _ _ _ => trivial)
    refine wp_seq trivial (wp_escalateKill h₄ now) (fun v₅ t₅ _ h₅ => ?_) (fun _ _ _ _ => trivial)
    split
    · refine wp_pure fun v' hv' => ?_
      cases hv'
      exact h₅
    · exact wp_seq trivial (wp_holds (p := perform .sleep) (only_attempt trivial) h₅)
        (fun _ t₆ _ h₆ => ih v₅ t₆ h₆) (fun _ _ _ _ => trivial)

/-- The captured output of a stream, whether it is marked as truncated, and its limit. -/
def output (result : ProcessResult) : OutputStream → List UInt8
  | .stdout => result.stdout
  | .stderr => result.stderr

def truncated (result : ProcessResult) : OutputStream → Bool
  | .stdout => result.stdoutTruncated
  | .stderr => result.stderrTruncated

def limitOf (limits : LocalExecutionLimits) : OutputStream → Nat
  | .stdout => limits.maxStdoutBytes
  | .stderr => limits.maxStderrBytes

/-- What a result says of what was taken from the pipes. -/
def Reported (limits : LocalExecutionLimits) (result : ProcessResult) (x : Pipes) : Prop :=
  ∀ stream, output result stream = (x stream).taken.take (limitOf limits stream) ∧
    truncated result stream = decide (limitOf limits stream < (x stream).taken.length)

theorem wp_finishSupervision (processId : ProcessId) (started : Nat) (h : Holds limits v x) :
    Wp Piped () (finishSupervision limits processId started v)
      (fun result t => Reported limits result t) (fun _ _ => True) x := by
  refine wp_seq trivial (wp_drainPipes h) (fun v' t _ ht => ?_) (fun _ _ _ _ => trivial)
  cases v'.exitStatus with
  | none => exact wp_throw trivial
  | some status =>
    refine wp_seq trivial (wp_holds (p := noticeOverflow v'.eventQueueOverflowed) ?_ ht)
      (fun _ u _ hu => ?_) (fun _ _ _ _ => trivial)
    · cases v'.eventQueueOverflowed with
      | false => exact only_pure _
      | true => exact only_bind (only_attempt trivial) (fun _ => only_pure _)
    refine wp_seq trivial (wp_holds (only_emitEvent _ _) hu) (fun overflowed y _ hy => ?_)
      (fun _ _ _ _ => trivial)
    refine wp_seq trivial (wp_holds (p := perform .now) (only_attempt trivial) hy)
      (fun now z _ hz => ?_) (fun _ _ _ _ => trivial)
    refine wp_pure fun stream => ?_
    cases stream with
    | stdout => exact ⟨hz.stdout.capture, hz.stdout.truncated⟩
    | stderr => exact ⟨hz.stderr.capture, hz.stderr.truncated⟩

theorem wp_superviseProcess (rounds : Nat) (limits : LocalExecutionLimits) (processId : ProcessId)
    (started : Nat) :
    Wp Piped () (superviseProcess rounds limits processId started)
      (fun r t => ∀ result ∈ r, Reported limits result t) (fun _ _ => True) (fun _ => .new) := by
  have hnew : Holds limits .new (fun _ => .new) := ⟨captured_new _, captured_new _⟩
  refine wp_seq trivial (wp_superviseLoop limits _ rounds .new _ hnew) (fun ended t _ ht => ?_)
    (fun _ _ _ _ => trivial)
  cases ended with
  | none => exact wp_pure nofun
  | some v =>
    refine wp_seq trivial (wp_finishSupervision processId started (ht v rfl))
      (fun result u _ hu => wp_pure fun result' hresult => ?_) (fun _ _ _ _ => trivial)
    cases hresult
    exact hu

end

/-! ## The defect -/

/-- The answers to a supervisor whose child has exited. -/
def answers (now : Nat) : (o : Op) → Result o.Val
  | .prepare | .release _ | .cancel _ | .killChild | .waitChild | .sleep => .ok ()
  | .reserve _ => .ok ⟨7⟩
  | .activeForProject _ | .activeRuntimeService _ => .ok 0
  | .now => .ok now
  | .spawn | .takePipe _ | .setNonblocking _ | .startThread | .signalGroup _ => .ok true
  | .loadCancel => .ok false
  | .trySend _ => .ok .sent
  | .read _ => .ok .wouldBlock
  | .tryWait => .ok (some (.exited 0))

end VibeCoder.Process.Capture
