/-
  The phone-local process runtime (`vibecoder-process-local`): how a process is started, supervised
  to its end, and cancelled.

  A call is a program (`ProcessM`) over the operations below, each of which is one indivisible step.
  The thread that `spawn_supervised_command` starts goes on where the call returns its handle, and
  both are one program here: the caller has no part in what the thread does but through `cancel` and
  the event queue.

  The supervisor's `loop` takes the number of its rounds as an argument; `none` says that they are
  used up and the loop is still going.

  Times are milliseconds.  A pid is a positive `i32`, so that the guard of `signal_process_group`
  never applies.  Left out: how a command is prepared (`prepare` answers for it), and the locks,
  which no thread leaves poisoned.
-/
import Mathlib.Algebra.GroupWithZero.Nat
import VibeCoder.Process.Contract
import VibeCoder.Lib.WeakestPre

namespace VibeCoder.Process

open Resume

def maxActiveProcesses : Nat := 4
def maxActivePerProject : Nat := 2
def eventQueueCapacity : Nat := 256
def outputChunkBytes : Nat := 16 * 1024
def maxPipeChunksPerPoll : Nat := 8
def exitPipeDrainGraceMs : Nat := 250
def processTerminationGraceMs : Nat := 250

/-- `ActiveProcessScope`. -/
inductive ActiveProcessScope where
  | project (id : ProjectId)
  | runtimeService (id : String)
  deriving DecidableEq, Repr

/-- `LocalExecutionLimits`. -/
structure LocalExecutionLimits where
  timeout : Option Nat
  maxStdoutBytes : Nat
  maxStderrBytes : Nat
  deriving DecidableEq, Repr

/-! ## Operations -/

inductive OutputStream where
  | stdout
  | stderr
  deriving DecidableEq, Repr

inductive Signal where
  | term
  | kill
  deriving DecidableEq, Repr

/-- What one read puts into the buffer. -/
structure Chunk where
  bytes : List UInt8
  nonempty : bytes ≠ []
  fits : bytes.length ≤ outputChunkBytes

/-- The outcome of a nonblocking read. -/
inductive ReadAnswer where
  | bytes (chunk : Chunk)
  | closed
  | wouldBlock
  | interrupted
  | failed

/-- The outcome of `try_send`. -/
inductive SendAnswer where
  | sent
  | full
  | disconnected
  deriving DecidableEq, Repr

/-- `ExitStatus`. -/
inductive ExitStatus where
  | exited (code : Int32)
  | signaled (number : Nat)
  deriving DecidableEq, Repr

/-- `ExitStatus::code`. -/
def ExitStatus.code : ExitStatus → Option Int32
  | .exited code => some code
  | .signaled _ => none

/-- What a call asks for. -/
inductive Op where
  /-- Everything that can refuse a call before anything is reserved. -/
  | prepare
  /-- `reserve_process`, `release_process` and the other uses of the registry, under its lock. -/
  | reserve (scope : ActiveProcessScope)
  | release (processId : ProcessId)
  | cancel (processId : ProcessId)
  | activeForProject (projectId : ProjectId)
  | activeRuntimeService (serviceId : String)
  | spawn
  | takePipe (stream : OutputStream)
  | setNonblocking (stream : OutputStream)
  | startThread
  | trySend (event : ProcessEvent)
  | read (stream : OutputStream)
  | now
  | tryWait
  /-- `cancel_requested.load(..)`. -/
  | loadCancel
  /-- `signal_process_group`. -/
  | signalGroup (signal : Signal)
  | killChild
  | waitChild
  | sleep

/-- What an operation answers when it does not fail. -/
abbrev Op.Val : Op → Type
  | .prepare | .release _ | .cancel _ | .killChild | .waitChild | .sleep => Unit
  | .reserve _ => ProcessId
  | .activeForProject _ | .activeRuntimeService _ | .now => Nat
  | .spawn | .takePipe _ | .setNonblocking _ | .startThread | .loadCancel | .signalGroup _ => Bool
  | .trySend _ => SendAnswer
  | .read _ => ReadAnswer
  | .tryWait => Option ExitStatus

/-- A call. -/
abbrev ProcessM : Type → Type := Prog VibeCoderError Op Op.Val

def perform (o : Op) : ProcessM o.Val := attempt o

/-! ## Output -/

/-- One output stream: closed or not, and what was captured of it. -/
structure Pipe where
  closed : Bool
  capture : List UInt8
  truncated : Bool
  deriving DecidableEq

/-- `append_bounded`. -/
def appendBounded (pipe : Pipe) (chunk : List UInt8) (limit : Nat) : Pipe :=
  let remaining := limit - pipe.capture.length
  let keep := min remaining chunk.length
  { pipe with
    capture := pipe.capture ++ chunk.take keep
    truncated := pipe.truncated || decide (keep < chunk.length) }

/-- `emit_event`: whether the queue has overflowed, now or before. -/
def emitEvent (event : ProcessEvent) (overflowed : Bool) : ProcessM Bool := do
  match ← perform (.trySend event) with
  | .sent | .disconnected => pure overflowed
  | .full => pure true

/-- The event of a chunk. -/
def outputEvent : OutputStream → List UInt8 → ProcessEvent
  | .stdout, bytes => .stdout bytes
  | .stderr, bytes => .stderr bytes

/-- The reads of one poll. -/
def drainChunks (stream : OutputStream) (limit : Nat) :
    Nat → Pipe → Bool → ProcessM (Pipe × Bool)
  | 0, pipe, overflowed => pure (pipe, overflowed)
  | n + 1, pipe, overflowed => do
    match ← perform (.read stream) with
    | .closed => pure ({ pipe with closed := true }, overflowed)
    | .bytes chunk =>
      let overflowed ← emitEvent (outputEvent stream chunk.bytes) overflowed
      drainChunks stream limit n (appendBounded pipe chunk.bytes limit) overflowed
    | .wouldBlock => pure (pipe, overflowed)
    | .interrupted => drainChunks stream limit n pipe overflowed
    | .failed => throw (processError "process_output_read_failed")

/-- `drain_pipe`. -/
def drainPipe (stream : OutputStream) (limit : Nat) (pipe : Pipe) (overflowed : Bool) :
    ProcessM (Pipe × Bool) :=
  if pipe.closed then pure (pipe, overflowed)
  else drainChunks stream limit maxPipeChunksPerPoll pipe overflowed

/-! ## Supervision -/

/-- `terminate_process_group_immediately`. -/
def terminateProcessGroupImmediately : ProcessM Unit := do
  let _ ← perform (.signalGroup .kill)
  perform .killChild
  perform .waitChild

/-- `if !signal_process_group(child_pid, ..) { let _ = child.kill(); }`. -/
def signalOrKill (signal : Signal) : ProcessM Unit := do
  let signalled ← perform (.signalGroup signal)
  if signalled then pure () else perform .killChild

/-- `if let Err(error) = .. { terminate_process_group_immediately(&mut child); return Err(error); }`. -/
def orTerminate {α : Type} (part : ProcessM α) : ProcessM α := do
  match ← settle part with
  | .ok a => pure a
  | .error e => do
    terminateProcessGroupImmediately
    throw e

/-- The variables of `supervise_process`. -/
structure Supervision where
  stdout : Pipe
  stderr : Pipe
  eventQueueOverflowed : Bool
  requestedTermination : Option (ProcessTermination × Nat)
  killEscalated : Bool
  exitStatus : Option ExitStatus
  exitSeenAt : Option Nat

def Supervision.new : Supervision :=
  { stdout := { closed := false, capture := [], truncated := false }
    stderr := { closed := false, capture := [], truncated := false }
    eventQueueOverflowed := false
    requestedTermination := none
    killEscalated := false
    exitStatus := none
    exitSeenAt := none }

/-- Both pipes are drained, stdout first. -/
def drainPipes (limits : LocalExecutionLimits) (s : Supervision) : ProcessM Supervision := do
  let (stdout, overflowed) ← orTerminate
    (drainPipe .stdout limits.maxStdoutBytes s.stdout s.eventQueueOverflowed)
  let (stderr, overflowed) ← orTerminate
    (drainPipe .stderr limits.maxStderrBytes s.stderr overflowed)
  pure { s with stdout := stdout, stderr := stderr, eventQueueOverflowed := overflowed }

/-- A natural exit is looked for before a cancellation or a timeout; during the grace window after
    `SIGTERM` the leader is not reaped. -/
def observeExit (s : Supervision) (now : Nat) : ProcessM Supervision :=
  if s.exitStatus.isNone && (s.requestedTermination.isNone || s.killEscalated) then do
    match ← settle (perform .tryWait) with
    | .ok (some status) => pure { s with exitStatus := some status, exitSeenAt := some now }
    | .ok none => pure s
    | .error _ => do
      terminateProcessGroupImmediately
      throw (processError "process_wait_failed")
  else pure s

def requestTermination (deadline : Option Nat) (s : Supervision) (now : Nat) :
    ProcessM Supervision :=
  if s.exitStatus.isNone && s.requestedTermination.isNone then do
    let cancelled ← perform .loadCancel
    let requested :=
      if cancelled then some ProcessTermination.cancelled
      else if deadline.any (fun deadline => deadline ≤ now) then some .timedOut
      else none
    match requested with
    | none => pure s
    | some kind => do
      signalOrKill .term
      pure { s with requestedTermination := some (kind, now) }
  else pure s

def escalateKill (s : Supervision) (now : Nat) : ProcessM Supervision :=
  match s.requestedTermination with
  | none => pure s
  | some (_, requestedAt) =>
    if !s.killEscalated && decide (now - requestedAt ≥ processTerminationGraceMs) then do
      signalOrKill .kill
      pure { s with killEscalated := true }
    else pure s

/-- The two `break`s. -/
def hasEnded (s : Supervision) (now : Nat) : Bool :=
  s.exitStatus.isSome &&
    ((s.stdout.closed && s.stderr.closed) ||
      s.exitSeenAt.any (fun seen => now - seen ≥ exitPipeDrainGraceMs))

/-- The `loop`. -/
def superviseLoop (limits : LocalExecutionLimits) (deadline : Option Nat) :
    Nat → Supervision → ProcessM (Option Supervision)
  | 0, _ => pure none
  | rounds + 1, s => do
    let s ← drainPipes limits s
    let now ← perform .now
    let s ← observeExit s now
    let s ← requestTermination deadline s now
    let s ← escalateKill s now
    if hasEnded s now then pure (some s)
    else do
      perform .sleep
      superviseLoop limits deadline rounds s

/-- `classify_exit`. -/
def classifyExit : ExitStatus → ProcessTermination
  | .signaled _ => .signaled
  | .exited _ => .exited

/-- `if event_queue_overflowed { let _ = event_tx.try_send(..); }`. -/
def noticeOverflow (overflowed : Bool) : ProcessM Unit :=
  if overflowed then do
    let _ ← perform (.trySend .eventQueueOverflow)
    pure ()
  else pure ()

/-- `supervise_process`, after the `loop`. -/
def finishSupervision (limits : LocalExecutionLimits) (processId : ProcessId) (started : Nat)
    (s : Supervision) : ProcessM ProcessResult := do
  let s ← drainPipes limits s
  match s.exitStatus with
  | none => throw (processError "process_exit_status_missing")
  | some status => do
    let termination :=
      match s.requestedTermination with
      | some (kind, _) => kind
      | none => classifyExit status
    noticeOverflow s.eventQueueOverflowed
    let overflowed ← emitEvent (.finished processId termination status.code)
      s.eventQueueOverflowed
    let now ← perform .now
    pure {
      processId := processId
      termination := termination
      exitCode := status.code
      stdout := s.stdout.capture
      stderr := s.stderr.capture
      stdoutTruncated := s.stdout.truncated
      stderrTruncated := s.stderr.truncated
      eventQueueOverflowed := overflowed
      durationMs := min (now - started) (2 ^ 64 - 1) }

/-- `supervise_process`. -/
def superviseProcess (rounds : Nat) (limits : LocalExecutionLimits) (processId : ProcessId)
    (started : Nat) : ProcessM (Option ProcessResult) := do
  let ended ← superviseLoop limits (limits.timeout.map (started + ·)) rounds .new
  match ended with
  | none => pure none
  | some s => do
    let result ← finishSupervision limits processId started s
    pure (some result)

/-! ## Starting and cancelling -/

/-- A failed spawn gives the slot back. -/
def orRelease (spawned : Bool) (processId : ProcessId) : ProcessM Unit :=
  if spawned then pure ()
  else do
    perform (.release processId)
    throw (processError "process_spawn_failed")

/-- A failure of the setup after the spawn ends the process as well. -/
def orAbandon (ok : Bool) (processId : ProcessId) (code : String) : ProcessM Unit :=
  if ok then pure ()
  else do
    terminateProcessGroupImmediately
    perform (.release processId)
    throw (processError code)

/-- `set_nonblocking(stdout).is_err() || set_nonblocking(stderr).is_err()`. -/
def setNonblocking : ProcessM Bool := do
  let stdout ← perform (.setNonblocking .stdout)
  if stdout then perform (.setNonblocking .stderr) else pure false

/-- `spawn_supervised_command`, and then its supervisor thread: the slot is given back before the
    result is handed over. -/
def spawnSupervisedCommand (rounds : Nat) (scope : ActiveProcessScope)
    (limits : LocalExecutionLimits) : ProcessM (Option ProcessResult) := do
  let processId ← perform (.reserve scope)
  orRelease (← perform .spawn) processId
  let started ← perform .now
  orAbandon (← perform (.takePipe .stdout)) processId "process_stdout_pipe_missing"
  orAbandon (← perform (.takePipe .stderr)) processId "process_stderr_pipe_missing"
  orAbandon (← setNonblocking) processId "process_pipe_nonblocking_failed"
  let _ ← perform (.trySend (.started processId))
  orAbandon (← perform .startThread) processId "process_supervisor_start_failed"
  match ← settle (superviseProcess rounds limits processId started) with
  | .ok none => pure none
  | .ok (some result) => do
    perform (.release processId)
    pure (some result)
  | .error e => do
    perform (.release processId)
    throw e

/-- `start`, `start_runtime_service` and `start_persistent_runtime_service`. -/
def start (rounds : Nat) (scope : ActiveProcessScope) (limits : LocalExecutionLimits) :
    ProcessM (Option ProcessResult) := do
  perform .prepare
  spawnSupervisedCommand rounds scope limits

end VibeCoder.Process
