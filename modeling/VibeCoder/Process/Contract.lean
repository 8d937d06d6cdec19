/-
  The vocabulary of one local process (`vibecoder-process-contract`): how it ended, the events it
  sends while it runs, and its result.

  Bytes are a `List UInt8`, an exit code is an `Int32`.
-/
import VibeCoder.Domain

namespace VibeCoder.Process

def maxEventDrain : Nat := 256

/-- `process_error`. -/
def processError (code : String) : VibeCoderError := .process code

/-- `ProcessId(Uuid)`. -/
structure ProcessId where
  uuid : BitVec 128
  deriving DecidableEq, Repr

/-- `ProcessTermination`. -/
inductive ProcessTermination where
  | exited
  | signaled
  | timedOut
  | cancelled
  deriving DecidableEq, Repr

/-- `ProcessEvent`. -/
inductive ProcessEvent where
  | started (processId : ProcessId)
  | stdout (bytes : List UInt8)
  | stderr (bytes : List UInt8)
  | eventQueueOverflow
  | finished (processId : ProcessId) (termination : ProcessTermination) (exitCode : Option Int32)
  deriving DecidableEq

/-- `ProcessResult`. -/
structure ProcessResult where
  processId : ProcessId
  termination : ProcessTermination
  exitCode : Option Int32
  stdout : List UInt8
  stderr : List UInt8
  stdoutTruncated : Bool
  stderrTruncated : Bool
  eventQueueOverflowed : Bool
  durationMs : Nat

end VibeCoder.Process
