/-
  Build jobs and their results (`vibecoder-build-contract`).

  A text that a tool prints is the list of its characters.  A `BuildDiagnostic` has private fields
  in the source and one constructor that checks them; here the check is a field of the structure.

  Left out: artifacts, the process identity and the duration of a result, which the repair stages
  do not read; and the running job, whose events only rename those of its process.
-/
import VibeCoder.CommandPolicy
import VibeCoder.Lib.Chars
import VibeCoder.Process.Contract
import VibeCoder.Workspace.Paths

namespace VibeCoder.Build

open Chars Process

def maxBuildDiagnostics : Nat := 512
def maxDiagnosticCodeBytes : Nat := 256
def maxDiagnosticMessageBytes : Nat := 16 * 1024
def maxArtifactRelativePathBytes : Nat := 4096
def maxArtifactPathComponentBytes : Nat := 255

/-- `build_error`, `repair_error` and `loop_error`. -/
def buildError (code : String) : VibeCoderError := .build code

/-- `BuildId(Uuid)`. -/
structure BuildId where
  uuid : BitVec 128
  deriving DecidableEq, Repr

/-- `BuildTargetKind`. -/
inductive BuildTargetKind where
  | website
  | android
  deriving DecidableEq, Repr

/-- `BuildState`. -/
inductive BuildState where
  | queued
  | running
  | succeeded
  | failed
  | cancelled
  | timedOut
  deriving DecidableEq, Repr

/-- `BuildDiagnosticSeverity`. -/
inductive BuildDiagnosticSeverity where
  | error
  | warning
  | info
  deriving DecidableEq, Repr

/-- `is_bidi_control`. -/
def isBidiControl (c : Char) : Bool :=
  let n := c.toNat
  n == 0x061C || n == 0x200E || n == 0x200F || (0x202A ≤ n && n ≤ 0x202E) ||
    (0x2066 ≤ n && n ≤ 0x2069)

/-- `ch.is_control() || is_bidi_control(ch)`. -/
def isHidden (c : Char) : Bool := isControl c || isBidiControl c

/-! ## Diagnostics -/

/-- The loop of `validate_relative_artifact_path`, which puts the path together again. -/
def normalizeComponents : List Workspace.Component → String → Result String
  | [], normalized => .ok normalized
  | .normal value :: rest, normalized =>
    if value.isEmpty ∨ len value > maxArtifactPathComponentBytes ∨
        Checkpoint.startsWith value internalTempPrefix then
      .error (buildError "build_relative_path_invalid")
    else normalizeComponents rest (if normalized.isEmpty then value else normalized ++ "/" ++ value)
  | _ :: _, _ => .error (buildError "build_relative_path_invalid")

/-- `validate_relative_artifact_path`. -/
def validateRelativeArtifactPath (path : List Char) : Result Unit :=
  if path.isEmpty ∨ byteLen path > maxArtifactRelativePathBytes ∨ path.contains '\\' ∨
      path.any isHidden then
    .error (buildError "build_relative_path_invalid")
  else do
    let normalized ← normalizeComponents (Workspace.components (String.ofList path)) ""
    if normalized.isEmpty ∨ normalized.toList ≠ path then
      .error (buildError "build_relative_path_invalid")

/-- A text that is shown: not empty, not too long, nothing hidden in it. -/
def shownText (text : List Char) (limit : Nat) : Bool :=
  !text.isEmpty && byteLen text ≤ limit && !text.any isHidden

/-- The check of `BuildDiagnostic::new` on the message. -/
def validateMessage (message : List Char) : Result Unit :=
  if shownText message maxDiagnosticMessageBytes then .ok ()
  else .error (buildError "build_diagnostic_message_invalid")

/-- The checks of `BuildDiagnostic::new` on the rest. -/
def validateOrigin (code relativePath : Option (List Char)) (line column : Option UInt32) :
    Result Unit := do
  match code with
  | none => .ok ()
  | some code =>
    if shownText code maxDiagnosticCodeBytes then .ok ()
    else .error (buildError "build_diagnostic_code_invalid")
  match relativePath with
  | none => .ok ()
  | some path => validateRelativeArtifactPath path
  if line = some 0 ∨ column = some 0 then .error (buildError "build_diagnostic_location_invalid")
  else .ok ()

/-- The checks of `BuildDiagnostic::new`. -/
def validateDiagnostic (code : Option (List Char)) (message : List Char)
    (relativePath : Option (List Char)) (line column : Option UInt32) : Result Unit := do
  validateMessage message
  validateOrigin code relativePath line column

theorem validateDiagnostic_eq_ok {code relativePath : Option (List Char)} {message : List Char}
    {line column : Option UInt32} :
    validateDiagnostic code message relativePath line column = .ok () ↔
      shownText message maxDiagnosticMessageBytes = true ∧
        validateOrigin code relativePath line column = .ok () := by
  unfold validateDiagnostic validateMessage
  split
  · rename_i hshown
    exact ⟨fun h => ⟨hshown, h⟩, fun h => h.2⟩
  · rename_i hshown
    exact ⟨(fun h => by cases h), fun h => absurd h.1 hshown⟩

/-- `BuildDiagnostic`. -/
structure BuildDiagnostic where
  severity : BuildDiagnosticSeverity
  code : Option (List Char)
  message : List Char
  relativePath : Option (List Char)
  line : Option UInt32
  column : Option UInt32
  valid : validateDiagnostic code message relativePath line column = .ok ()

/-- `BuildDiagnostic::new`. -/
def BuildDiagnostic.new (severity : BuildDiagnosticSeverity) (code : Option (List Char))
    (message : List Char) (relativePath : Option (List Char)) (line column : Option UInt32) :
    Result BuildDiagnostic :=
  match h : validateDiagnostic code message relativePath line column with
  | .error e => .error e
  | .ok () =>
    .ok {
      severity := severity
      code := code
      message := message
      relativePath := relativePath
      line := line
      column := column
      valid := h }

/-- A diagnostic may be made again with another message that is shown. -/
theorem BuildDiagnostic.new_ok (severity : BuildDiagnosticSeverity)
    {code relativePath : Option (List Char)} {message : List Char} {line column : Option UInt32}
    (hmessage : shownText message maxDiagnosticMessageBytes = true)
    (horigin : validateOrigin code relativePath line column = .ok ()) :
    ∃ d, BuildDiagnostic.new severity code message relativePath line column = .ok d ∧
      d.message = message ∧ d.relativePath = relativePath ∧ d.line = line := by
  have hvalid := validateDiagnostic_eq_ok.mpr ⟨hmessage, horigin⟩
  unfold BuildDiagnostic.new
  split
  · rename_i herror
    rw [hvalid] at herror
    cases herror
  · exact ⟨_, rfl, rfl, rfl, rfl⟩

theorem BuildDiagnostic.origin (d : BuildDiagnostic) :
    validateOrigin d.code d.relativePath d.line d.column = .ok () :=
  (validateDiagnostic_eq_ok.mp d.valid).2

/-! ## Results -/

/-- `BuildOutput`. -/
structure BuildOutput where
  stdout : List UInt8
  stderr : List UInt8
  stdoutTruncated : Bool
  stderrTruncated : Bool
  liveEventQueueOverflowed : Bool

/-- `BuildJobDescriptor`. -/
structure BuildJobDescriptor where
  buildId : BuildId
  projectId : ProjectId
  target : BuildTargetKind

/-- `BuildResult`. -/
structure BuildResult where
  buildId : BuildId
  projectId : ProjectId
  target : BuildTargetKind
  state : BuildState
  exitCode : Option Int32
  output : BuildOutput
  diagnostics : List BuildDiagnostic

/-- `state_from_termination`. -/
def stateFromTermination (termination : ProcessTermination) (exitCode : Option Int32) :
    BuildState :=
  match termination with
  | .exited => if exitCode = some 0 then .succeeded else .failed
  | .signaled => .failed
  | .timedOut => .timedOut
  | .cancelled => .cancelled

/-- `BuildResult::from_process_result`. -/
def BuildResult.fromProcessResult (descriptor : BuildJobDescriptor) (process : ProcessResult) :
    BuildResult :=
  { buildId := descriptor.buildId
    projectId := descriptor.projectId
    target := descriptor.target
    state := stateFromTermination process.termination process.exitCode
    exitCode := process.exitCode
    output :=
      { stdout := process.stdout
        stderr := process.stderr
        stdoutTruncated := process.stdoutTruncated
        stderrTruncated := process.stderrTruncated
        liveEventQueueOverflowed := process.eventQueueOverflowed }
    diagnostics := [] }

/-- `BuildResult::set_diagnostics`. -/
def BuildResult.setDiagnostics (result : BuildResult) (diagnostics : List BuildDiagnostic) :
    Result BuildResult :=
  if diagnostics.length > maxBuildDiagnostics then .error (buildError "build_diagnostic_limit")
  else .ok { result with diagnostics := diagnostics }

end VibeCoder.Build
