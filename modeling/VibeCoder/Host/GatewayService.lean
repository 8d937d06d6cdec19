/-
  The session of the OmniRoute gateway service in the Android host (`omniroute_ffi.rs` and
  `omniroute_service.rs` of `vibecoder-android-host`).

  1. **Processes** — the registry of the process runtime, and for each launch how far its
     supervisor has come: it reports the end of the process, takes the entry out of the registry, and
     only then sends the completion.

  2. **Operations** — what a call asks its surroundings for.  Before each of them supervisors may
     have gone on, so a service can exit between any two steps of a call.

  3. **Calls** — `start_bytes`, `status_bytes` and `stop_bytes`, which run one after the other under
     the session's lock, and the service functions below them.

  Every launch has a number; the flag of a registry entry is the one made for its launch.

  Left out: poisoned locks and panics of a future, the JSON text of a snapshot (its fields are
  bounded far below the limit), and the command line of the service.
-/
import VibeCoder.Contracts
import VibeCoder.Host.ChatStop
import VibeCoder.Process.System

namespace VibeCoder.OmniRoute

open Resume
open Process (ProcessId ProcessResult ExitStatus Registry ActiveProcess ActiveProcessScope
  classifyExit processError)
open Host (hostError)

def nodeRuntimeServiceId : String := "node-runtime"
def loopbackBaseUrl : String := "http://127.0.0.1:20128/v1"
def expectedComponent : String := "omniroute"
def expectedVersion : String := "3.8.50"
def expectedGatewayProfileId : String := "vibecoder-omniroute-exact-model-v1"
def expectedRoutingProfileSha256 : String :=
  "aec0f63fb0dec08f24fffde9209504ec447e9428bec1cd64c033649ed275fe3d"
def readyTimeoutMs : Nat := 60000
def readyPollMs : Nat := 100
def readyConsecutiveAttestations : Nat := 2

/-- The scope of the service in the registry. -/
def nodeScope : ActiveProcessScope := .runtimeService nodeRuntimeServiceId

/-! ## Processes -/

/-- How a process ended: what its supervisor has seen of it. -/
structure Exit where
  status : ExitStatus
  /-- The supervisor has read the cancellation flag, if it was set, before the status. -/
  sawCancel : Bool
  stdout : List UInt8
  stderr : List UInt8
  stdoutTruncated : Bool
  stderrTruncated : Bool
  eventQueueOverflowed : Bool
  durationMs : Nat

/-- The result of `supervise_process` for a process without a deadline. -/
def Exit.result (exit : Exit) (processId : ProcessId) (requested : Bool) : ProcessResult where
  processId := processId
  termination := if exit.sawCancel && requested then .cancelled else classifyExit exit.status
  exitCode := exit.status.code
  stdout := exit.stdout
  stderr := exit.stderr
  stdoutTruncated := exit.stdoutTruncated
  stderrTruncated := exit.stderrTruncated
  eventQueueOverflowed := exit.eventQueueOverflowed
  durationMs := exit.durationMs

/-- How far the supervisor of a launch has come. -/
inductive Supervisor where
  | absent
  | watching (processId : ProcessId)
  /-- `Finished` has been offered; the entry is still in the registry. -/
  | reported (processId : ProcessId) (result : ProcessResult)
  /-- The entry is out of the registry; the completion is not sent. -/
  | released (result : ProcessResult)
  | completed (result : ProcessResult)

/-- The entry a supervisor still has in the registry. -/
def Supervisor.live : Supervisor → Option ProcessId
  | .watching processId | .reported processId _ => some processId
  | .absent | .released _ | .completed _ => none

/-- The event `Finished` may be in the queue. -/
def Supervisor.reports : Supervisor → Bool
  | .reported _ _ | .released _ | .completed _ => true
  | .absent | .watching _ => false

/-- The process runtime of the session's host. -/
structure Processes where
  registry : Registry Nat
  launches : Nat
  requested : Nat → Bool
  supervisor : Nat → Supervisor

namespace Processes

def empty : Processes where
  registry := Registry.empty
  launches := 0
  requested := fun _ => false
  supervisor := fun _ => .absent

def set (p : Processes) (n : Nat) (v : Supervisor) : Processes :=
  { p with supervisor := fun m => if m = n then v else p.supervisor m }

/-- The supervisor of a launch goes on. -/
def supervise (p : Processes) (n : Nat) (exit : Exit) : Processes :=
  match p.supervisor n with
  | .absent | .completed _ => p
  | .watching id => p.set n (.reported id (exit.result id (p.requested n)))
  | .reported id result => { p.set n (.released result) with registry := p.registry.remove id }
  | .released result => p.set n (.completed result)

/-- What has happened since the last operation. -/
def occurs (p : Processes) (occurred : List (Nat × Exit)) : Processes :=
  occurred.foldl (fun p x => p.supervise x.1 x.2) p

/-- `active_runtime_service`. -/
def activeRuntimeService (p : Processes) : Nat :=
  Process.countScope p.registry.active nodeScope

/-- The launch whose process is the active service. -/
def activeLaunch (p : Processes) : Option Nat :=
  (p.registry.active.find? fun a => a.2.scope == nodeScope).map fun a => a.2.cancelRequested

end Processes

/-! ## The session -/

/-- `RunningProcess`: the handle of a launch. -/
structure RunningProcess where
  processId : ProcessId
  launch : Nat
  deriving DecidableEq, Repr

/-- `OmniRouteServiceReadiness`. -/
structure OmniRouteServiceReadiness where
  processId : ProcessId
  baseUrl : String
  upstreamVersion : String
  routingProfileId : String
  routingProfileSha256 : String
  exactModelOnly : Bool
  hiddenModelReroutesDisabled : Bool
  probeAttempts : Nat
  elapsedMs : Nat
  deriving DecidableEq, Repr

/-- `OmniRouteRuntimeVerification`. -/
structure OmniRouteRuntimeVerification where
  root : String
  manifestSha256 : String
  treeSha256 : String
  fileCount : Nat
  totalBytes : Nat
  deriving DecidableEq, Repr

/-- `OmniRouteServiceHandle`. -/
structure OmniRouteServiceHandle where
  process : RunningProcess
  readiness : OmniRouteServiceReadiness
  runtime : OmniRouteRuntimeVerification
  deriving DecidableEq, Repr

/-- `ExitSummary`. -/
structure ExitSummary where
  termination : String
  exitCode : Option Int32
  stdoutBytes : Nat
  stderrBytes : Nat
  stdoutTruncated : Bool
  stderrTruncated : Bool
  eventQueueOverflowed : Bool
  durationMs : Nat
  deriving DecidableEq, Repr

/-- `AndroidOmniRouteSession`; its host's process runtime is part of the gateway's state. -/
structure AndroidOmniRouteSession where
  key : String
  service : Option OmniRouteServiceHandle
  lastExit : Option ExitSummary
  deriving DecidableEq, Repr

/-- `ServiceSnapshot`. -/
structure ServiceSnapshot where
  schema : Nat
  componentId : String
  status : String
  active : Bool
  ready : Bool
  processId : Option String
  baseUrl : Option String
  runtimeTreeSha256 : Option String
  signedManifestSha256 : Option String
  runtimeProfileRoundTripProven : Bool
  exactModelOnly : Bool
  hiddenModelReroutesDisabled : Bool
  probeAttempts : Option Nat
  readinessElapsedMs : Option Nat
  lastExit : Option ExitSummary
  deriving DecidableEq, Repr

/-- The session, the processes, and each attestation that was answered: the launch that was active
    at the answer, and whether it passed. -/
structure Gateway where
  processes : Processes
  session : Option AndroidOmniRouteSession
  attested : List (Option Nat × Bool)

/-- Two attestations passed one after the other while the launch was active. -/
def Attested (attested : List (Option Nat × Bool)) (n : Nat) : Prop :=
  ∃ before after, attested = before ++ (some n, true) :: (some n, true) :: after

/-! ## Operations -/

inductive Op where
  /-- The session behind the lock, which the call holds. -/
  | session
  | putSession (session : Option AndroidOmniRouteSession)
  | fromInventoryJson
  | nativeComponentPath
  | activeRuntimeService
  | verifyInstalledRuntime (expectedManifestSha256 : String)
  | privateDirectory
  | buildLaunchPlan
  | startPersistentRuntimeService
  | newClient
  | now
  /-- `drain_events`, looked through for `Finished`. -/
  | drainFinished (process : RunningProcess)
  | executionProfile
  | sleep
  | cancel (processId : ProcessId)
  /-- `block_on(process.wait())`. -/
  | wait (process : RunningProcess)

abbrev Op.Val : Op → Type
  | .session => Option AndroidOmniRouteSession
  | .putSession _ | .fromInventoryJson | .nativeComponentPath | .privateDirectory
  | .buildLaunchPlan | .newClient | .sleep | .cancel _ => Unit
  | .activeRuntimeService | .now => Nat
  | .verifyInstalledRuntime _ => OmniRouteRuntimeVerification
  | .startPersistentRuntimeService => RunningProcess
  | .drainFinished _ => Bool
  | .executionProfile => GatewayExecutionProfile
  | .wait _ => ProcessResult

abbrev GatewayM : Type → Type := Prog VibeCoderError Op Op.Val

def perform (o : Op) : GatewayM o.Val := attempt o

/-- What the outside contributes to one operation. -/
structure World where
  occurred : List (Nat × Exit)
  /-- The error of an operation that can fail. -/
  fault : Option VibeCoderError
  draws : List ProcessId
  verification : OmniRouteRuntimeVerification
  profile : Result GatewayExecutionProfile
  sawFinished : Bool
  now : Nat
  /-- How a process ends that is waited for. -/
  exit : Exit

/-- `execution_profile` answered what the service must answer. -/
def profileMatches (profile : GatewayExecutionProfile) : Bool :=
  profile.permitsExactModelExecution && profile.gatewayId == expectedComponent &&
    profile.upstreamVersion == expectedVersion &&
    profile.profileId == expectedGatewayProfileId &&
    profile.profileSha256 == expectedRoutingProfileSha256

/-- An attestation passed. -/
def attestationPassed : Result GatewayExecutionProfile → Bool
  | .ok profile => profileMatches profile
  | .error _ => false

def orFault {α : Type} (fault : Option VibeCoderError) (answer : α) : Result α :=
  match fault with
  | some e => .error e
  | none => .ok answer

namespace Processes

/-- `start_persistent_runtime_service`: a start that fails gives back what it reserved. -/
def start (p : Processes) (w : World) : Result RunningProcess × Processes :=
  match w.fault with
  | some e => (.error e, p)
  | none =>
    match p.registry.reserve p.launches nodeScope w.draws with
    | .error e => (.error e, p)
    | .ok (id, registry) =>
      (.ok { processId := id, launch := p.launches },
        { p.set p.launches (.watching id) with
          registry := registry
          launches := p.launches + 1
          requested := fun n => if n = p.launches then false else p.requested n })

/-- `cancel`. -/
def cancel (p : Processes) (processId : ProcessId) : Result Unit × Processes :=
  match p.registry.get processId with
  | none => (.error (processError "process_not_active"), p)
  | some active =>
    (.ok (), { p with
      requested := fun n => if n = active.cancelRequested then true else p.requested n })

/-- `wait`: the supervisor goes on until it has sent the completion. -/
def wait (p : Processes) (n : Nat) (exit : Exit) : Result ProcessResult × Processes :=
  let p := ((p.supervise n exit).supervise n exit).supervise n exit
  match p.supervisor n with
  | .completed result => (.ok result, p)
  | _ => (.error (processError "process_completion_channel_closed"), p)

end Processes

/-- One operation, after what has happened since the last one. -/
def exec (w : World) : (o : Op) → Gateway → Result o.Val × Gateway := fun o g =>
  let g := { g with processes := g.processes.occurs w.occurred }
  match o with
  | .session => (.ok g.session, g)
  | .putSession session => (.ok (), { g with session := session })
  | .activeRuntimeService => (.ok g.processes.activeRuntimeService, g)
  | .now => (.ok w.now, g)
  | .sleep => (.ok (), g)
  | .fromInventoryJson | .nativeComponentPath | .privateDirectory | .buildLaunchPlan
  | .newClient => (orFault w.fault (), g)
  | .verifyInstalledRuntime expectedManifestSha256 =>
    (orFault w.fault { w.verification with manifestSha256 := expectedManifestSha256 }, g)
  | .drainFinished process =>
    (.ok (w.sawFinished && (g.processes.supervisor process.launch).reports), g)
  | .executionProfile =>
    (w.profile,
      { g with
        attested := g.attested ++ [(g.processes.activeLaunch, attestationPassed w.profile)] })
  | .startPersistentRuntimeService =>
    ((g.processes.start w).1, { g with processes := (g.processes.start w).2 })
  | .cancel processId =>
    ((g.processes.cancel processId).1, { g with processes := (g.processes.cancel processId).2 })
  | .wait process =>
    ((g.processes.wait process.launch w.exit).1,
      { g with processes := (g.processes.wait process.launch w.exit).2 })

/-! ## The service -/

/-- `omniroute_service_active`. -/
def omnirouteServiceActive : GatewayM Bool := do
  return (← perform .activeRuntimeService) == 1

def failIf (c : Bool) (code : String) : GatewayM Unit :=
  resume (if c then .error (hostError code) else .ok ())

/-- The answer of a readiness probe that has passed. -/
def readinessOf (process : RunningProcess) (profile : GatewayExecutionProfile)
    (attempts elapsedMs : Nat) : OmniRouteServiceReadiness where
  processId := process.processId
  baseUrl := loopbackBaseUrl
  upstreamVersion := profile.upstreamVersion
  routingProfileId := profile.profileId
  routingProfileSha256 := profile.profileSha256
  exactModelOnly := profile.exactModelOnly
  hiddenModelReroutesDisabled := profile.hiddenModelReroutesDisabled
  probeAttempts := attempts
  elapsedMs := min elapsedMs u64Max

/-- One attestation: the readiness if it was the last one, or how many have passed in a row. -/
def attestOnce (process : RunningProcess) (started attempts consecutive : Nat) :
    GatewayM (OmniRouteServiceReadiness ⊕ Nat) := do
  match ← settle (perform .executionProfile) with
  | .ok profile =>
    if !profileMatches profile then
      throw (hostError "android_host_omniroute_runtime_attestation_mismatch")
    else if readyConsecutiveAttestations ≤ consecutive + 1 then do
      failIf (!(← omnirouteServiceActive)) "android_host_omniroute_inactive_after_attestation"
      let now ← perform .now
      return .inl (readinessOf process profile attempts (now - started))
    else return .inr (consecutive + 1)
  | .error (.gateway code) =>
    if code = "runtime_profile_attestation_mismatch" then
      throw (hostError "android_host_omniroute_runtime_attestation_mismatch")
    else return .inr 0
  | .error _ => return .inr 0

/-- The `loop` of `wait_for_omniroute_readiness`.  Every round but the last sleeps for
    `READY_POLL_MS`, so a loop of `readyTimeoutMs / readyPollMs + 1` rounds ends at its deadline. -/
def readinessLoop (process : RunningProcess) (started : Nat) :
    Nat → Nat → Nat → GatewayM OmniRouteServiceReadiness
  | 0, _, _ => throw (hostError "android_host_omniroute_readiness_timeout")
  | rounds + 1, attempts, consecutive => do
    failIf (← perform (.drainFinished process)) "android_host_omniroute_exited_before_ready"
    failIf (!(← omnirouteServiceActive)) "android_host_omniroute_inactive_before_ready"
    match ← attestOnce process started (attempts + 1) consecutive with
    | .inl readiness => return readiness
    | .inr consecutive => do
      let now ← perform .now
      failIf (decide (started + readyTimeoutMs ≤ now)) "android_host_omniroute_readiness_timeout"
      perform .sleep
      readinessLoop process started rounds (attempts + 1) consecutive

/-- `wait_for_omniroute_readiness`. -/
def waitForOmnirouteReadiness (process : RunningProcess) :
    GatewayM OmniRouteServiceReadiness := do
  perform .newClient
  let started ← perform .now
  readinessLoop process started (readyTimeoutMs / readyPollMs + 1) 0 0

/-- `start_omniroute_service`. -/
def startOmnirouteService (expectedManifestSha256 : String) :
    GatewayM OmniRouteServiceHandle := do
  perform .nativeComponentPath
  failIf (← omnirouteServiceActive) "android_host_omniroute_service_already_active"
  let runtime ← perform (.verifyInstalledRuntime expectedManifestSha256)
  perform .privateDirectory
  perform .buildLaunchPlan
  let process ← perform .startPersistentRuntimeService
  match ← settle (waitForOmnirouteReadiness process) with
  | .ok readiness => return { process := process, readiness := readiness, runtime := runtime }
  | .error error => do
    let _ ← settle (perform (.cancel process.processId))
    let _ ← settle (perform (.wait process))
    throw error

/-- `wait_omniroute_service`. -/
def waitOmnirouteService (service : OmniRouteServiceHandle) : GatewayM ProcessResult :=
  perform (.wait service.process)

/-- The end of `stop_omniroute_service`, once the process was asked to end or is gone. -/
def reapStopped (service : OmniRouteServiceHandle) : GatewayM ProcessResult := do
  let result ← perform (.wait service.process)
  failIf (match result.termination with
    | .cancelled | .exited | .signaled => false
    | .timedOut => true) "android_host_omniroute_stop_unexpected_termination"
  failIf (← omnirouteServiceActive) "android_host_omniroute_stop_still_active"
  return result

/-- `stop_omniroute_service`. -/
def stopOmnirouteService (service : OmniRouteServiceHandle) : GatewayM ProcessResult := do
  if ← omnirouteServiceActive then
    perform (.cancel service.process.processId)
    reapStopped service
  else reapStopped service

/-! ## Calls -/

/-- `exit_summary`. -/
def exitSummary (result : ProcessResult) : ExitSummary where
  termination :=
    match result.termination with
    | .exited => "exited"
    | .signaled => "signaled"
    | .timedOut => "timed_out"
    | .cancelled => "cancelled"
  exitCode := result.exitCode
  stdoutBytes := result.stdout.length
  stderrBytes := result.stderr.length
  stdoutTruncated := result.stdoutTruncated
  stderrTruncated := result.stderrTruncated
  eventQueueOverflowed := result.eventQueueOverflowed
  durationMs := result.durationMs

/-- The snapshot of a session. -/
def snapshotOf (session : AndroidOmniRouteSession) (status : String) (active : Bool) :
    ServiceSnapshot where
  schema := 1
  componentId := "omniroute"
  status := status
  active := active
  ready := active && session.service.isSome
  processId := session.service.map fun service => UuidText.hyphenated service.process.processId.uuid
  baseUrl := session.service.map fun service => service.readiness.baseUrl
  runtimeTreeSha256 := session.service.map fun service => service.runtime.treeSha256
  signedManifestSha256 := session.service.map fun service => service.runtime.manifestSha256
  runtimeProfileRoundTripProven := active && session.service.isSome
  exactModelOnly := session.service.any fun service => service.readiness.exactModelOnly
  hiddenModelReroutesDisabled :=
    session.service.any fun service => service.readiness.hiddenModelReroutesDisabled
  probeAttempts := session.service.map fun service => service.readiness.probeAttempts
  readinessElapsedMs := session.service.map fun service => service.readiness.elapsedMs
  lastExit := session.lastExit

/-- `snapshot_bytes`. -/
def snapshotBytes (session : AndroidOmniRouteSession) (status : String) :
    GatewayM ServiceSnapshot := do
  return snapshotOf session status (← omnirouteServiceActive)

/-- What `start_bytes` is called with, after the checks of the FFI. -/
structure StartArguments where
  key : String
  manifestSha : String
  deriving DecidableEq, Repr

/-- The session, which the first start makes. -/
def openSession (key : String) : GatewayM AndroidOmniRouteSession := do
  match ← perform .session with
  | some session => return session
  | none => do
    perform .fromInventoryJson
    let session := { key := key, service := none, lastExit := none }
    perform (.putSession (some session))
    return session

/-- A fresh service for a session that has none. -/
def launchService (session : AndroidOmniRouteSession) (manifestSha : String) :
    GatewayM ServiceSnapshot := do
  let service ← startOmnirouteService manifestSha
  let session := { session with service := some service }
  perform (.putSession (some session))
  snapshotBytes session "started_ready"

/-- A service that is gone is taken out of the session and waited for. -/
def reapStale (session : AndroidOmniRouteSession) (stale : OmniRouteServiceHandle) :
    GatewayM AndroidOmniRouteSession := do
  perform (.putSession (some { session with service := none }))
  let result ← waitOmnirouteService stale
  let session := { session with service := none, lastExit := some (exitSummary result) }
  perform (.putSession (some session))
  return session

/-- `start_bytes`. -/
def startBytes (arguments : Result StartArguments) : GatewayM ServiceSnapshot := do
  let arguments ← resume arguments
  let session ← openSession arguments.key
  failIf (session.key != arguments.key) "android_host_omniroute_session_identity_mismatch"
  match session.service with
  | none => launchService session arguments.manifestSha
  | some existing =>
    if ← omnirouteServiceActive then
      failIf (existing.runtime.manifestSha256 != arguments.manifestSha)
        "android_host_omniroute_running_manifest_mismatch"
      snapshotBytes session "already_ready"
    else
      let session ← reapStale session existing
      launchService session arguments.manifestSha

/-- The snapshot of a host that never started. -/
def notStarted : ServiceSnapshot where
  schema := 1
  componentId := "omniroute"
  status := "not_started"
  active := false
  ready := false
  processId := none
  baseUrl := none
  runtimeTreeSha256 := none
  signedManifestSha256 := none
  runtimeProfileRoundTripProven := false
  exactModelOnly := false
  hiddenModelReroutesDisabled := false
  probeAttempts := none
  readinessElapsedMs := none
  lastExit := none

/-- `status_bytes`. -/
def statusBytes : GatewayM ServiceSnapshot := do
  match ← perform .session with
  | none => return notStarted
  | some session =>
    let active ← omnirouteServiceActive
    snapshotBytes session
      (if active then "ready"
        else if session.service.isSome then "exited_pending_reap" else "stopped")

/-- The error of a stop without a session. -/
def notStartedError : VibeCoderError := hostError "android_host_omniroute_not_started"

/-- The end of `stop_bytes`. -/
def recordStop (session : AndroidOmniRouteSession) (result : ProcessResult) :
    GatewayM ServiceSnapshot := do
  let session := { session with service := none, lastExit := some (exitSummary result) }
  perform (.putSession (some session))
  snapshotBytes session "stopped"

/-- `stop_bytes`. -/
def stopBytes : GatewayM ServiceSnapshot := do
  match ← perform .session with
  | none => throw notStartedError
  | some session =>
    match session.service with
    | none => snapshotBytes session "already_stopped"
    | some service => do
      perform (.putSession (some { session with service := none }))
      let result ←
        if ← omnirouteServiceActive then stopOmnirouteService service
        else waitOmnirouteService service
      recordStop session result

end VibeCoder.OmniRoute
