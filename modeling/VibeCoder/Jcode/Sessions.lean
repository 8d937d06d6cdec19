/-
  Sessions of the Jcode adapter (`vibecoder-agent-jcode/src/{session,lifecycle,runtime}.rs`).

  One bridge connection is attached to one session at a time.  The adapter caches that in three
  places, the attached session, the binding of each session to its project, and the connection
  generation; Jcode keeps the attachment itself, on the other side of the connection.

  * `Connection`      — the client slot, the generation and the lifecycle state;
  * `SessionRegistry` — bindings and the attached session;
  * `Adapter`         — both, the active-turn slot, and the ghosts: what Jcode acknowledged last on
    the current connection (`upstream`), every binding ever made, and every worker started;
  * `Op`, `exec`      — the steps of the methods; before each one the transport may be lost, an
    ungated status read may notice that, and the active turn may end;
  * the methods, as programs over `Op`.

  Every method here except `verify_session_project_binding` runs under the session gate, so that
  two of them never overlap.  What the methods ask of a second, short-lived connection (the model
  probes) changes nothing here and is one answer each.

  A reported working directory comes with what `fs::canonicalize` answers for it.  Left out: the
  poisoned-lock errors, the model capability flag, and the mapping of SDK errors.
-/
import VibeCoder.Conversation
import VibeCoder.Jcode.TurnRegistry
import VibeCoder.Lib.WeakestPre

namespace VibeCoder.Jcode.Sessions

open Resume

/-! ## Values -/

/-- `ProjectRef`; a path is its text. -/
structure ProjectRef where
  id : ProjectId
  root : String
  deriving DecidableEq, Repr

/-- A directory Jcode reports, with its canonical path if it has one. -/
structure WorkingDir where
  text : String
  canonical : Option String
  deriving DecidableEq, Repr

/-- `SessionInfo`. -/
structure SessionInfo where
  sessionId : String
  workingDir : Option WorkingDir
  deriving DecidableEq, Repr

/-- What the file system answers for a project root. -/
structure RootAnswer where
  canonical : Option String
  isDir : Bool
  utf8 : Bool

/-- `Path::is_absolute`. -/
def isAbsolute (path : String) : Bool := path.toList.head? == some '/'

/-! ## The checks of `session.rs` -/

/-- `canonical_project_root`. -/
def canonicalProjectRoot (project : ProjectRef) (answer : RootAnswer) : Result String :=
  if !isAbsolute project.root then
    .error (.invalidRequest
      "project root must be an absolute path before creating an agent session")
  else
    match answer.canonical with
    | none =>
      .error (.invalidRequest
        "project root must exist and be accessible before creating an agent session")
    | some canonical =>
      if !answer.isDir then
        .error (.invalidRequest "project root must point to a directory")
      else if !answer.utf8 then
        .error (.invalidRequest "project root must be valid UTF-8 for the Jcode harness")
      else .ok canonical

/-- `validate_jcode_session_id`. -/
def validateJcodeSessionId (sessionId : SessionId) : Result Unit :=
  if sessionId.value.isEmpty || decide (len sessionId.value > 128) ||
      !sessionId.value.toList.all (fun ch => (decide (ch.toNat < 128) && ch.isAlphanum) ||
        ch == '_' || ch == '-') then
    .error (.invalidRequest "Jcode session id has an invalid format")
  else .ok ()

/-- `verify_attached_session_id`. -/
def verifyAttachedSessionId (attached : SessionInfo) (expected : Option SessionId) :
    Result SessionId :=
  -- `SessionId::parse`
  if blank attached.sessionId then
    .error (.agent "Jcode returned an invalid session identifier")
  else
    match validateJcodeSessionId ⟨attached.sessionId⟩ with
    | .error _ => .error (.agent "Jcode returned a malformed session identifier")
    | .ok () =>
      match expected with
      | none => .ok ⟨attached.sessionId⟩
      | some sessionId =>
        if ⟨attached.sessionId⟩ ≠ sessionId then
          .error (.agent "Jcode attached a different session than requested")
        else .ok ⟨attached.sessionId⟩

/-- The entries of a listing for one session. -/
def entriesFor (sessions : List SessionInfo) (sessionId : String) : List SessionInfo :=
  sessions.filter (fun candidate => candidate.sessionId == sessionId)

/-- `session_metadata`. -/
def sessionMetadata (sessions : List SessionInfo) (sessionId : SessionId) : Result SessionInfo :=
  match entriesFor sessions sessionId.value with
  | [] =>
    .error (.agent
      "Jcode session metadata is unavailable, so project identity cannot be verified")
  | [metadata] => .ok metadata
  | _ :: _ :: _ => .error (.agent "Jcode returned duplicate metadata for one session")

/-- `verify_session_project`. -/
def verifySessionProject (metadata : SessionInfo) (expectedRoot : String) : Result Unit :=
  match metadata.workingDir with
  | none => .error (.agent "Jcode session did not report a working directory")
  | some dir =>
    if blank dir.text then
      .error (.agent "Jcode session reported an empty working directory")
    else if !isAbsolute dir.text then
      .error (.agent
        "Jcode session reported a relative working directory; project identity is ambiguous")
    else
      match dir.canonical with
      | none => .error (.agent "Jcode session working directory could not be verified")
      | some actual =>
        if actual ≠ expectedRoot then
          .error (.agent "Jcode session working directory does not match the expected project")
        else .ok ()

/-- `corroborate_new_session_project`: a record still being written reports nothing. -/
def corroborateNewSessionProject (sessions : List SessionInfo) (sessionId : SessionId)
    (expectedRoot : String) : Result Unit :=
  match entriesFor sessions sessionId.value with
  | [] => .ok ()
  | [metadata] =>
    match metadata.workingDir with
    | none => .ok ()
    | some _ => verifySessionProject metadata expectedRoot
  | _ :: _ :: _ => .error (.agent "Jcode returned duplicate metadata for one session")

/-! ## The session registry -/

/-- `SessionBinding`. -/
structure SessionBinding where
  projectId : ProjectId
  projectRoot : String
  connectionGeneration : Nat
  deriving DecidableEq, Repr

/-- `SessionRegistryState`. -/
structure SessionRegistry where
  bindings : SessionId → Option SessionBinding
  attachedSession : Option SessionId

namespace SessionRegistry

/-- `SessionRegistry::new()`. -/
def new : SessionRegistry := { bindings := fun _ => none, attachedSession := none }

/-- `is_attached_on_generation`. -/
def isAttachedOnGeneration (r : SessionRegistry) (sessionId : SessionId) (generation : Nat) :
    Bool :=
  r.attachedSession == some sessionId &&
    (r.bindings sessionId).any (fun binding => binding.connectionGeneration == generation)

/-- The session may be bound to this project: it is not bound to another one. -/
def accepts (r : SessionRegistry) (sessionId : SessionId) (projectId : ProjectId)
    (projectRoot : String) : Bool :=
  (r.bindings sessionId).all
    (fun existing => existing.projectId == projectId && existing.projectRoot == projectRoot)

/-- `mark_attached`. -/
def markAttached (r : SessionRegistry) (sessionId : SessionId) (projectId : ProjectId)
    (projectRoot : String) (generation : Nat) : Result Unit × SessionRegistry :=
  if !r.accepts sessionId projectId projectRoot then
    (.error (.invalidRequest "session id is already bound to a different project"), r)
  else
    (.ok (),
      { bindings := Function.update r.bindings sessionId (some {
          projectId := projectId
          projectRoot := projectRoot
          connectionGeneration := generation })
        attachedSession := some sessionId })

/-- `clear_attachment`. -/
def clearAttachment (r : SessionRegistry) : SessionRegistry := { r with attachedSession := none }

end SessionRegistry

/-! ## The connection -/

/-- `JcodeServerIdentity`, the part the adapter reads. -/
structure Identity where
  capabilities : List String
  deriving DecidableEq, Repr

/-- `JcodeConnectionState`. -/
inductive ConnectionState where
  | disconnected
  | connecting
  | connected (identity : Identity)
  | faulted
  deriving DecidableEq, Repr

/-- `JcodeConnectionSnapshot`. -/
structure Snapshot where
  generation : Nat
  state : ConnectionState
  deriving DecidableEq, Repr

/-- `JcodeConnectionManager`: a client in the slot is open or closed by its reader. -/
structure Connection where
  client : Option Bool
  generation : Nat
  state : ConnectionState
  deriving DecidableEq, Repr

namespace Connection

/-- `JcodeConnectionManager::new`. -/
def new : Connection := { client := none, generation := 0, state := .disconnected }

def snapshot (c : Connection) : Snapshot := { generation := c.generation, state := c.state }

/-- `refresh_closed_connection_locked`. -/
def refreshClosed (c : Connection) : Connection :=
  if c.client = some true then { c with client := none, state := .faulted } else c

/-- `disconnect_locked`. -/
def disconnect (c : Connection) : Connection := { c with client := none, state := .disconnected }

/-- `connect_locked`; `opened` is the answer of `open_client`. -/
def connect (c : Connection) (opened : Result Identity) : Result Snapshot × Connection :=
  let c := c.refreshClosed
  match c.state with
  | .connected _ => (.ok c.snapshot, c)
  | .connecting => (.error (.agent "Jcode connection attempt is already in progress"), c)
  | .disconnected | .faulted =>
    match opened with
    | .ok identity =>
      -- `generation.saturating_add(1)`
      let c : Connection :=
        { client := some false
          generation := min (c.generation + 1) u64Max
          state := .connected identity }
      (.ok c.snapshot, c)
    | .error e => (.error e, { c with state := .faulted })

end Connection

/-! ## The adapter -/

/-- What Jcode acknowledged last on the current connection: the session of the reply, the one
    that was asked for (none when it was created), and the directories the listing after it
    reported for that session. -/
structure Upstream where
  sessionId : String
  asked : Option SessionId
  reported : List (Option String)
  deriving DecidableEq, Repr

/-- The directories a listing reports for the session. -/
def Upstream.report (sessions : List SessionInfo) (u : Upstream) : Upstream :=
  { u with
    reported := u.reported ++ (entriesFor sessions u.sessionId).filterMap
      (fun info => info.workingDir.map WorkingDir.canonical) }

/-- A worker that was started, with the binding of its session and what Jcode had acknowledged. -/
structure Started where
  sessionId : SessionId
  binding : Option SessionBinding
  upstream : Option Upstream
  deriving DecidableEq, Repr

/-- The adapter; `upstream`, `bound` and `started` are ghosts. -/
structure Adapter where
  connection : Connection
  sessions : SessionRegistry
  turns : TurnRegistry
  upstream : Option Upstream
  bound : List (SessionId × SessionBinding)
  started : List Started

/-- `JcodeAgentRuntime::new`. -/
def Adapter.new : Adapter :=
  { connection := Connection.new, sessions := SessionRegistry.new, turns := TurnRegistry.new,
    upstream := none, bound := [], started := [] }

/-- What can happen between two steps of a method. -/
inductive Outside where
  /-- The reader notices that the transport is gone. -/
  | transportLost
  /-- `status` is called without the gate. -/
  | statusRead
  /-- The active turn is over. -/
  | turnOver
  deriving DecidableEq

def Outside.apply (a : Adapter) : Outside → Adapter
  | .transportLost =>
    { a with connection := { a.connection with client := a.connection.client.map fun _ => true } }
  | .statusRead => { a with connection := a.connection.refreshClosed }
  | .turnOver => { a with turns := { active := none } }

/-- What the outside answers during one method call: each method asks for at most one root, one
    connection, one attachment, one listing and one thread. -/
structure Replies where
  before : Nat → List Outside
  root : RootAnswer
  opened : Result Identity
  attached : Result SessionInfo
  sessions : Result (List SessionInfo)
  canonical : Nat → Option String
  probe : Nat → Result Unit
  spawned : Bool

/-- Requests that change nothing the model holds, each with the function that makes it. -/
inductive Probe where
  /-- `open_clean_model_client` and the attachment of the second connection. -/
  | openFreshModelClient
  | discoverModels
  | selectModelFromCatalog
  | verifyActiveModel
  deriving DecidableEq

/-- The steps of the methods. -/
inductive Op where
  | hasActive
  | inspectRoot (root : String)
  | canonicalize (path : String)
  | connect
  | disconnect
  | status
  /-- The head of `with_client`, and `clone_client_for_inflight`. -/
  | client
  | binding (sessionId : SessionId)
  | isAttached (sessionId : SessionId) (generation : Nat)
  | markAttached (sessionId : SessionId) (projectId : ProjectId) (projectRoot : String)
      (generation : Nat)
  | clearAttachment
  | createSession (workingDir : String)
  | attachSession (sessionId : SessionId)
  | listSessions
  | probe (what : Probe)
  | beginTurn (sessionId : SessionId) (generation : Nat)
  | startWorker (sessionId : SessionId) (generation : Nat)
  deriving DecidableEq

/-- What a step answers when it does not fail. -/
abbrev Op.Val : Op → Type
  | .hasActive | .isAttached _ _ => Bool
  | .inspectRoot _ => RootAnswer
  | .canonicalize _ => Option String
  | .connect | .disconnect | .status => Snapshot
  | .binding _ => Option SessionBinding
  | .createSession _ | .attachSession _ => SessionInfo
  | .listSessions => List SessionInfo
  | .client | .markAttached _ _ _ _ | .clearAttachment | .probe _ | .beginTurn _ _
  | .startWorker _ _ => Unit

/-- A method of the adapter. -/
abbrev AdapterM : Type → Type := Prog VibeCoderError Op Op.Val

namespace Adapter

/-- Jcode acknowledged an attachment. -/
def acknowledge (a : Adapter) (asked : Option SessionId) (reply : Result SessionInfo) : Adapter :=
  match reply with
  | .error _ => a
  | .ok info =>
    { a with upstream := some { sessionId := info.sessionId, asked := asked, reported := [] } }

/-- Jcode reported the directories of its sessions. -/
def report (a : Adapter) (reply : Result (List SessionInfo)) : Adapter :=
  match reply with
  | .error _ => a
  | .ok sessions =>
    { a with upstream := a.upstream.map (Upstream.report sessions) }

/-- One step after what happened before it. -/
def perform (r : Replies) (n : Nat) (a : Adapter) : (o : Op) → Result o.Val × Adapter
  | .hasActive => (.ok a.turns.hasActive, a)
  | .inspectRoot _ => (.ok r.root, a)
  | .canonicalize _ => (.ok (r.canonical n), a)
  | .connect =>
    ((a.connection.connect r.opened).1, { a with
      connection := (a.connection.connect r.opened).2
      upstream := match a.connection.refreshClosed.state, r.opened with
        -- a new connection is attached to nothing
        | .disconnected, .ok _ | .faulted, .ok _ => none
        | _, _ => a.upstream })
  | .disconnect =>
    (.ok a.connection.disconnect.snapshot, { a with connection := a.connection.disconnect })
  | .status =>
    (.ok a.connection.refreshClosed.snapshot, { a with connection := a.connection.refreshClosed })
  | .client =>
    (if a.connection.refreshClosed.client.isSome then .ok ()
      else .error (.agent "Jcode operation requires an active connection"),
      { a with connection := a.connection.refreshClosed })
  | .binding sessionId => (.ok (a.sessions.bindings sessionId), a)
  | .isAttached sessionId generation =>
    (.ok (a.sessions.isAttachedOnGeneration sessionId generation), a)
  | .markAttached sessionId projectId projectRoot generation =>
    match a.sessions.markAttached sessionId projectId projectRoot generation with
    | (.error e, _) => (.error e, a)
    | (.ok (), sessions) =>
      let binding : SessionBinding :=
        { projectId := projectId
          projectRoot := projectRoot
          connectionGeneration := generation }
      (.ok (), { a with sessions := sessions, bound := (sessionId, binding) :: a.bound })
  | .clearAttachment => (.ok (), { a with sessions := a.sessions.clearAttachment })
  | .createSession _ => (r.attached, a.acknowledge none r.attached)
  | .attachSession sessionId => (r.attached, a.acknowledge (some sessionId) r.attached)
  | .listSessions => (r.sessions, a.report r.sessions)
  | .probe _ => (r.probe n, a)
  | .beginTurn sessionId generation =>
    ((a.turns.begin sessionId generation).1,
      { a with turns := (a.turns.begin sessionId generation).2 })
  | .startWorker sessionId generation =>
    let started : Started :=
      { sessionId := sessionId
        binding := a.sessions.bindings sessionId
        upstream := a.upstream }
    if r.spawned then (.ok (), { a with started := started :: a.started })
    else
      -- the lease is dropped on the way out
      (.error (.agent "could not start the isolated Jcode turn worker"),
        { a with turns := a.turns.forceClear sessionId generation })

/-- The meaning of a step: first the outside, then the step. -/
def exec (w : Replies × Nat) (o : Op) (a : Adapter) : Result o.Val × Adapter :=
  ((w.1.before w.2).foldl Outside.apply a).perform w.1 w.2 o

end Adapter

/-! ## The methods -/

/-- One step of a method. -/
def ask (o : Op) : AdapterM o.Val := attempt o

/-- `if c { return Err(e) }`. -/
def refuseIf (c : Bool) (e : VibeCoderError) : AdapterM Unit :=
  resume (if c then .error e else .ok ())

/-- `if c { p }`. -/
def onlyIf (c : Bool) (p : AdapterM Unit) : AdapterM Unit := if c then p else pure ()

/-- `.ok_or_else(|| e)?`. -/
def requireSome {α : Type} (a : Option α) (e : VibeCoderError) : AdapterM α :=
  resume (match a with
    | some a => .ok a
    | none => .error e)

/-- `if self.turns.has_active()? { return Err(e) }`. -/
def refuseWhileActive (message : String) : AdapterM Unit := do
  let active ← ask .hasActive
  refuseIf active (.invalidRequest message)

/-- `canonical_project_root(project)?`. -/
def projectRoot (project : ProjectRef) : AdapterM String := do
  let answer ← ask (.inspectRoot project.root)
  resume (canonicalProjectRoot project answer)

/-- `ensure_session_transport`. -/
def ensureSessionTransport : AdapterM Nat := do
  let snapshot ← ask .connect
  match snapshot.state with
  | .connected identity => do
    refuseIf (!identity.capabilities.contains "sessions")
      (.missingCapability "Jcode harness" "sessions")
    pure snapshot.generation
  | .disconnected | .connecting | .faulted =>
    throw (.agent "Jcode session operation requires a healthy connected harness")

/-- `reset_unverified_attachment`. -/
def resetUnverifiedAttachment : AdapterM Unit := do
  let _ ← settle (ask .disconnect)
  let _ ← settle (ask .clearAttachment)
  pure ()

/-- The closure with which `attach_verified` and `ensure_bound_session_attached` attach a
    session and have its project reported. -/
def attachAndVerify (sessionId : SessionId) (expectedRoot : String) : AdapterM SessionId := do
  ask .client
  let attached ← ask (.attachSession sessionId)
  let actual ← resume (verifyAttachedSessionId attached (some sessionId))
  let sessions ← ask .listSessions
  let metadata ← resume (sessionMetadata sessions actual)
  resume (verifySessionProject metadata expectedRoot)
  pure actual

/-- `attach_verified`. -/
def attachVerified (project : ProjectRef) (sessionId : SessionId) (expectedRoot : String)
    (generation : Nat) : AdapterM Unit := do
  match ← settle (attachAndVerify sessionId expectedRoot) with
  | .ok actual => ask (.markAttached actual project.id expectedRoot generation)
  | .error e => do
    resetUnverifiedAttachment
    throw e

/-- The bound root still names itself. -/
def boundRootUnchanged (binding : SessionBinding) : AdapterM Unit := do
  let root ← ask (.canonicalize binding.projectRoot)
  let root ← requireSome root (.invalidRequest
    "bound project root is no longer accessible; resume the session explicitly")
  refuseIf (root != binding.projectRoot)
    (.invalidRequest "bound project root identity changed; resume the session explicitly")

/-- `ensure_bound_session_attached`. -/
def ensureBoundSessionAttached (sessionId : SessionId) (binding : SessionBinding)
    (generation : Nat) : AdapterM Unit := do
  let attached ← ask (.isAttached sessionId generation)
  if attached then pure ()
  else do
    boundRootUnchanged binding
    match ← settle (attachAndVerify sessionId binding.projectRoot) with
    | .ok actual =>
      ask (.markAttached actual binding.projectId binding.projectRoot generation)
    | .error e => do
      resetUnverifiedAttachment
      throw e

/-- `open_fresh_model_client`. -/
def openFreshModelClient (binding : SessionBinding) : AdapterM Unit := do
  boundRootUnchanged binding
  ask .client
  ask (.probe .openFreshModelClient)

/-- `verify_transport_generation`. -/
def verifyTransportGeneration (expected : Nat) : AdapterM Unit := do
  let snapshot ← ask .status
  match snapshot.state with
  | .connected _ =>
    refuseIf (snapshot.generation != expected)
      (.agent "Jcode owner transport changed during model discovery")
  | .disconnected | .connecting | .faulted =>
    throw (.agent "Jcode owner transport changed during model discovery")

/-- `connect`. -/
def connect : AdapterM Unit := do
  refuseWhileActive "cannot connect/recover Jcode while a turn is active; cancel the turn first"
  let _ ← ask .connect
  pure ()

/-- `disconnect`. -/
def disconnect : AdapterM Unit := do
  refuseWhileActive "cannot disconnect Jcode while a turn is active; cancel the turn first"
  let _ ← ask .disconnect
  ask .clearAttachment

/-- `reconnect`. -/
def reconnect : AdapterM Unit := do
  refuseWhileActive "cannot reconnect Jcode while a turn is active; cancel the turn first"
  let _ ← ask .disconnect
  let _ ← ask .connect
  ask .clearAttachment

/-- `create_session`. -/
def createSession (project : ProjectRef) (model : Option ModelRef) : AdapterM SessionId := do
  refuseIf model.isSome (.invalidRequest
    "Jcode model selection is session-scoped and not atomic with session creation; create the session, then select its model")
  refuseWhileActive "cannot create a Jcode session while a turn is active"
  let expectedRoot ← projectRoot project
  let generation ← ensureSessionTransport
  let verification ← settle do
    ask .client
    let attached ← ask (.createSession expectedRoot)
    let sessionId ← resume (verifyAttachedSessionId attached none)
    let sessions ← ask .listSessions
    resume (corroborateNewSessionProject sessions sessionId expectedRoot)
    pure sessionId
  match verification with
  | .ok sessionId => do
    ask (.markAttached sessionId project.id expectedRoot generation)
    pure sessionId
  | .error e => do
    resetUnverifiedAttachment
    throw e

/-- `resume_session`. -/
def resumeSession (project : ProjectRef) (sessionId : SessionId) : AdapterM Unit := do
  resume (validateJcodeSessionId sessionId)
  refuseWhileActive "cannot resume a Jcode session while a turn is active"
  let expectedRoot ← projectRoot project
  let generation ← ensureSessionTransport
  match ← ask (.binding sessionId) with
  | some binding => do
    refuseIf (binding.projectId != project.id || binding.projectRoot != expectedRoot)
      (.invalidRequest "session is already bound to a different project")
    let attached ← ask (.isAttached sessionId generation)
    if attached then pure () else attachVerified project sessionId expectedRoot generation
  | none => attachVerified project sessionId expectedRoot generation

/-- `verify_session_project_binding`. -/
def verifySessionProjectBinding (project : ProjectRef) (sessionId : SessionId) :
    AdapterM Unit := do
  resume (validateJcodeSessionId sessionId)
  let expectedRoot ← projectRoot project
  let binding ← ask (.binding sessionId)
  let binding ← requireSome binding (.invalidRequest
    "Jcode session has no verified project binding in this app process")
  refuseIf (binding.projectId != project.id || binding.projectRoot != expectedRoot)
    (.invalidRequest "Jcode session is bound to a different project")
  let snapshot ← ask .status
  match snapshot.state with
  | .connected _ => do
    let attached ← ask (.isAttached sessionId snapshot.generation)
    refuseIf (binding.connectionGeneration != snapshot.generation || !attached)
      (.agent "Jcode session project binding is stale on the current connection generation")
  | .disconnected | .connecting | .faulted =>
    throw (.agent
      "Jcode session project binding cannot be authorized without an active connection")

/-- `refresh_session_after_workspace_replacement`. -/
def refreshSessionAfterWorkspaceReplacement (project : ProjectRef) (sessionId : SessionId) :
    AdapterM Unit := do
  resume (validateJcodeSessionId sessionId)
  let expectedRoot ← projectRoot project
  refuseWhileActive "cannot refresh Jcode workspace identity while a turn is active"
  let generation ← ensureSessionTransport
  -- cached attachment state is no proof: the directory was replaced
  ask .clearAttachment
  attachVerified project sessionId expectedRoot generation

/-- The catalog of a session, from a fresh connection. -/
def discoverSessionModels (binding : SessionBinding) (generation : Nat) : AdapterM Unit := do
  openFreshModelClient binding
  ask (.probe .discoverModels)
  verifyTransportGeneration generation

/-- The model is set on the attached session, and a fresh connection reports it. -/
def selectSessionModel (binding : SessionBinding) (generation : Nat) : AdapterM Unit := do
  ask .client
  ask (.probe .selectModelFromCatalog)
  openFreshModelClient binding
  ask (.probe .verifyActiveModel)
  verifyTransportGeneration generation

/-- `list_models`. -/
def listModels (sessionId : SessionId) : AdapterM Unit := do
  resume (validateJcodeSessionId sessionId)
  refuseWhileActive "cannot inspect the Jcode model catalog while a turn is active"
  let generation ← ensureSessionTransport
  let binding ← ask (.binding sessionId)
  let binding ← requireSome binding (.invalidRequest
    "session must be created or resumed before discovering its models")
  discoverSessionModels binding generation

/-- `corroborate_model_identity`, and `set_model`; `model` has passed `validate_model_ref`. -/
def corroborateModelIdentity (sessionId : SessionId) : AdapterM Unit := do
  resume (validateJcodeSessionId sessionId)
  refuseWhileActive "cannot change the Jcode model while a turn is active"
  let generation ← ensureSessionTransport
  let binding ← ask (.binding sessionId)
  let binding ← requireSome binding (.invalidRequest
    "session must be created or resumed before selecting its model")
  discoverSessionModels binding generation
  ensureBoundSessionAttached sessionId binding generation
  selectSessionModel binding generation

/-- `run_turn` up to the start of its worker; `options.model` has passed `validate_model_ref`. -/
def runTurn (sessionId : SessionId) (prompt : String) (model : Option ModelRef) :
    AdapterM Unit := do
  resume (validateJcodeSessionId sessionId)
  refuseIf (blank prompt) (.invalidRequest "agent turn prompt cannot be empty")
  refuseWhileActive "a Jcode turn is already active on this connection"
  let generation ← ensureSessionTransport
  let connection ← ask .status
  match connection.state with
  | .connected identity => do
    refuseIf (connection.generation != generation)
      (.agent "Jcode transport changed while preparing the turn")
    refuseIf (!identity.capabilities.contains "streaming")
      (.missingCapability "Jcode harness" "streaming")
    let binding ← ask (.binding sessionId)
    let binding ← requireSome binding (.invalidRequest
      "session must be created or resumed before running a turn")
    onlyIf model.isSome (discoverSessionModels binding generation)
    ensureBoundSessionAttached sessionId binding generation
    onlyIf model.isSome (selectSessionModel binding generation)
    ask .client
    ask (.beginTurn sessionId generation)
    ask (.startWorker sessionId generation)
  | .disconnected | .connecting | .faulted =>
    throw (.agent "Jcode transport changed while preparing the turn")

/-- A call of one of the methods. -/
inductive Call where
  | connect
  | disconnect
  | reconnect
  | createSession (project : ProjectRef) (model : Option ModelRef)
  | resumeSession (project : ProjectRef) (sessionId : SessionId)
  | verifySessionProjectBinding (project : ProjectRef) (sessionId : SessionId)
  | refreshSession (project : ProjectRef) (sessionId : SessionId)
  | runTurn (sessionId : SessionId) (prompt : String) (model : Option ModelRef)
  | listModels (sessionId : SessionId)
  | corroborateModelIdentity (sessionId : SessionId)

/-- The method a call runs. -/
def Call.program : Call → AdapterM Unit
  | .connect => Sessions.connect
  | .disconnect => Sessions.disconnect
  | .reconnect => Sessions.reconnect
  | .createSession project model => do
    let _ ← Sessions.createSession project model
    pure ()
  | .resumeSession project sessionId => Sessions.resumeSession project sessionId
  | .verifySessionProjectBinding project sessionId =>
    Sessions.verifySessionProjectBinding project sessionId
  | .refreshSession project sessionId =>
    refreshSessionAfterWorkspaceReplacement project sessionId
  | .runTurn sessionId prompt model => Sessions.runTurn sessionId prompt model
  | .listModels sessionId => Sessions.listModels sessionId
  | .corroborateModelIdentity sessionId => Sessions.corroborateModelIdentity sessionId

end VibeCoder.Jcode.Sessions
