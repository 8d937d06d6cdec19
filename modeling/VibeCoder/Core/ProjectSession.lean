/-
  The methods of the core that write a project's state: creating its agent session, and setting its
  model and its route policy (`VibeCoderCore`, `vibecoder-core`).

  A call is a program (`SessionM`) over the operations below, each of which is one indivisible step;
  the calls share the lifecycle gate and the project state store, and any of them can go on between
  two operations of another.  The agent and the workspace can fail at every operation.

  A `ProjectRef` is its `ProjectId`.  Left out: the faults of the store's file system, and the lock of
  the gate, which no call leaves poisoned.
-/
import VibeCoder.Core.Operations
import VibeCoder.Core.ProjectState

namespace VibeCoder.ProjectSession

open Resume

/-! ## Operations -/

/-- What a call asks for. -/
inductive Op where
  /-- `ProjectLifecycleGate::try_acquire`, and the drop of its permit. -/
  | acquire (project : ProjectId)
  | release (project : ProjectId)
  | verifyProject (project : ProjectId)
  | openProject (project : ProjectId)
  | loadProjectState (project : ProjectId)
  | updateProjectState (expected : Nat) (state : PersistedProjectState)
  | createSession (project : ProjectId)
  | resumeSession (project : ProjectId) (session : SessionId)
  | setModel (session : SessionId) (model : ModelRef)

/-- What an operation answers when it does not fail. -/
abbrev Op.Val : Op → Type
  | .acquire _ | .release _ | .verifyProject _ | .openProject _ | .resumeSession _ _
  | .setModel _ _ => Unit
  | .loadProjectState _ => Option PersistedProjectState
  | .updateProjectState _ _ => PersistedProjectState
  | .createSession _ => SessionId

/-- A call. -/
abbrev SessionM : Type → Type := Prog VibeCoderError Op Op.Val

def perform (o : Op) : SessionM o.Val := attempt o

/-! ## Programs -/

/-- `let _lifecycle = self.project_lifecycle_gate.try_acquire(project.id)?;` before a body. -/
def holdingGate {α : Type} (project : ProjectId) (body : SessionM α) : SessionM α := do
  perform (.acquire project)
  let result ← settle body
  perform (.release project)
  resume result

/-- `project_state_store()?`. -/
def projectStateStore (config : CoreConfig) : SessionM Unit :=
  if config.projectStateStore then pure ()
  else throw (.missingCapability "project state store" "project_session_persistence")

/-- `store.load_project_state(..).await?.ok_or_else(..)?`. -/
def loadProjectState (project : ProjectId) : SessionM PersistedProjectState := do
  match ← perform (.loadProjectState project) with
  | some state => pure state
  | none => throw (persistenceError "project_state_not_found")

/-- A creation that may be half done refuses everything else. -/
def refusePending (state : PersistedProjectState) : SessionM Unit :=
  if state.sessionCreationPending then
    throw (persistenceError "project_session_creation_incomplete")
  else pure ()

/-- `open_persisted_project`. -/
def openPersistedProject (config : CoreConfig) (project : ProjectId) :
    SessionM PersistedProjectState := do
  projectStateStore config
  let state ← loadProjectState project
  perform (.openProject project)
  pure state

/-- The record with the marker set or cleared. -/
def withCreationPending (state : PersistedProjectState) (pending : Bool) : PersistedProjectState :=
  { state with sessionCreationPending := pending }

/-- The session that a start binds. -/
def boundSession (config : CoreConfig) (session : SessionId) : PersistedAgentSession :=
  { runtimeId := config.runtimeId, sessionId := session, preferredModel := none }

/-- The record with that session, and the marker cleared. -/
def withSession (config : CoreConfig) (state : PersistedProjectState) (session : SessionId) :
    PersistedProjectState :=
  { withCreationPending state false with agentSession := some (boundSession config session) }

/-- What `start_persisted_project_session` does once the record is marked. -/
def createMarkedSession (config : CoreConfig) (project : ProjectId)
    (state : PersistedProjectState) : SessionM SessionId := do
  match ← settle (perform (.createSession project)) with
  | .error e => do
    let cleared := withCreationPending state false
    match ← settle (perform (.updateProjectState state.revision cleared)) with
    | .error _ => throw (persistenceError "project_session_pending_clear_failed")
    | .ok _ => throw e
  | .ok session => do
    let bound := withSession config state session
    match ← settle (perform (.updateProjectState state.revision bound)) with
    | .error _ => throw (persistenceError "project_session_persistence_incomplete_after_create")
    | .ok _ => pure session

/-- `start_persisted_project_session`. -/
def startPersistedProjectSession (config : CoreConfig) (project : ProjectId) :
    SessionM SessionId :=
  holdingGate project do
    projectStateStore config
    perform (.verifyProject project)
    let state ← loadProjectState project
    refusePending state
    if state.agentSession.isSome then
      throw (persistenceError "project_session_already_persisted")
    let state ← perform (.updateProjectState state.revision (withCreationPending state true))
    createMarkedSession config project state

/-- The session of a record, which must be one of this agent runtime. -/
def ownSession (config : CoreConfig) (state : PersistedProjectState) :
    Result PersistedAgentSession :=
  match state.agentSession with
  | none => .error (persistenceError "project_session_not_persisted")
  | some session =>
    if session.runtimeId ≠ config.runtimeId then
      .error (persistenceError "project_session_runtime_mismatch")
    else .ok session

/-- The target that a model stands for. -/
def modelTarget (model : ModelRef) : ModelRouteTargetConfig :=
  { modelId := model.id, provider := model.provider }

/-- The record with a preferred model in its session. -/
def withModel (state : PersistedProjectState) (target : ModelRouteTargetConfig) :
    PersistedProjectState :=
  { state with
    agentSession := state.agentSession.map (fun session =>
      { session with preferredModel := some target }) }

/-- `set_persisted_session_model`. -/
def setPersistedSessionModel (config : CoreConfig) (project : ProjectId) (model : ModelRef) :
    SessionM Unit :=
  holdingGate project do
    let state ← openPersistedProject config project
    refusePending state
    let session ← resume (ownSession config state)
    perform (.resumeSession project session.sessionId)
    resume (validateTarget (modelTarget model))
    let _ ← perform (.updateProjectState state.revision (withModel state (modelTarget model)))
    perform (.setModel session.sessionId model)

/-- The record with a route policy. -/
def withPolicy (state : PersistedProjectState) (policy : Option ModelRoutePolicyConfig) :
    PersistedProjectState :=
  { state with routePolicy := policy }

/-- `set_persisted_route_policy`; it takes no permit. -/
def setPersistedRoutePolicy (config : CoreConfig) (project : ProjectId)
    (policy : Option ModelRoutePolicyConfig) : SessionM PersistedProjectState := do
  projectStateStore config
  perform (.openProject project)
  match policy with
  | some policy => resume policy.validate
  | none => pure ()
  let state ← loadProjectState project
  refusePending state
  perform (.updateProjectState state.revision (withPolicy state policy))

/-! ## The shared state -/

/-- What the calls share.  `created` is the session that the agent has created for a call, and
    `accepted` lists the updates that the store has accepted, each with the call it was from. -/
structure Shared (ι : Type) where
  gate : ProjectId → Option ι
  states : ProjectStateTable
  created : ι → Option SessionId
  accepted : ProjectId → List (ι × PersistedProjectState)

/-- The outside of one step: a fault of the workspace, a fault of the agent, and the id that the
    agent gives a session. -/
structure World where
  fault : Option VibeCoderError
  agentFault : Option VibeCoderError
  session : SessionId

/-- An answer, unless a fault comes first. -/
def orFault {α : Type} (fault : Option VibeCoderError) (answer : α) : Result α :=
  match fault with
  | some e => .error e
  | none => .ok answer

/-- One operation of call `i`. -/
def exec {ι : Type} [DecidableEq ι] (i : ι) (w : World) (o : Op) (s : Shared ι) :
    Result o.Val × Shared ι :=
  match o with
  | .acquire p =>
    if (s.gate p).isSome then (.error (.invalidRequest "project_lifecycle_busy"), s)
    else (.ok (), { s with gate := Function.update s.gate p (some i) })
  | .release p => (.ok (), { s with gate := Function.update s.gate p none })
  | .verifyProject _ | .openProject _ => (orFault w.fault (), s)
  | .loadProjectState p => (.ok (s.states.get p), s)
  | .updateProjectState expected state =>
    match s.states.update expected state with
    | .error e => (.error e, s)
    | .ok (committed, states) =>
      (.ok committed, { s with
        states := states
        accepted := Function.update s.accepted state.projectId
          (s.accepted state.projectId ++ [(i, committed)]) })
  | .createSession _ =>
    match w.agentFault with
    | some e => (.error e, s)
    | none => (.ok w.session, { s with created := Function.update s.created i (some w.session) })
  | .resumeSession _ _ | .setModel _ _ => (orFault w.agentFault (), s)

end VibeCoder.ProjectSession
