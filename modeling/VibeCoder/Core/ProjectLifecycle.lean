/-
  Creating and removing projects and conversations (`VibeCoderCore`, with the methods of
  `vibecoder-workspace-local` and `vibecoder-persistence-local` that these calls reach).

  A project lives in three places: its directory, the record in the state store, and the files in
  the conversation store.  A call changes one after the other.

  1. **Requests** — one for each step that can fail; a request that fails changes nothing.  A
     write that fails after it took effect is two requests, the write and the `fsync` after it.
  2. **Clean-up** — a request is marked when it is made on an error path to undo something
     (`cleanup`); such a request does not fail.
  3. **The calls** — `createPersistedProject`, `createPersistedConversation`,
     `removePersistedProject`.

  The directory of a project is there or not; the checks of its path are in `Workspace.Files`.  The
  size of a state record needs no check (`encodedBytes_le`).  Left out: the temporary files, which
  the stores remove when they do not rename them.
-/
import VibeCoder.Checkpoint.Store
import VibeCoder.CommandPolicy
import VibeCoder.Core.Operations
import VibeCoder.Core.TurnCapacity
import VibeCoder.Workspace.Paths

namespace VibeCoder.Lifecycle

open Resume Checkpoint Workspace TurnCapacity

/-! ## The stores -/

/-- The directories, the state records, the conversation files and the command policy. -/
structure Managed where
  directories : ProjectId → Bool
  states : ProjectId → Option PersistedProjectState
  /-- The files in the order in which the directory lists them. -/
  conversations : List PersistedConversation
  policy : CommandPolicyState

/-- Nothing is there yet. -/
def Managed.new : Managed where
  directories := fun _ => false
  states := fun _ => none
  conversations := []
  policy := CommandPolicyState.empty

/-- The file has the name of this conversation. -/
def isFile (p : ProjectId) (id : ConversationId) (c : PersistedConversation) : Bool :=
  c.projectId == p && c.conversationId == id

namespace Managed

/-- The directory of a project is there, or not. -/
def setDirectory (s : Managed) (p : ProjectId) (there : Bool) : Managed :=
  { s with directories := Function.update s.directories p there }

/-- The state record of a project, or none. -/
def setState (s : Managed) (p : ProjectId) (state : Option PersistedProjectState) : Managed :=
  { s with states := Function.update s.states p state }

/-- Without one conversation file. -/
def unlink (s : Managed) (p : ProjectId) (id : ConversationId) : Managed :=
  { s with conversations := s.conversations.filter (fun c => !isFile p id c) }

/-- A conversation file, in place of the one with its name. -/
def rename (s : Managed) (c : PersistedConversation) : Managed :=
  { s with conversations := (s.unlink c.projectId c.conversationId).conversations ++ [c] }

/-- Another command policy. -/
def setPolicy (s : Managed) (policy : CommandPolicyState) : Managed := { s with policy := policy }

end Managed

/-! ## Requests -/

/-- A step that can fail. -/
inductive Op where
  | tryAcquire (p : ProjectId)
  | newUuid
  /-- `fs::create_dir`; the answer is false when the directory is there. -/
  | createDir (p : ProjectId)
  /-- The symlink and containment checks of `verify_project_sync`. -/
  | verifyRoot (p : ProjectId)
  | removeDir (p : ProjectId)
  | removeDirAll (p : ProjectId)
  | exists (p : ProjectId)
  /-- The record, or only whether there is one; `load_project_state` finds it valid, since it was
      when it was written. -/
  | loadState (p : ProjectId)
  | renameState (state : PersistedProjectState)
  | unlinkState (p : ProjectId)
  | syncStates
  | loadConversation (p : ProjectId) (id : ConversationId)
  | readConversations
  | renameConversation (c : PersistedConversation)
  | unlinkConversation (p : ProjectId) (id : ConversationId)
  | syncConversations
  | activeForProject (p : ProjectId)
  | ensureWorkspaceQuiescent (p : ProjectId)
  | invalidateAuthorizations (p : ProjectId)
  | revokePending (session : SessionId)
  | createSession (p : ProjectId)
  deriving DecidableEq

/-- A step, and whether it undoes something. -/
structure Request where
  op : Op
  cleanup : Bool

/-- What a step answers when it does not fail. -/
abbrev Op.Val : Op → Type
  | .tryAcquire _ | .removeDir _ | .removeDirAll _ | .renameState _ | .unlinkState _
  | .syncStates | .renameConversation _ | .unlinkConversation _ _ | .syncConversations
  | .ensureWorkspaceQuiescent _ | .invalidateAuthorizations _ | .revokePending _ => Unit
  | .newUuid => BitVec 128
  | .createDir _ | .verifyRoot _ | .exists _ => Bool
  | .loadState _ => Option PersistedProjectState
  | .loadConversation _ _ => Option PersistedConversation
  | .readConversations => List (ProjectId × ConversationId)
  | .activeForProject _ => Nat
  | .createSession _ => SessionId

abbrev Request.Val (r : Request) : Type := r.op.Val

/-- What the surroundings decide about one step. -/
structure World where
  fault : Option VibeCoderError
  uuid : BitVec 128
  session : SessionId
  active : Nat

namespace Managed

/-- A step that does not fail by itself. -/
def perform (s : Managed) (w : World) : (o : Op) → Result o.Val × Managed
  | .tryAcquire _ | .ensureWorkspaceQuiescent _ | .syncStates | .syncConversations => (.ok (), s)
  | .newUuid => (.ok w.uuid, s)
  | .createDir p => (.ok (!s.directories p), s.setDirectory p true)
  | .verifyRoot p | .exists p => (.ok (s.directories p), s)
  | .removeDir p | .removeDirAll p => (.ok (), s.setDirectory p false)
  | .loadState p => (.ok (s.states p), s)
  | .renameState state => (.ok (), s.setState state.projectId (some state))
  | .unlinkState p => (.ok (), s.setState p none)
  | .loadConversation p id => (.ok (s.conversations.find? (isFile p id)), s)
  | .readConversations =>
    (.ok (s.conversations.map (fun c => (c.projectId, c.conversationId))), s)
  | .renameConversation c => (.ok (), s.rename c)
  | .unlinkConversation p id => (.ok (), s.unlink p id)
  | .activeForProject _ => (.ok w.active, s)
  | .invalidateAuthorizations p =>
    ((s.policy.invalidateProjectAuthorizations p).1,
      s.setPolicy (s.policy.invalidateProjectAuthorizations p).2)
  | .revokePending session =>
    ((s.policy.revokePendingForSession session).1.map (fun _ => ()),
      s.setPolicy (s.policy.revokePendingForSession session).2)
  | .createSession _ => (.ok w.session, s)

end Managed

/-- The meaning of a request. -/
def exec (w : World) (r : Request) (s : Managed) : Result r.Val × Managed :=
  match w.fault with
  | some e => if r.cleanup then s.perform w r.op else (.error e, s)
  | none => s.perform w r.op

/-- A call, or a part of one. -/
abbrev LifecycleM : Type → Type := Prog VibeCoderError Request Request.Val

/-- One step. -/
def ask (cleanup : Bool) (o : Op) : LifecycleM o.Val :=
  attempt ({ op := o, cleanup := cleanup } : Request)

/-- `if c { return Err(e) }`. -/
def refuseIf (c : Bool) (e : VibeCoderError) : LifecycleM Unit :=
  resume (if c then .error e else .ok ())

/-! ## The workspace -/

/-- `verify_project_sync`. -/
def verifyProject (cleanup : Bool) (project : ProjectRef) : LifecycleM Path := do
  let expected := expectedProjectRoot project.id
  refuseIf (project.root != expected) (workspaceError "project_root_does_not_match_project_id")
  let found ← ask cleanup (.verifyRoot project.id)
  refuseIf (!found) (workspaceError "project_root_unavailable")
  pure expected

/-- `create_project_sync`. -/
def createProject (id : ProjectId) : LifecycleM ProjectRef := do
  let created ← ask false (.createDir id)
  refuseIf (!created) (workspaceError "project_already_exists")
  let project : ProjectRef := { id := id, root := expectedProjectRoot id }
  match ← settle (verifyProject false project) with
  | .ok _ => pure project
  | .error e => do
    ask true (.removeDir id)
    throw e

/-- `Path::exists`, which takes a failure for absence. -/
def pathExists (cleanup : Bool) (p : ProjectId) : LifecycleM Bool := do
  match ← settle (ask cleanup (.exists p)) with
  | .ok there => pure there
  | .error _ => pure false

/-- `remove_project_sync`. -/
def removeProject (cleanup : Bool) (project : ProjectRef) : LifecycleM Unit := do
  let verified ← verifyProject cleanup project
  refuseIf (verified == projectsRoot || verified == [])
    (workspaceError "refusing_to_remove_workspace_root")
  ask cleanup (.removeDirAll project.id)
  let left ← pathExists cleanup project.id
  refuseIf left (workspaceError "project_remove_incomplete")

/-! ## The project state store -/

/-- `PersistedProjectState::new`. -/
def newProjectState (p : ProjectId) : PersistedProjectState where
  schema := projectStateSchemaV1
  revision := 0
  projectId := p
  sessionCreationPending := false
  agentSession := none
  routePolicy := none

/-- `create_project_state`. -/
def createProjectState (state : PersistedProjectState) : LifecycleM Unit := do
  resume state.validate
  refuseIf (state.revision != 0) (persistenceError "project_state_create_revision_invalid")
  let found ← ask false (.loadState state.projectId)
  refuseIf found.isSome (persistenceError "project_state_already_exists")
  ask false (.renameState state)
  ask false .syncStates

/-- `load_project_state(..)?.ok_or_else(..)?`. -/
def loadProjectState (p : ProjectId) : LifecycleM PersistedProjectState := do
  match ← ask false (.loadState p) with
  | some state => pure state
  | none => throw (persistenceError "project_state_not_found")

/-- `remove_project_state`. -/
def removeProjectState (p : ProjectId) : LifecycleM Unit := do
  let found ← ask false (.loadState p)
  if found.isNone then pure ()
  else do
    ask false (.unlinkState p)
    ask false .syncStates

/-! ## The conversation store -/

def maxStateDirectoryEntries : Nat := 8192

/-- The loop of `list_conversation_ids`. -/
def collectIds (p : ProjectId) (maxConversations : Nat) :
    List (ProjectId × ConversationId) → (entriesSeen : Nat) → List ConversationId →
      Result (List ConversationId)
  | [], _, ids => .ok ids
  | (q, id) :: entries, entriesSeen, ids =>
    if entriesSeen + 1 > maxStateDirectoryEntries then
      .error (persistenceError "conversation_directory_too_large")
    else if q = p then
      if ids.length + 1 > maxConversations then
        .error (persistenceError "conversation_list_limit_exceeded")
      else collectIds p maxConversations entries (entriesSeen + 1) (ids ++ [id])
    else collectIds p maxConversations entries (entriesSeen + 1) ids

/-- `list_conversation_ids`; the order is that of the ids as text. -/
def listConversationIds (p : ProjectId) (maxConversations : Nat) :
    LifecycleM (List ConversationId) := do
  let entries ← ask false .readConversations
  let ids ← resume (collectIds p maxConversations entries 0 [])
  pure (ids.mergeSort (fun a b => decide (hyphenated a.uuid ≤ hyphenated b.uuid)))

/-- `save_conversation`. -/
def saveConversation (c : PersistedConversation) : LifecycleM Unit := do
  refuseIf (decide (c.encodedBytes > maxPersistedConversationBytes))
    (persistenceError "conversation_too_large")
  ask false (.renameConversation c)
  ask false .syncConversations

/-- `create_conversation`. -/
def createConversation (c : PersistedConversation) : LifecycleM Unit := do
  resume c.validate
  refuseIf (c.revision != 0) (persistenceError "conversation_create_revision_invalid")
  let found ← ask false (.loadConversation c.projectId c.conversationId)
  refuseIf found.isSome (persistenceError "conversation_already_exists")
  let ids ← listConversationIds c.projectId maxPersistedConversationsPerProject
  refuseIf (decide (ids.length ≥ maxPersistedConversationsPerProject))
    (persistenceError "conversation_limit_exceeded")
  saveConversation c

/-- `update_conversation`. -/
def updateConversation (expected : Nat) (c : PersistedConversation) :
    LifecycleM PersistedConversation := do
  resume c.validate
  refuseIf (c.revision != expected) (persistenceError "conversation_expected_revision_mismatch")
  match ← ask false (.loadConversation c.projectId c.conversationId) with
  | none => throw (persistenceError "conversation_not_found")
  | some current => do
    refuseIf (current.revision != expected) (persistenceError "conversation_revision_conflict")
    refuseIf (decide (expected + 1 > u64Max)) (persistenceError "conversation_revision_overflow")
    let committed := { c with revision := expected + 1 }
    saveConversation committed
    pure committed

/-- `remove_conversation`. -/
def removeConversation (cleanup : Bool) (p : ProjectId) (id : ConversationId) :
    LifecycleM Unit := do
  let found ← ask cleanup (.loadConversation p id)
  if found.isNone then pure ()
  else do
    ask cleanup (.unlinkConversation p id)
    ask cleanup .syncConversations

/-- The loop of `remove_project_conversations`. -/
def removeEach (p : ProjectId) : List ConversationId → LifecycleM Unit
  | [] => pure ()
  | id :: ids => do
    removeConversation false p id
    removeEach p ids

/-- `remove_project_conversations`. -/
def removeProjectConversations (p : ProjectId) : LifecycleM Unit := do
  let ids ← listConversationIds p maxPersistedConversationsPerProject
  removeEach p ids

/-! ## The calls -/

variable (config : CoreConfig)

/-- `project_state_store()?`. -/
def projectStateStore : LifecycleM Unit :=
  refuseIf (!config.projectStateStore)
    (.missingCapability "project state store" "project_session_persistence")

/-- `conversation_store()?`. -/
def conversationStore : LifecycleM Unit :=
  refuseIf (!config.conversationStore)
    (.missingCapability "conversation store" "multi_chat_persistence")

/-- `create_persisted_project`. -/
def createPersistedProject : LifecycleM ProjectRef := do
  projectStateStore config
  let uuid ← ask false .newUuid
  let project ← createProject ⟨uuid⟩
  match ← settle (createProjectState (newProjectState project.id)) with
  | .ok _ => pure project
  | .error e =>
    match ← settle (removeProject true project) with
    | .ok _ => throw e
    | .error _ => throw (persistenceError "project_create_state_rollback_failed")

/-- `ensure_no_active_project_process`. -/
def ensureNoActiveProjectProcess (p : ProjectId) : LifecycleM Unit :=
  if config.processRuntime then do
    let active ← ask false (.activeForProject p)
    refuseIf (active != 0) (.process "project_process_active")
  else pure ()

/-- `revoke_pending_for_session`, if there is a session. -/
def revokeSession : Option PersistedAgentSession → LifecycleM Unit
  | some session => ask false (.revokePending session.sessionId)
  | none => pure ()

/-- `if let Some(conversations) = self.conversation_store`. -/
def removeStoredConversations (p : ProjectId) : LifecycleM Unit :=
  if config.conversationStore then removeProjectConversations p else pure ()

/-- `remove_persisted_project`, once the project has been checked. -/
def removeEverything (project : ProjectRef) : LifecycleM Unit := do
  removeProject false project
  removeStoredConversations config project.id
  removeProjectState project.id

/-- `remove_persisted_project`. -/
def removePersistedProject (project : ProjectRef) : LifecycleM Unit := do
  ask false (.tryAcquire project.id)
  projectStateStore config
  let state ← loadProjectState project.id
  let _ ← verifyProject false project
  ensureNoActiveProjectProcess config project.id
  ask false (.ensureWorkspaceQuiescent project.id)
  ask false (.invalidateAuthorizations project.id)
  revokeSession state.agentSession
  removeEverything config project

/-- The conversation with its new session. -/
def withSession (c : PersistedConversation) (session : SessionId) : PersistedConversation :=
  { c with
    sessionCreationPending := false
    agentSession := some {
      runtimeId := config.runtimeId
      sessionId := session
      preferredModel := none } }

/-- `create_persisted_conversation`. -/
def createPersistedConversation (project : ProjectRef) : LifecycleM ConversationId := do
  ask false (.tryAcquire project.id)
  conversationStore config
  let _ ← verifyProject false project
  projectStateStore config
  let _ ← loadProjectState project.id
  let uuid ← ask false .newUuid
  let conversation := pendingCreation ⟨uuid⟩ project.id
  createConversation conversation
  match ← settle (ask false (.createSession project.id)) with
  | .error e =>
    match ← settle (removeConversation true project.id ⟨uuid⟩) with
    | .ok _ => throw e
    | .error _ => throw (persistenceError "conversation_create_rollback_failed")
  | .ok session =>
    match ← settle (updateConversation conversation.revision
        (withSession config conversation session)) with
    | .ok _ => pure ⟨uuid⟩
    | .error _ =>
      throw (persistenceError "conversation_session_persistence_incomplete_after_create")

end VibeCoder.Lifecycle
