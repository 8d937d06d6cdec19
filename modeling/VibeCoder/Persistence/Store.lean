/-
  The local store of project states and conversations (`vibecoder-persistence-local`).

  1. **Kinds** — the two kinds of records are kept alike: what differs is the name, the limit, the
     checks and the error codes.  The JSON encoding is that of a library, a parameter.

  2. **Saving and loading** — `save_*` makes the new contents in a temporary file and renames it over
     the record; `load_*` looks at the record before it opens it.

  3. **Listing and removing** — of conversations.

  4. **Calls** — `create_*`, `update_*` and the removals, under the gate.

  The removal of project states and their listing are beside their laws (`CompareAndSwap`,
  `StoreIsolation`).
-/
import VibeCoder.Persistence.Names

namespace VibeCoder.Persistence

open Chars

/-! ## Kinds -/

/-- `serde_json::to_vec` and `serde_json::from_slice` of a type of records. -/
structure Codec (R : Type) where
  encode : R → List UInt8
  decode : List UInt8 → Option R

/-- A kind of records. -/
structure RecordKind (K R : Type) where
  /-- What the error codes begin with. -/
  label : String
  tempPrefix : List Char
  maxBytes : Nat
  key : R → K
  fileName : K → List Char
  validate : R → Result Unit
  revision : R → Nat
  withRevision : Nat → R → R

/-- An error code of the kind. -/
def RecordKind.code {K R : Type} (kind : RecordKind K R) (suffix : String) : String :=
  kind.label ++ "_" ++ suffix

/-- `persistence_error` with a code of the kind. -/
def RecordKind.error {K R : Type} (kind : RecordKind K R) (suffix : String) : VibeCoderError :=
  persistenceError (kind.code suffix)

def projectStateKind : RecordKind ProjectId PersistedProjectState where
  label := "project_state"
  tempPrefix := ".vibecoder-state-tmp-".toList
  maxBytes := maxPersistedStateBytes
  key := PersistedProjectState.projectId
  fileName := stateFileName
  validate := PersistedProjectState.validate
  revision := PersistedProjectState.revision
  withRevision revision state := { state with revision := revision }

def conversationKind : RecordKind (ProjectId × ConversationId) PersistedConversation where
  label := "conversation"
  tempPrefix := ".vibecoder-conversation-tmp-".toList
  maxBytes := maxPersistedConversationBytes
  key conversation := (conversation.projectId, conversation.conversationId)
  fileName key := conversationFileName key.1 key.2
  validate := PersistedConversation.validate
  revision := PersistedConversation.revision
  withRevision revision conversation := { conversation with revision := revision }

section Records

variable {K R : Type} [DecidableEq K] (kind : RecordKind K R) (codec : Codec R)

/-- The bytes of the name of a record. -/
def RecordKind.target (key : K) : List UInt8 := encode (kind.fileName key)

/-- The temporary name, from `Uuid::new_v4().simple()`. -/
def RecordKind.temp (uuid : BitVec 128) : List UInt8 :=
  encode (kind.tempPrefix ++ UuidText.hexDigits 32 uuid.toNat)

/-! ## Saving and loading -/

/-- `save_*` up to the temporary file. -/
def saveStart (fault : Fault) (d : Directory) (record : R) : Result Unit := do
  if (codec.encode record).length > kind.maxBytes then throw (kind.error "too_large")
  openRoot fault .save
  inspectExistingStateTarget fault d (kind.target (kind.key record))

/-- `verify_private_regular_fd` of the temporary file. -/
def verifyTemp (fault : Fault) (d : Directory) (temp : List UInt8) : Result Unit := do
  attempt fault .statTemp (kind.code "temp_invalid")
  match entryOf d temp with
  | none => throw (kind.error "temp_invalid")
  | some entry => verifyPrivateRegularStat entry.stat (kind.code "temp_invalid")

/-- `write_all`, `sync_all` and `renameat`. -/
def writeAndRename (fault : Fault) (d : Directory) (temp : List UInt8) (record : R) :
    Result Unit × Directory :=
  let bytes := codec.encode record
  match fault with
  | some (.write count) =>
    (.error (kind.error "write_failed"), writeBytes d temp (bytes.take count))
  | _ =>
    let d := writeBytes d temp bytes
    match attempt fault .syncFile (kind.code "file_sync_failed") with
    | .error e => (.error e, d)
    | .ok () =>
      match attempt fault .rename (kind.code "rename_failed") with
      | .error e => (.error e, d)
      | .ok () => (.ok (), renameTo d temp (kind.target (kind.key record)))

/-- What `TempCleanup` guards. -/
def fillTemp (fault : Fault) (d : Directory) (temp : List UInt8) (record : R) :
    Result Unit × Directory :=
  match verifyTemp kind fault d temp with
  | .error e => (.error e, d)
  | .ok () => writeAndRename kind codec fault d temp record

/-- `save_project_state` and `save_conversation`. -/
def saveRecord (fault : Fault) (uuid : BitVec 128) (d : Directory) (record : R) :
    Result Unit × Directory :=
  match saveStart kind codec fault d record with
  | .error e => (.error e, d)
  | .ok () =>
    match openExclusivePrivateFileAt fault d (kind.temp uuid) with
    | (.error e, d) => (.error e, d)
    | (.ok (), d) =>
      match fillTemp kind codec fault d (kind.temp uuid) record with
      -- the cleanup is still armed
      | (.error e, d) => (.error e, unlinkTemp fault d (kind.temp uuid))
      | (.ok (), d) => (attempt fault .syncRoot (kind.code "parent_sync_failed"), d)

/-- `load_*` after the record has been looked at. -/
def readRecord (fault : Fault) (expected : Entry) (key : K) : Result (Option R) := do
  if expected.bytes.length > kind.maxBytes then throw (kind.error "too_large")
  attempt fault .openRecord "project_state_open_failed"
  attempt fault .statRecord (kind.code "stat_failed")
  verifyPrivateRegularStat expected.stat (kind.code "target_invalid")
  attempt fault .readRecord (kind.code "read_failed")
  let bytes := expected.bytes.take (kind.maxBytes + 1)
  if bytes.length > kind.maxBytes then throw (kind.error "too_large")
  match codec.decode bytes with
  | none => throw (kind.error "invalid_json")
  | some record =>
    kind.validate record
    if kind.key record ≠ key then throw (kind.error "id_mismatch")
    return some record

/-- `load_project_state` and `load_conversation`. -/
def loadRecord (fault : Fault) (d : Directory) (key : K) : Result (Option R) := do
  openRoot fault .load
  match ← inspectStateForRead fault .load d (kind.target key) with
  | none => return none
  | some expected => readRecord kind codec fault expected key

/-! ## Calls -/

/-- `lock_gate`. -/
def lockGate (poisoned : Bool) : Result Unit :=
  if poisoned then .error (persistenceError "project_state_gate_poisoned") else .ok ()

/-- What `create_*` checks before it saves.  `limit` is what else it checks. -/
def createChecks (fault : Fault) (poisoned : Bool) (limit : Result Unit) (d : Directory)
    (record : R) : Result Unit := do
  kind.validate record
  if kind.revision record ≠ 0 then throw (kind.error "create_revision_invalid")
  lockGate poisoned
  if (← loadRecord kind codec fault d (kind.key record)).isSome then
    throw (kind.error "already_exists")
  limit

/-- `create_project_state` and `create_conversation`. -/
def createRecord (fault : Fault) (poisoned : Bool) (limit : Result Unit) (uuid : BitVec 128)
    (d : Directory) (record : R) : Result Unit × Directory :=
  match createChecks kind codec fault poisoned limit d record with
  | .error e => (.error e, d)
  | .ok () => saveRecord kind codec fault uuid d record

/-- What `update_*` checks before it saves, and the record it commits. -/
def updateChecks (fault : Fault) (poisoned : Bool) (expectedRevision : Nat) (d : Directory)
    (record : R) : Result R := do
  kind.validate record
  if kind.revision record ≠ expectedRevision then throw (kind.error "expected_revision_mismatch")
  lockGate poisoned
  match ← loadRecord kind codec fault d (kind.key record) with
  | none => throw (kind.error "not_found")
  | some current =>
    if kind.revision current ≠ expectedRevision then throw (kind.error "revision_conflict")
    if expectedRevision + 1 > u64Max then throw (kind.error "revision_overflow")
    return kind.withRevision (expectedRevision + 1) record

/-- `update_project_state` and `update_conversation`. -/
def updateRecord (fault : Fault) (poisoned : Bool) (uuid : BitVec 128) (expectedRevision : Nat)
    (d : Directory) (record : R) : Result R × Directory :=
  match updateChecks kind codec fault poisoned expectedRevision d record with
  | .error e => (.error e, d)
  | .ok committed =>
    match saveRecord kind codec fault uuid d committed with
    | (.error e, d) => (.error e, d)
    | (.ok (), d) => (.ok committed, d)

end Records

/-! ## Listing and removing -/

/-- The loop of `list_conversation_ids`. -/
def listLoop (fault : Fault) (projectId : ProjectId) (maxConversations : Nat) :
    (index : Nat) → List ConversationId → Directory → Result (List ConversationId)
  | index, ids, [] => do
    attempt fault (.listRead index) "conversation_list_read_failed"
    return ids
  | index, ids, (name, entry) :: rest => do
    attempt fault (.listRead index) "conversation_list_read_failed"
    if index + 1 > maxStateDirectoryEntries then
      throw (persistenceError "conversation_directory_too_large")
    if (encode conversationKind.tempPrefix).isPrefixOf name then
      listLoop fault projectId maxConversations (index + 1) ids rest
    else
      let text ← orUnexpected (decode name)
      let (entryProjectId, entryConversationId) ← parseConversationFileName text
      attempt fault (.listStat index) "conversation_list_stat_failed"
      verifyPrivateRegularStat entry.stat "conversation_target_invalid"
      if entryProjectId = projectId then
        if (ids ++ [entryConversationId]).length > maxConversations then
          throw (persistenceError "conversation_list_limit_exceeded")
        listLoop fault projectId maxConversations (index + 1) (ids ++ [entryConversationId]) rest
      else listLoop fault projectId maxConversations (index + 1) ids rest

/-- `list_conversation_ids`.  The directory is given without `.` and `..`. -/
def listConversationIds (fault : Fault) (d : Directory) (projectId : ProjectId)
    (maxConversations : Nat) : Result (List ConversationId) := do
  openRoot fault .list
  attempt fault .listDup "conversation_list_dup_failed"
  attempt fault .listOpen "conversation_list_open_failed"
  let ids ← listLoop fault projectId maxConversations 0 [] d
  return ids.mergeSort (fun a b => UuidText.hyphenated a.uuid ≤ UuidText.hyphenated b.uuid)

/-- `remove_conversation`, under the gate. -/
def removeConversation (fault : Fault) (d : Directory) (key : ProjectId × ConversationId) :
    Result Unit × Directory :=
  match openRoot fault .remove with
  | .error e => (.error e, d)
  | .ok () =>
    match inspectStateForRead fault .remove d (conversationKind.target key) with
    | .error e => (.error e, d)
    | .ok none => (.ok (), d)
    | .ok (some _) =>
      match attempt fault .unlinkRecord "conversation_remove_failed" with
      | .error e => (.error e, d)
      | .ok () =>
        (attempt fault .syncRoot "conversation_parent_sync_failed",
          without d (conversationKind.target key))

/-- The loop of `remove_project_conversations`.  Each removal has its own failing step. -/
def removeAll (faults : ConversationId → Fault) (projectId : ProjectId) :
    List ConversationId → Directory → Result Unit × Directory
  | [], d => (.ok (), d)
  | conversationId :: rest, d =>
    match removeConversation (faults conversationId) d (projectId, conversationId) with
    | (.error e, d) => (.error e, d)
    | (.ok (), d) => removeAll faults projectId rest d

/-- `remove_project_conversations`, under the gate. -/
def removeProjectConversations (fault : Fault) (faults : ConversationId → Fault) (d : Directory)
    (projectId : ProjectId) : Result Unit × Directory :=
  match listConversationIds fault d projectId maxPersistedConversationsPerProject with
  | .error e => (.error e, d)
  | .ok ids => removeAll faults projectId ids d

/-- `create_project_state`. -/
def createProjectState (codec : Codec PersistedProjectState) (fault : Fault) (poisoned : Bool)
    (uuid : BitVec 128) (d : Directory) (state : PersistedProjectState) : Result Unit × Directory :=
  createRecord projectStateKind codec fault poisoned (.ok ()) uuid d state

/-- `update_project_state`. -/
def updateProjectState (codec : Codec PersistedProjectState) (fault : Fault) (poisoned : Bool)
    (uuid : BitVec 128) (expectedRevision : Nat) (d : Directory) (state : PersistedProjectState) :
    Result PersistedProjectState × Directory :=
  updateRecord projectStateKind codec fault poisoned uuid expectedRevision d state

/-- The limit of `create_conversation`. -/
def conversationLimit (fault : Fault) (d : Directory) (projectId : ProjectId) : Result Unit := do
  let ids ← listConversationIds fault d projectId maxPersistedConversationsPerProject
  if ids.length ≥ maxPersistedConversationsPerProject then
    throw (persistenceError "conversation_limit_exceeded")

/-- `create_conversation`. -/
def createConversation (codec : Codec PersistedConversation) (fault : Fault) (poisoned : Bool)
    (uuid : BitVec 128) (d : Directory) (conversation : PersistedConversation) :
    Result Unit × Directory :=
  createRecord conversationKind codec fault poisoned
    (conversationLimit fault d conversation.projectId) uuid d conversation

/-- `update_conversation`. -/
def updateConversation (codec : Codec PersistedConversation) (fault : Fault) (poisoned : Bool)
    (uuid : BitVec 128) (expectedRevision : Nat) (d : Directory)
    (conversation : PersistedConversation) : Result PersistedConversation × Directory :=
  updateRecord conversationKind codec fault poisoned uuid expectedRevision d conversation

end VibeCoder.Persistence
