/-
  The methods of the local checkpoint store (`vibecoder-checkpoint-local/src/lib.rs`).

  * `createCheckpoint` — publishes a private copy of the project tree under a fresh id;
  * `rollback`         — stages a copy of a snapshot and exchanges it with the live tree;
  * `listCheckpoints`, `loadMetadata`, `removeCheckpoint`;
  * `initializeStore`  — makes the fixed directories, and removes what a crash left behind.

  A random UUID and the clock are arguments.  The hash function and the JSON text of the metadata
  are those of other packages: an `Env` has them as functions.  Left out: the gate, which only
  keeps two methods apart, and the poisoning of its lock.
-/
import VibeCoder.Checkpoint.Walk
import VibeCoder.Lib.UuidText

namespace VibeCoder.Checkpoint

open Resume Files

/-! ## Values -/

/-- `CheckpointId(Uuid)`. -/
structure CheckpointId where
  uuid : BitVec 128
  deriving DecidableEq, Repr

/-- `CheckpointMetadata`, with everything that is stored. -/
structure CheckpointMetadata where
  schema : Nat
  checkpointId : CheckpointId
  projectId : ProjectId
  createdUnixMs : Nat
  reason : CheckpointReason
  fileCount : Nat
  totalBytes : Nat
  treeSha256 : String
  deriving DecidableEq, Repr

/-- `RollbackResult`. -/
structure RollbackResult where
  projectId : ProjectId
  checkpointId : CheckpointId
  restoredFileCount : Nat
  restoredTotalBytes : Nat
  treeSha256 : String
  deriving DecidableEq, Repr

/-- `ProjectRef`. -/
structure ProjectRef where
  id : ProjectId
  root : Path
  deriving DecidableEq, Repr

/-- What other packages compute: SHA-256 in hex, and `serde_json` on the metadata. -/
structure Env where
  sha256 : List UInt8 → String
  encode : CheckpointMetadata → List UInt8
  decode : List UInt8 → Option CheckpointMetadata

def checkpointSchemaV1 : Nat := 1
def sha256HexBytes : Nat := 64
def maxMetadataBytes : Nat := 64 * 1024

/-- `CheckpointMetadata::validate`. -/
def CheckpointMetadata.validate (m : CheckpointMetadata) : Result Unit :=
  if m.schema ≠ checkpointSchemaV1 then
    .error (checkpointError "checkpoint_schema_unsupported")
  else if m.fileCount > maxCheckpointFiles then
    .error (checkpointError "checkpoint_file_count_invalid")
  else if m.totalBytes > maxCheckpointTotalBytes then
    .error (checkpointError "checkpoint_total_bytes_invalid")
  else if len m.treeSha256 ≠ sha256HexBytes ∨
      !m.treeSha256.toList.all (fun c => c.isDigit || (decide ('a' ≤ c) && decide (c ≤ 'f'))) then
    .error (checkpointError "checkpoint_digest_invalid")
  else .ok ()

/-! ## Paths -/

def productRootName : String := "vibecoder"
def projectsRootName : String := "projects"
def checkpointsRootName : String := "checkpoints"
def snapshotTreeName : String := "tree"
def metadataName : String := "metadata.json"

def projectsRoot : Path := [productRootName, projectsRootName]
def checkpointsRoot : Path := [productRootName, checkpointsRootName]

/-- The directory name of an id. -/
def ProjectId.dirName (id : ProjectId) : String := UuidText.hyphenated id.uuid
def CheckpointId.dirName (id : CheckpointId) : String := UuidText.hyphenated id.uuid

/-- `expected_project_root`. -/
def expectedProjectRoot (id : ProjectId) : Path := projectsRoot ++ [ProjectId.dirName id]

/-- `project_checkpoint_dir`. -/
def projectCheckpointDir (id : ProjectId) : Path := checkpointsRoot ++ [ProjectId.dirName id]

/-- `checkpoint_dir`. -/
def checkpointDir (id : ProjectId) (checkpoint : CheckpointId) : Path :=
  projectCheckpointDir id ++ [checkpoint.dirName]

/-- The snapshot of a checkpoint. -/
def snapshotTree (id : ProjectId) (checkpoint : CheckpointId) : Path :=
  checkpointDir id checkpoint ++ [snapshotTreeName]

/-- A staging name: a reserved prefix and a UUID. -/
def tempName (pfx : String) (uuid : BitVec 128) : String := pfx ++ UuidText.hyphenated uuid

/-- The name is a reserved prefix and a canonical UUID. -/
def isTempName (pfx name : String) : Bool :=
  startsWith name pfx &&
    (let suffix := String.ofList (name.toList.drop pfx.toList.length)
    (UuidText.parseStr suffix).any (fun uuid => UuidText.hyphenated uuid == suffix))

/-! ## Fixed directories -/

/-- `reject_symlink`. -/
def rejectSymlink (p : Path) (code : String) : StoreM Unit := do
  let found ← io (.lstat p) "checkpoint_path_metadata_failed"
  refuseIf (found == some .symlink) code

/-- `create_or_verify_private_child`. -/
def createOrVerifyPrivateChild (parent : Path) (name : String) : StoreM Path := do
  refuseIf (name.isEmpty || name.toList.contains '/' || name.toList.contains '\\' ||
    hasControl name) "checkpoint_fixed_child_name_invalid"
  let child := parent ++ [name]
  rejectSymlink child "checkpoint_fixed_child_is_symlink"
  let _ ← io (.createDir parent name) "checkpoint_fixed_child_create_failed"
  rejectSymlink child "checkpoint_fixed_child_is_symlink"
  let canonical ← io (.canonicalize child) "checkpoint_fixed_child_unavailable"
  refuseIf (canonical != child || canonical.dropLast != parent)
    "checkpoint_fixed_child_containment_failed"
  setPrivateDirMode canonical
  pure canonical

/-- `verify_project`. -/
def verifyProject (project : ProjectRef) : StoreM Unit := do
  let expected := expectedProjectRoot project.id
  refuseIf (project.root != expected) "checkpoint_project_root_mismatch"
  let metadata ← symlinkMetadata project.root "checkpoint_project_root_unavailable"
  refuseIf (metadata != .dir) "checkpoint_project_root_invalid"
  let canonical ← io (.canonicalize project.root) "checkpoint_project_root_unavailable"
  refuseIf (canonical != expected || !projectsRoot.isPrefixOf canonical)
    "checkpoint_project_root_not_contained"

/-! ## What a crash leaves behind -/

/-- The body of both clean-up loops: a staging directory goes, whatever it holds. -/
def cleanupEntry (parent : Path) (pfx : String) (statCode removeCode invalidCode : String)
    (name : String) : StoreM Unit :=
  if isTempName pfx name then do
    let path := parent ++ [name]
    match ← symlinkMetadata path statCode with
    | .symlink => io (.removeFile path) removeCode
    | .dir => io (.removeDirAll path) removeCode
    | .file _ _ _ | .special => throw (checkpointError invalidCode)
  else pure ()

/-- `for entry in entries { f(entry)? }`. -/
def forEach (f : String → StoreM Unit) : List String → StoreM Unit
  | [] => pure ()
  | name :: names => do
    f name
    forEach f names

/-- `cleanup_rollback_staging`. -/
def cleanupRollbackStaging : StoreM Unit := do
  let names ← io (.readDir projectsRoot) "checkpoint_projects_list_failed"
  forEach (cleanupEntry projectsRoot rollbackTempPrefix
    "checkpoint_rollback_cleanup_metadata_failed" "checkpoint_rollback_cleanup_failed"
    "checkpoint_rollback_staging_invalid") names

/-- One project of `cleanup_checkpoint_temps`. -/
def cleanupProjectTemps (name : String) : StoreM Unit := do
  let dir := checkpointsRoot ++ [name]
  let metadata ← symlinkMetadata dir "checkpoint_cleanup_metadata_failed"
  refuseIf (metadata != .dir) "checkpoint_project_directory_invalid"
  let names ← io (.readDir dir) "checkpoint_cleanup_list_failed"
  forEach (cleanupEntry dir checkpointTempPrefix
    "checkpoint_cleanup_metadata_failed" "checkpoint_temp_cleanup_failed"
    "checkpoint_temp_staging_invalid") names

/-- `cleanup_checkpoint_temps`. -/
def cleanupCheckpointTemps : StoreM Unit := do
  let names ← io (.readDir checkpointsRoot) "checkpoint_cleanup_list_failed"
  forEach cleanupProjectTemps names

/-- `LocalCheckpointStore::initialize`. -/
def initializeStore : StoreM Unit := do
  rejectSymlink [] "checkpoint_app_private_root_is_symlink"
  -- `canonical_private_dir`
  let root ← io (.canonicalize []) "checkpoint_app_private_root_unavailable"
  let metadata ← io (.metadata root) "checkpoint_app_private_root_unavailable"
  refuseIf (metadata != .dir) "checkpoint_app_private_root_invalid"
  let product ← createOrVerifyPrivateChild root productRootName
  let projects ← createOrVerifyPrivateChild product projectsRootName
  let checkpoints ← createOrVerifyPrivateChild product checkpointsRootName
  refuseIf (!root.isPrefixOf projects || !root.isPrefixOf checkpoints)
    "checkpoint_root_escaped_app_private_root"
  cleanupRollbackStaging
  cleanupCheckpointTemps

/-! ## Metadata -/

/-- `file.take(left).read_to_end(..)`: each round reads at least one byte or is the last. -/
def readToEnd (p : Path) (code : String) :
    (fuel offset left : Nat) → List UInt8 → StoreM (List UInt8)
  | 0, _, _, bytes => pure bytes
  | fuel + 1, offset, left, bytes =>
    if left = 0 then pure bytes
    else do
      let more ← io (.read p offset (min bufferBytes left)) code
      if more.isEmpty then pure bytes
      else readToEnd p code fuel (offset + more.length) (left - more.length) (bytes ++ more)

/-- `load_metadata_sync`. -/
def loadMetadata (env : Env) (project : ProjectId) (checkpoint : CheckpointId) :
    StoreM (Option CheckpointMetadata) := do
  let dir := checkpointDir project checkpoint
  match ← io (.lstat dir) "checkpoint_directory_metadata_failed" with
  | none => pure none
  | some stat => do
    refuseIf (stat != .dir) "checkpoint_directory_invalid"
    let path := dir ++ [metadataName]
    io (.openFile path) "checkpoint_metadata_open_failed"
    let stat ← io (.statFile path) "checkpoint_metadata_stat_failed"
    refuseIf (!stat.isFile || stat.links != 1 || decide (stat.size > maxMetadataBytes))
      "checkpoint_metadata_invalid"
    let bytes ← readToEnd path "checkpoint_metadata_read_failed" (maxMetadataBytes + 1) 0
      (maxMetadataBytes + 1) []
    refuseIf (decide (bytes.length > maxMetadataBytes)) "checkpoint_metadata_too_large"
    let parsed ← resume (match env.decode bytes with
      | some parsed => .ok parsed
      | none => .error (checkpointError "checkpoint_metadata_json_invalid"))
    resume parsed.validate
    refuseIf (parsed.projectId != project || parsed.checkpointId != checkpoint)
      "checkpoint_metadata_identity_mismatch"
    pure (some parsed)

/-- `write_metadata`. -/
def writeMetadata (env : Env) (dir : Path) (metadata : CheckpointMetadata) : StoreM Unit := do
  let bytes := env.encode metadata
  refuseIf (decide (bytes.length > maxMetadataBytes)) "checkpoint_metadata_too_large"
  io (.createFile dir metadataName false) "checkpoint_metadata_create_failed"
  io (.writeAll dir metadataName bytes) "checkpoint_metadata_write_failed"
  io (.syncFile (dir ++ [metadataName])) "checkpoint_metadata_sync_failed"

/-! ## Ids -/

/-- The loop of `list_checkpoint_ids`. -/
def collectIds (parent : Path) : List String → List CheckpointId → StoreM (List CheckpointId)
  | [], ids => pure ids
  | name :: names, ids =>
    if startsWith name checkpointTempPrefix then collectIds parent names ids
    else do
      let uuid ← resume (match UuidText.parseStr name with
        | some uuid => .ok uuid
        | none => .error (checkpointError "checkpoint_directory_name_invalid"))
      refuseIf (UuidText.hyphenated uuid != name) "checkpoint_directory_name_noncanonical"
      let metadata ← symlinkMetadata (parent ++ [name]) "checkpoint_directory_metadata_failed"
      refuseIf (metadata != .dir) "checkpoint_directory_invalid"
      let ids := ids ++ [⟨uuid⟩]
      refuseIf (decide (ids.length > maxCheckpointsPerProject))
        "checkpoint_project_limit_exceeded"
      collectIds parent names ids

/-- `list_checkpoint_ids`. -/
def listCheckpointIds (parent : Path) : StoreM (List CheckpointId) := do
  let metadata ← symlinkMetadata parent "checkpoint_project_directory_unavailable"
  refuseIf (metadata != .dir) "checkpoint_project_directory_invalid"
  let names ← io (.readDir parent) "checkpoint_list_failed"
  let ids ← collectIds parent names []
  pure (ids.insertionSort (fun a b => a.uuid.toNat ≤ b.uuid.toNat))

/-- `fs::remove_dir_all`, whose result the caller looks at or drops. -/
def removeTree (p : Path) : StoreM Unit := attempt (Op.removeDirAll p)

/-- `if c { p }`. -/
def onlyIf (c : Bool) (p : StoreM Unit) : StoreM Unit := if c then p else pure ()

/-- `Path::exists`, which takes an error for an answer. -/
def pathExists (p : Path) : StoreM Bool := do
  match ← settle (attempt (.exists p)) with
  | .ok found => pure found
  | .error _ => pure false

/-- `fresh_checkpoint_id`; `draw n` is the `n`-th UUID. -/
def freshCheckpointId (parent : Path) (draw : Nat → BitVec 128) : (tries : Nat) →
    StoreM CheckpointId
  | 0 => throw (checkpointError "checkpoint_id_collision")
  | tries + 1 => do
    let id : CheckpointId := ⟨draw tries⟩
    match ← pathExists (parent ++ [id.dirName]) with
    | true => freshCheckpointId parent draw tries
    | false =>
      match ← pathExists (parent ++ [tempName checkpointTempPrefix id.uuid]) with
      | true => freshCheckpointId parent draw tries
      | false => pure id

/-! ## Creation -/

/-- The closure of `create_checkpoint_sync`, up to the verified copy. -/
def copyProject (env : Env) (project : ProjectRef) (tempDir : Path) : StoreM TreeDigest := do
  let treeDir := tempDir ++ [snapshotTreeName]
  createDir tempDir snapshotTreeName "checkpoint_tree_create_failed"
  setPrivateDirMode treeDir
  let sourceBefore ← digestTree env.sha256 project.root
  let copied ← copyTreeAndDigest env.sha256 project.root treeDir
  let copiedVerify ← digestTree env.sha256 treeDir
  refuseIf (copied != copiedVerify) "checkpoint_copy_integrity_mismatch"
  let sourceAfter ← digestTree env.sha256 project.root
  refuseIf (sourceBefore != copied || copied != sourceAfter)
    "checkpoint_source_changed_during_snapshot"
  pure copied

/-- The clock, as `u64` milliseconds. -/
def unixMillis : Option Nat → Result Nat
  | none => .error (checkpointError "checkpoint_clock_invalid")
  | some millis =>
    if millis > u64Max then .error (checkpointError "checkpoint_clock_overflow") else .ok millis

/-- What is written about a copy. -/
def metadataOf (project : ProjectRef) (reason : CheckpointReason) (id : CheckpointId)
    (createdUnixMs : Nat) (copied : TreeDigest) : CheckpointMetadata :=
  { schema := checkpointSchemaV1
    checkpointId := id
    projectId := project.id
    createdUnixMs := createdUnixMs
    reason := reason
    fileCount := copied.fileCount
    totalBytes := copied.totalBytes
    treeSha256 := copied.sha256 }

/-- The closure of `create_checkpoint_sync`. -/
def fillAndPublish (env : Env) (project : ProjectRef) (reason : CheckpointReason)
    (id : CheckpointId) (clock : Option Nat) (dir : Path) (temp : String) :
    StoreM CheckpointMetadata := do
  let tempDir := dir ++ [temp]
  let copied ← copyProject env project tempDir
  let createdUnixMs ← resume (unixMillis clock)
  let metadata := metadataOf project reason id createdUnixMs copied
  resume metadata.validate
  writeMetadata env tempDir metadata
  syncDir (tempDir ++ [snapshotTreeName])
  syncDir tempDir
  io (.rename dir temp id.dirName) "checkpoint_publish_rename_failed"
  syncDir dir
  pure metadata

/-- `create_checkpoint_sync`. -/
def createCheckpoint (env : Env) (project : ProjectRef) (reason : CheckpointReason)
    (draw : Nat → BitVec 128) (clock : Option Nat) : StoreM CheckpointMetadata := do
  verifyProject project
  let dir ← createOrVerifyPrivateChild checkpointsRoot (ProjectId.dirName project.id)
  let existing ← listCheckpointIds dir
  refuseIf (decide (existing.length ≥ maxCheckpointsPerProject)) "checkpoint_project_limit_reached"
  let id ← freshCheckpointId dir draw 8
  let temp := tempName checkpointTempPrefix id.uuid
  createDir dir temp "checkpoint_temp_create_failed"
  setPrivateDirMode (dir ++ [temp])
  match ← settle (fillAndPublish env project reason id clock dir temp) with
  | .ok metadata => pure metadata
  | .error e => do
    let found ← pathExists (dir ++ [temp])
    onlyIf found (attemptOnly (removeTree (dir ++ [temp])))
    throw e

/-! ## Rollback -/

/-- The name of the staging directory, and its path. -/
def stagingName (uuid : BitVec 128) : String := tempName rollbackTempPrefix uuid
def stagingDir (staging : String) : Path := projectsRoot ++ [staging]

/-- `exchange_children`. -/
def exchangeChildren (parent : Path) (left right : String) : StoreM Unit := do
  io (.openDir parent) "checkpoint_exchange_parent_open_failed"
  io (.exchange parent left right) "checkpoint_atomic_exchange_failed"

/-- The dedicated error. -/
def recoveryFailed : VibeCoderError := checkpointError "checkpoint_rollback_recovery_failed"

/-- Undo an exchange: both recovery blocks of `rollback_sync`. -/
def recoverRollback (projectName staging : String) (e : VibeCoderError) : StoreM Unit := do
  let recovery ← settle do
    exchangeChildren projectsRoot projectName staging
    syncDir projectsRoot
  match recovery with
  | .error _ => throw recoveryFailed
  | .ok () => do
    attemptOnly (removeTree (stagingDir staging))
    throw e

/-- What `rollback_sync` checks before it stages anything. -/
def verifySnapshot (env : Env) (project : ProjectRef) (checkpoint : CheckpointId) :
    StoreM (CheckpointMetadata × TreeDigest) := do
  verifyProject project
  let found ← loadMetadata env project.id checkpoint
  let metadata ← resume (match found with
    | some metadata => .ok metadata
    | none => .error (checkpointError "checkpoint_not_found"))
  let digest ← digestTree env.sha256 (snapshotTree project.id checkpoint)
  refuseIf (digest.sha256 != metadata.treeSha256 || digest.fileCount != metadata.fileCount ||
    digest.totalBytes != metadata.totalBytes) "checkpoint_integrity_verification_failed"
  pure (metadata, digest)

/-- `rollback_sync` up to the staging directory. -/
def beginStaging (env : Env) (project : ProjectRef) (checkpoint : CheckpointId)
    (staging : String) : StoreM (CheckpointMetadata × TreeDigest) := do
  let verified ← verifySnapshot env project checkpoint
  createDir projectsRoot staging "checkpoint_rollback_stage_create_failed"
  pure verified

/-- `!(staged != snapshot_digest || digest_tree(&staging)? != snapshot_digest)`. -/
def stagedIntact (env : Env) (staging : String) (staged digest : TreeDigest) : StoreM Bool :=
  if staged != digest then pure false
  else do
    let again ← digestTree env.sha256 (stagingDir staging)
    pure (again == digest)

/-- The staged copy is checked and exchanged with the live tree. -/
def exchangeStaged (env : Env) (project : ProjectRef) (staging : String)
    (staged digest : TreeDigest) : StoreM Bool := do
  let intact ← stagedIntact env staging staged digest
  if !intact then pure false
  else do
    exchangeChildren projectsRoot (ProjectId.dirName project.id) staging
    pure true

/-- What is left to do after the exchange. -/
def settleExchange (env : Env) (project : ProjectRef) (staging : String) (digest : TreeDigest) :
    StoreM Unit := do
  match ← settle (syncDir projectsRoot) with
  | .error _ =>
    recoverRollback (ProjectId.dirName project.id) staging
      (checkpointError "checkpoint_rollback_exchange_sync_failed")
  | .ok () => do
    let restored ← settle (digestTree env.sha256 project.root)
    if restored.toOption != some digest then
      recoverRollback (ProjectId.dirName project.id) staging
        (checkpointError "checkpoint_rollback_post_exchange_verify_failed")
    else do
      match ← settle (removeTree (stagingDir staging)) with
      | .ok () => attemptOnly (syncDir projectsRoot)
      | .error _ => pure ()

/-- `rollback_sync`; `uuid` names the staging directory. -/
def rollback (env : Env) (project : ProjectRef) (checkpoint : CheckpointId)
    (uuid : BitVec 128) : StoreM RollbackResult := do
  let staging := stagingName uuid
  let (metadata, digest) ← beginStaging env project checkpoint staging
  setPrivateDirMode (stagingDir staging)
  let copied ← settle (copyTreeAndDigest env.sha256 (snapshotTree project.id checkpoint)
    (stagingDir staging))
  match copied with
  | .error e => do
    attemptOnly (removeTree (stagingDir staging))
    throw e
  | .ok staged => do
    let exchanged ← exchangeStaged env project staging staged digest
    if !exchanged then do
      attemptOnly (removeTree (stagingDir staging))
      throw (checkpointError "checkpoint_rollback_stage_integrity_failed")
    else do
      settleExchange env project staging digest
      pure {
        projectId := project.id
        checkpointId := checkpoint
        restoredFileCount := metadata.fileCount
        restoredTotalBytes := metadata.totalBytes
        treeSha256 := metadata.treeSha256 }

/-! ## Listing and removal -/

/-- `created_unix_ms` and then the id, the latest first. -/
def laterFirst (a b : CheckpointMetadata) : Prop :=
  b.createdUnixMs < a.createdUnixMs ∨
    (a.createdUnixMs = b.createdUnixMs ∧
      b.checkpointId.uuid.toNat ≤ a.checkpointId.uuid.toNat)

instance (a b : CheckpointMetadata) : Decidable (laterFirst a b) :=
  inferInstanceAs (Decidable (_ ∨ _))

/-- The loop of `list_checkpoints`. -/
def loadEach (env : Env) (project : ProjectId) : List CheckpointId → StoreM (List CheckpointMetadata)
  | [] => pure []
  | id :: ids => do
    let metadata ← loadMetadata env project id
    let rest ← loadEach env project ids
    pure (metadata.toList ++ rest)

/-- `list_checkpoints`. -/
def listCheckpoints (env : Env) (project : ProjectId) (maxResults : Nat) :
    StoreM (List CheckpointMetadata) := do
  refuseIf (decide (maxResults = 0) || decide (maxResults > maxCheckpointsPerProject))
    "checkpoint_list_limit_invalid"
  let dir := projectCheckpointDir project
  let found ← pathExists dir
  if !found then pure []
  else do
    let ids ← listCheckpointIds dir
    let all ← loadEach env project ids
    pure ((all.insertionSort laterFirst).take maxResults)

/-- `remove_checkpoint`. -/
def removeCheckpoint (project : ProjectId) (checkpoint : CheckpointId) : StoreM Unit := do
  let dir := checkpointDir project checkpoint
  let metadata ← symlinkMetadata dir "checkpoint_not_found"
  refuseIf (metadata != .dir) "checkpoint_directory_invalid"
  io (.removeDirAll dir) "checkpoint_remove_failed"
  syncDir (projectCheckpointDir project)

end VibeCoder.Checkpoint
