/-
  The two tree walkers of the checkpoint store (`vibecoder-checkpoint-local`): one hashes a tree,
  the other copies it and hashes what it copies.

  * `pinDirectory`, `hashDirRecursive`, `copyDirRecursive` — the walkers, as programs.  They stop
    below depth 128: `levels` counts down from 129, and both give up at 0;
  * `digestTree`, `copyTreeAndDigest` — the entry points.

  What a walker feeds the hasher is a list of bytes; the hash function itself is a parameter.
-/
import Mathlib.Data.String.Basic
import VibeCoder.Checkpoint.Disk
import VibeCoder.Conversation

namespace VibeCoder.Checkpoint

open Resume Files

/-! ## Names -/

def workspaceTempPrefix : String := ".vibecoder-tmp-"
def rollbackTempPrefix : String := ".vibecoder-rollback-"
def checkpointTempPrefix : String := ".vibecoder-checkpoint-tmp-"

/-- `str::starts_with`. -/
def startsWith (text pfx : String) : Bool := pfx.toList.isPrefixOf text.toList

/-- The names a walker accepts. -/
def acceptedName (name : String) : Bool :=
  !(name.isEmpty || hasControl name || name.toList.contains '/' || name.toList.contains '\\' ||
    startsWith name workspaceTempPrefix || startsWith name rollbackTempPrefix ||
    startsWith name checkpointTempPrefix)

/-- The path of an entry, relative to the root of the walk. -/
def relativePath (pfx name : String) : String :=
  if pfx.isEmpty then name else pfx ++ "/" ++ name

/-! ## The digest -/

def maxCheckpointDepth : Nat := 128
def maxCheckpointFiles : Nat := 100000
def maxCheckpointTotalBytes : Nat := 4 * 1024 * 1024 * 1024

/-- `TreeDigest`. -/
structure TreeDigest where
  fileCount : Nat
  totalBytes : Nat
  sha256 : String
  deriving DecidableEq, Repr

/-- `DigestState`: the hasher is what it was fed. -/
structure DigestState where
  fed : List UInt8
  fileCount : Nat
  totalBytes : Nat
  deriving DecidableEq

/-- `u64::to_be_bytes`. -/
def beBytes (n : Nat) : List UInt8 :=
  (List.range 8).map (fun i => UInt8.ofNat (n / 256 ^ (7 - i)))

/-- `str::as_bytes`. -/
def utf8 (text : String) : List UInt8 := text.toList.flatMap String.utf8EncodeChar

namespace DigestState

/-- `DigestState::new()`. -/
def new : DigestState := { fed := [], fileCount := 0, totalBytes := 0 }

/-- `hasher.update`. -/
def update (s : DigestState) (bytes : List UInt8) : DigestState :=
  { s with fed := s.fed ++ bytes }

/-- `record_path`. -/
def recordPath (s : DigestState) (value : String) : DigestState :=
  (s.update (beBytes (len value))).update (utf8 value)

/-- `record_dir`. -/
def recordDir (s : DigestState) (relative : String) : DigestState :=
  (s.update (utf8 "D")).recordPath relative

/-- `begin_file`. -/
def beginFile (s : DigestState) (relative : String) (size : Nat) (executable : Bool) :
    Result DigestState :=
  if s.fileCount + 1 > u64Max then .error (checkpointError "checkpoint_file_count_overflow")
  else if s.fileCount + 1 > maxCheckpointFiles then
    .error (checkpointError "checkpoint_file_count_limit")
  else if s.totalBytes + size > u64Max then
    .error (checkpointError "checkpoint_total_bytes_overflow")
  else if s.totalBytes + size > maxCheckpointTotalBytes then
    .error (checkpointError "checkpoint_total_bytes_limit")
  else
    let s : DigestState :=
      { s with
        fileCount := s.fileCount + 1
        totalBytes := s.totalBytes + size }
    .ok ((((s.update (utf8 "F")).recordPath relative).update (beBytes size)).update
      [if executable then 1 else 0])

/-- `finish`. -/
def finish (sha256 : List UInt8 → String) (s : DigestState) : TreeDigest :=
  { fileCount := s.fileCount, totalBytes := s.totalBytes, sha256 := sha256 s.fed }

end DigestState

/-! ## The walkers -/

/-- `set_private_dir_mode`. -/
def setPrivateDirMode (p : Path) : StoreM Unit := do
  let _ ← io (.metadata p) "checkpoint_directory_mode_stat_failed"
  io (.setMode p) "checkpoint_directory_mode_failed"

/-- `sync_dir`. -/
def syncDir (p : Path) : StoreM Unit := do
  io (.openDir p) "checkpoint_directory_open_failed"
  io (.syncDir p) "checkpoint_directory_sync_failed"

/-- `fs::create_dir(..).map_err(|_| checkpoint_error(code))?`. -/
def createDir (p : Path) (name code : String) : StoreM Unit := do
  let created ← io (.createDir p name) code
  refuseIf (!created) code

/-- `fs::symlink_metadata(..).map_err(|_| checkpoint_error(code))?`. -/
def symlinkMetadata (p : Path) (code : String) : StoreM Stat := do
  let found ← io (.lstat p) code
  resume (match found with
    | some stat => .ok stat
    | none => .error (checkpointError code))

/-- `pin_directory`: the sorted names of a directory. -/
def pinDirectory (p : Path) : StoreM (List String) := do
  io (.openDir p) "checkpoint_tree_directory_open_failed"
  let metadata ← io (.metadata p) "checkpoint_tree_directory_metadata_failed"
  refuseIf (metadata != .dir) "checkpoint_tree_directory_invalid"
  let names ← io (.readDir p) "checkpoint_tree_read_dir_failed"
  refuseIf (names.any (fun name => !acceptedName name)) "checkpoint_path_component_invalid"
  pure (names.insertionSort (· ≤ ·))

/-- The size of the buffer. -/
def bufferBytes : Nat := 64 * 1024

/-- The read loop of `hash_dir_recursive`; each round reads at least one byte, so that `fuel`
    rounds are enough for as many bytes. -/
def hashContents (p : Path) : (fuel offset remaining : Nat) → DigestState → StoreM DigestState
  | 0, _, _, s => pure s
  | fuel + 1, offset, remaining, s =>
    if remaining = 0 then pure s
    else do
      let bytes ← io (.read p offset (min bufferBytes remaining)) "checkpoint_hash_file_read_failed"
      refuseIf bytes.isEmpty "checkpoint_hash_file_short_read"
      hashContents p fuel (offset + bytes.length) (remaining - bytes.length) (s.update bytes)

/-- The read and write loop of `copy_dir_recursive`. -/
def copyContents (p dest : Path) (name : String) :
    (fuel offset remaining : Nat) → DigestState → StoreM DigestState
  | 0, _, _, s => pure s
  | fuel + 1, offset, remaining, s =>
    if remaining = 0 then pure s
    else do
      let bytes ← io (.read p offset (min bufferBytes remaining))
        "checkpoint_source_file_read_failed"
      refuseIf bytes.isEmpty "checkpoint_source_file_short_read"
      io (.writeAll dest name bytes) "checkpoint_copy_file_write_failed"
      copyContents p dest name fuel (offset + bytes.length) (remaining - bytes.length)
        (s.update bytes)

/-- The file branch of `hash_dir_recursive`. -/
def hashFile (p : Path) (relative : String) (size : Nat) (executable : Bool) (links : Nat)
    (s : DigestState) : StoreM DigestState := do
  refuseIf (links != 1) "checkpoint_hard_link_forbidden"
  let s ← resume (s.beginFile relative size executable)
  io (.openFile p) "checkpoint_hash_file_open_failed"
  let opened ← io (.statFile p) "checkpoint_hash_file_stat_failed"
  refuseIf (opened.links != 1) "checkpoint_hash_file_changed_during_open"
  let s ← hashContents p size 0 size s
  let extra ← io (.read p size 1) "checkpoint_hash_file_read_failed"
  refuseIf (!extra.isEmpty) "checkpoint_hash_file_grew"
  let after ← symlinkMetadata p "checkpoint_hash_file_post_stat_failed"
  refuseIf (after.size != size || after.links != 1) "checkpoint_hash_file_changed"
  pure s

/-- The file branch of `copy_dir_recursive`. -/
def copyFile (p dest : Path) (name relative : String) (size : Nat) (executable : Bool)
    (links : Nat) (s : DigestState) : StoreM DigestState := do
  refuseIf (links != 1) "checkpoint_hard_link_forbidden"
  let s ← resume (s.beginFile relative size executable)
  io (.openFile p) "checkpoint_source_file_open_failed"
  let opened ← io (.statFile p) "checkpoint_source_file_stat_failed"
  refuseIf (!opened.isFile || opened.links != 1) "checkpoint_source_changed_during_open"
  io (.createFile dest name executable) "checkpoint_copy_file_create_failed"
  let s ← copyContents p dest name size 0 size s
  let extra ← io (.read p size 1) "checkpoint_source_file_read_failed"
  refuseIf (!extra.isEmpty) "checkpoint_source_file_grew_during_copy"
  io (.syncFile (dest ++ [name])) "checkpoint_copy_file_sync_failed"
  let after ← symlinkMetadata p "checkpoint_source_file_post_stat_failed"
  refuseIf (after.size != size || after.links != 1) "checkpoint_source_changed_during_copy"
  pure s

/-- One entry of `hash_dir_recursive`; `child` walks a directory below. -/
def hashEntry (child : Path → String → DigestState → StoreM DigestState) (root : Path)
    (pfx name : String) (s : DigestState) : StoreM DigestState := do
  let path := root ++ [name]
  let relative := relativePath pfx name
  match ← symlinkMetadata path "checkpoint_tree_entry_metadata_failed" with
  | .symlink => throw (checkpointError "checkpoint_symlink_forbidden")
  | .dir => child path relative (s.recordDir relative)
  | .file size executable links => hashFile path relative size executable links s
  | .special => throw (checkpointError "checkpoint_special_file_forbidden")

/-- One entry of `copy_dir_recursive`. -/
def copyEntry (child : Path → Path → String → DigestState → StoreM DigestState)
    (source dest : Path) (pfx name : String) (s : DigestState) : StoreM DigestState := do
  let path := source ++ [name]
  let relative := relativePath pfx name
  match ← symlinkMetadata path "checkpoint_tree_entry_metadata_failed" with
  | .symlink => throw (checkpointError "checkpoint_symlink_forbidden")
  | .dir => do
    createDir dest name "checkpoint_copy_dir_create_failed"
    setPrivateDirMode (dest ++ [name])
    let s ← child path (dest ++ [name]) relative (s.recordDir relative)
    syncDir (dest ++ [name])
    pure s
  | .file size executable links => copyFile path dest name relative size executable links s
  | .special => throw (checkpointError "checkpoint_special_file_forbidden")

/-- `for name in names { s = f(name, s)? }`. -/
def eachName (f : String → DigestState → StoreM DigestState) :
    List String → DigestState → StoreM DigestState
  | [], s => pure s
  | name :: names, s => do
    let s ← f name s
    eachName f names s

/-- `hash_dir_recursive`. -/
def hashDirRecursive : (levels : Nat) → (root : Path) → (pfx : String) → DigestState →
    StoreM DigestState
  | 0, _, _, _ => throw (checkpointError "checkpoint_depth_limit")
  | levels + 1, root, pfx, s => do
    let names ← pinDirectory root
    eachName (hashEntry (hashDirRecursive levels) root pfx) names s

/-- `copy_dir_recursive`. -/
def copyDirRecursive : (levels : Nat) → (source dest : Path) → (pfx : String) → DigestState →
    StoreM DigestState
  | 0, _, _, _, _ => throw (checkpointError "checkpoint_depth_limit")
  | levels + 1, source, dest, pfx, s => do
    let names ← pinDirectory source
    let _ ← pinDirectory dest
    eachName (copyEntry (copyDirRecursive levels) source dest pfx) names s

/-- `digest_tree`. -/
def digestTree (sha256 : List UInt8 → String) (root : Path) : StoreM TreeDigest := do
  let s ← hashDirRecursive (maxCheckpointDepth + 1) root "" .new
  pure (s.finish sha256)

/-- `copy_tree_and_digest`. -/
def copyTreeAndDigest (sha256 : List UInt8 → String) (source dest : Path) : StoreM TreeDigest := do
  let s ← copyDirRecursive (maxCheckpointDepth + 1) source dest "" .new
  pure (s.finish sha256)

end VibeCoder.Checkpoint
