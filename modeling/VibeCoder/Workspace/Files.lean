/-
  The file operations of the workspace (`vibecoder-workspace-local`).

  * `createProject`, `createDirAll`, `readFile`, `atomicWriteFile`, `editTextFile`,
    `applyTextPatch` — the operations, as programs over the requests of the file system;
  * `replaceFile` — what the last three share: a temporary file next to the target is filled and
    renamed over it, and removed when anything fails in between (`TempCleanup`);
  * `findUniqueTextMatch`, `applyHunks` — the text of a patch.

  The requests are those of the stores and three more.  Whether the owner may write a file is not on
  the disk of the model: the surroundings say so each time it is looked at.  Text is the list of
  its characters; an index counts characters where the source counts bytes.
-/
import VibeCoder.Checkpoint.Store
import VibeCoder.Workspace.Paths

namespace VibeCoder.Workspace

open Resume Files Checkpoint

/-! ## Requests -/

/-- What the surroundings decide about one request. -/
structure World extends Checkpoint.World where
  writable : Bool

inductive Op where
  /-- A request the stores make too. -/
  | disk (o : Checkpoint.Op)
  /-- `openat` with `O_DIRECTORY | O_NOFOLLOW`; the answer is false when the name is missing. -/
  | openAt (p : Path)
  /-- `fstatat` with `AT_SYMLINK_NOFOLLOW`: the metadata, and whether the owner may write. -/
  | statAt (p : Path)
  /-- `fs::remove_dir`, and `unlinkat` with `AT_REMOVEDIR`. -/
  | removeDir (p : Path)
  deriving DecidableEq

/-- What a request answers when it does not fail. -/
abbrev Op.Val : Op → Type
  | .disk o => o.Val
  | .openAt _ => Bool
  | .statAt _ => Option (Stat × Bool)
  | .removeDir _ => Unit

/-- The meaning of a request. -/
def exec (w : World) : (o : Op) → Disk → Result o.Val × Disk
  | .disk o, d => Disk.exec w.toWorld o d
  | .openAt p, d =>
    if w.fails then (.error ioError, d)
    else
      match d.node p with
      | some .dir => (.ok true, d)
      | none => (.ok false, d)
      | some (.leaf _) => (.error ioError, d)
  | .statAt p, d =>
    if w.fails then (.error ioError, d)
    else (.ok ((d.node p).map fun x => (Stat.of x, w.writable)), d)
  | .removeDir p, d =>
    if w.fails then (.error ioError, d)
    else if d.node p = some .dir ∧ d.names p = [] then (.ok (), d.remove p)
    else (.error ioError, d)

/-- An operation of the workspace. -/
abbrev FileM : Type → Type := Prog VibeCoderError Op Op.Val

/-- `.map_err(|_| workspace_error(code))?`. -/
def io (o : Op) (code : String) : FileM o.Val := do
  match ← settle (attempt o) with
  | .ok v => pure v
  | .error _ => throw (workspaceError code)

/-- The same for a request the stores make too. -/
def diskIo (o : Checkpoint.Op) (code : String) : FileM o.Val := io (.disk o) code

/-- `if c { return Err(workspace_error(code)) }`. -/
def refuseIf (c : Bool) (code : String) : FileM Unit :=
  resume (if c then .error (workspaceError code) else .ok ())

/-- `let _ = ..` of a request. -/
def drop (o : Op) : FileM Unit := do
  let _ ← settle (attempt o)
  pure ()

/-! ## The project -/

/-- `reject_symlink_if_present`. -/
def rejectSymlinkIfPresent (p : Path) (code : String) : FileM Unit := do
  let found ← diskIo (.lstat p) code
  refuseIf (found == some .symlink) code

/-- `canonical_existing_dir`. -/
def canonicalExistingDir (p : Path) (code : String) : FileM Path := do
  let metadata ← diskIo (.metadata p) code
  refuseIf (metadata != .dir) code
  diskIo (.canonicalize p) code

/-- `verify_project_sync`; a path of the model is absolute. -/
def verifyProject (project : ProjectRef) : FileM Path := do
  let expected := expectedProjectRoot project.id
  refuseIf (project.root != expected) "project_root_does_not_match_project_id"
  rejectSymlinkIfPresent expected "project_root_is_symlink"
  let canonical ← canonicalExistingDir expected "project_root_unavailable"
  refuseIf (canonical != expected || !projectsRoot.isPrefixOf canonical)
    "project_root_failed_canonical_containment"
  pure canonical

/-- `create_project_sync`. -/
def createProject (id : ProjectId) : FileM ProjectRef := do
  let root := expectedProjectRoot id
  let created ← diskIo (.createDir projectsRoot (ProjectId.dirName id)) "project_create_failed"
  refuseIf (!created) "project_already_exists"
  let project : ProjectRef := { id := id, root := root }
  match ← settle (verifyProject project) with
  | .ok _ => pure project
  | .error e => do
    drop (.removeDir root)
    throw e

/-- `open_existing_dir_at`. -/
def openExistingDirAt (p : Path) : FileM Unit := do
  let found ← io (.openAt p) "project_path_parent_not_directory_or_symlink"
  refuseIf (!found) "project_path_parent_not_directory_or_symlink"

/-- `open_verified_project_root`. -/
def openVerifiedProjectRoot (project : ProjectRef) : FileM Path := do
  let _ ← verifyProject project
  let root := expectedProjectRoot project.id
  diskIo (.openDir []) "app_private_root_open_failed"
  openExistingDirAt [productRootName]
  openExistingDirAt projectsRoot
  openExistingDirAt root
  let metadata ← diskIo (.lstat project.root) "project_root_metadata_failed"
  refuseIf metadata.isNone "project_root_metadata_failed"
  refuseIf (metadata != some .dir) "project_root_invalid_during_file_io"
  let stat ← diskIo (.statFile root) "project_root_fstat_failed"
  refuseIf (stat != .dir) "project_root_not_directory_during_open"
  pure root

/-- The loop of `open_parent`. -/
def openParents : Path → List String → FileM Path
  | current, [] => pure current
  | current, name :: names => do
    openExistingDirAt (current ++ [name])
    openParents (current ++ [name]) names

/-- `open_parent`. -/
def openParent (project : ProjectRef) (components : List String) : FileM (Path × String) :=
  match components.getLast? with
  | none => throw (workspaceError "file_path_empty")
  | some name => do
    let root ← openVerifiedProjectRoot project
    let parent ← openParents root components.dropLast
    pure (parent, name)

/-! ## Directories -/

/-- `open_or_create_private_dir_at`. -/
def openOrCreatePrivateDirAt (parent : Path) (name : String) : FileM Unit := do
  let child := parent ++ [name]
  match ← io (.openAt child) "project_path_parent_not_directory_or_symlink" with
  | true => pure ()
  | false => do
    let created ← diskIo (.createDir parent name) "project_directory_create_failed"
    let opened ← io (.openAt child) "project_directory_verify_failed"
    refuseIf (!opened) "project_directory_verify_failed"
    match created with
    | false => pure ()
    | true =>
      match ← settle (diskIo (.setMode child) "project_directory_mode_failed") with
      | .ok () => pure ()
      | .error e => do
        drop (.removeDir child)
        throw e

/-- The loop of `create_dir_all`. -/
def createEach : Path → List String → FileM Unit
  | _, [] => pure ()
  | current, name :: names => do
    openOrCreatePrivateDirAt current name
    createEach (current ++ [name]) names

/-- `create_dir_all`. -/
def createDirAll (project : ProjectRef) (relative : String) : FileM Unit := do
  let components ← resume (validateRelativePath relative)
  let root ← openVerifiedProjectRoot project
  createEach root components

/-! ## Reading -/

def maxFileReadBytes : Nat := 16 * 1024 * 1024
def maxFileWriteBytes : Nat := 16 * 1024 * 1024

/-- `st_mode & 0o100 != 0`. -/
def ownerExecutable : Stat → Bool
  | .file _ executable _ => executable
  | .dir | .symlink | .special => false

/-- `require_single_link_regular`. -/
def requireSingleLinkRegular (stat : Stat) (invalidCode hardLinkCode : String) : FileM Unit := do
  refuseIf (!stat.isFile) invalidCode
  refuseIf (stat.links != 1) hardLinkCode

/-- `inspect_optional_read_target`. -/
def inspectOptionalReadTarget (p : Path) : FileM (Option (Stat × Bool)) := do
  match ← io (.statAt p) "file_read_target_metadata_failed" with
  | none => pure none
  | some (stat, writable) => do
    refuseIf (stat == .symlink) "file_symlink_forbidden"
    requireSingleLinkRegular stat "file_read_target_invalid" "file_hard_link_forbidden"
    pure (some (stat, writable))

/-- `inspect_existing_read_target`. -/
def inspectExistingReadTarget (p : Path) : FileM (Stat × Bool) := do
  match ← inspectOptionalReadTarget p with
  | some found => pure found
  | none => throw (workspaceError "file_read_target_metadata_failed")

/-- `file.take(left).read_to_end(..)`: each round reads at least one byte or is the last. -/
def readToEnd (p : Path) (code : String) :
    (fuel offset left : Nat) → List UInt8 → FileM (List UInt8)
  | 0, _, _, bytes => pure bytes
  | fuel + 1, offset, left, bytes =>
    if left = 0 then pure bytes
    else do
      let more ← diskIo (.read p offset (min bufferBytes left)) code
      if more.isEmpty then pure bytes
      else readToEnd p code fuel (offset + more.length) (left - more.length) (bytes ++ more)

/-- `read_verified_regular_at`, and the second half of `read_file`. -/
def readVerifiedRegularAt (p : Path) (maxBytes : Nat) : FileM (List UInt8) := do
  diskIo (.openFile p) "file_read_open_failed"
  let stat ← diskIo (.statFile p) "file_read_stat_failed"
  requireSingleLinkRegular stat "file_read_target_invalid" "file_hard_link_forbidden"
  refuseIf (decide (stat.size > maxBytes)) "file_read_too_large"
  let output ← readToEnd p "file_read_failed" (maxBytes + 1) 0 (maxBytes + 1) []
  refuseIf (decide (output.length > maxBytes)) "file_read_too_large"
  pure output

/-- `read_file`. -/
def readFile (project : ProjectRef) (relative : String) (maxBytes : Nat) :
    FileM (List UInt8) := do
  refuseIf (decide (maxBytes = 0) || decide (maxBytes > maxFileReadBytes)) "file_read_limit_invalid"
  let components ← resume (validateRelativePath relative)
  let (parent, name) ← openParent project components
  let (stat, _) ← inspectExistingReadTarget (parent ++ [name])
  refuseIf (decide (stat.size > maxBytes)) "file_read_too_large"
  readVerifiedRegularAt (parent ++ [name]) maxBytes

/-- `regular_file_exists`. -/
def regularFileExists (project : ProjectRef) (relative : String) : FileM Bool := do
  let components ← resume (validateRelativePath relative)
  let (parent, name) ← openParent project components
  let found ← inspectOptionalReadTarget (parent ++ [name])
  pure found.isSome

/-! ## Replacing a file -/

/-- `inspect_existing_write_target`: the mode, of which the model has the owner's execute bit. -/
def inspectExistingWriteTarget (p : Path) : FileM (Option Bool) := do
  match ← io (.statAt p) "file_write_target_metadata_failed" with
  | none => pure none
  | some (stat, writable) => do
    refuseIf (stat == .symlink) "file_symlink_forbidden"
    requireSingleLinkRegular stat "file_write_target_invalid" "file_hard_link_forbidden"
    refuseIf (!writable) "file_write_target_read_only"
    pure (some (ownerExecutable stat))

/-- `format!(".vibecoder-tmp-{}", uuid.simple())`. -/
def tempFileName (uuid : BitVec 128) : String :=
  workspaceTempPrefix ++ String.ofList (UuidText.hexDigits 32 uuid.toNat)

/-- The codes under which a replacement reports its failures. -/
structure ReplaceCodes where
  mode : String
  stat : String
  invalid : String
  hardLinked : String
  data : String
  fileSync : String
  rename : String
  parentSync : String

/-- What is done with the temporary file. -/
def fillTemp (codes : ReplaceCodes) (parent : Path) (temp : String) (bytes : List UInt8) :
    FileM Unit := do
  diskIo (.setMode (parent ++ [temp])) codes.mode
  let stat ← diskIo (.statFile (parent ++ [temp])) codes.stat
  requireSingleLinkRegular stat codes.invalid codes.hardLinked
  diskIo (.writeAll parent temp bytes) codes.data
  diskIo (.syncFile (parent ++ [temp])) codes.fileSync

/-- From the creation of the temporary file to its renaming. -/
def replaceFile (codes : ReplaceCodes) (parent : Path) (name temp : String) (executable : Bool)
    (bytes : List UInt8) (recheck : FileM Unit) : FileM Unit := do
  diskIo (.createFile parent temp executable) "atomic_write_temp_create_failed"
  let filled ← settle (do
    fillTemp codes parent temp bytes
    recheck
    diskIo (.rename parent temp name) codes.rename)
  match filled with
  | .ok () => pure ()
  | .error e => do
    drop (.disk (.removeFile (parent ++ [temp])))
    throw e

def writeCodes : ReplaceCodes :=
  { mode := "atomic_write_temp_mode_failed"
    stat := "atomic_write_temp_stat_failed"
    invalid := "atomic_write_temp_invalid"
    hardLinked := "atomic_write_temp_hard_linked"
    data := "atomic_write_data_failed"
    fileSync := "atomic_write_file_sync_failed"
    rename := "atomic_write_rename_failed"
    parentSync := "atomic_write_parent_sync_failed" }

/-- `atomic_write_file`, up to the creation of the temporary file. -/
def prepareWrite (project : ProjectRef) (relative : String) (contents : List UInt8) :
    FileM (Path × String × Bool) := do
  refuseIf (decide (contents.length > maxFileWriteBytes)) "file_write_too_large"
  let components ← resume (validateRelativePath relative)
  let (parent, name) ← openParent project components
  let target ← inspectExistingWriteTarget (parent ++ [name])
  pure (parent, name, target.getD false)

/-- `atomic_write_file`. -/
def atomicWriteFile (project : ProjectRef) (relative : String) (contents : List UInt8)
    (uuid : BitVec 128) : FileM Unit := do
  let (parent, name, executable) ← prepareWrite project relative contents
  replaceFile writeCodes parent name (tempFileName uuid) executable contents (pure ())
  diskIo (.syncDir parent) writeCodes.parentSync

/-! ## The text of a patch -/

def maxTextEditExpectedBytes : Nat := 1024 * 1024
def maxTextPatchHunks : Nat := 64
def maxTextPatchInputBytes : Nat := 16 * 1024 * 1024

/-- `TextPatchHunk`. -/
structure TextPatchHunk where
  expected : String
  replacement : String
  deriving DecidableEq, Repr

/-- `TextPatchResult`. -/
structure TextPatchResult where
  hunksApplied : Nat
  bytesBefore : Nat
  bytesAfter : Nat
  deriving DecidableEq, Repr

/-- `TextEditResult`. -/
structure TextEditResult where
  replacements : Nat
  bytesBefore : Nat
  bytesAfter : Nat
  deriving DecidableEq, Repr

/-- `str::find`. -/
def findText (text expected : List Char) : Option Nat :=
  (List.range (text.length + 1)).find? (fun i => expected.isPrefixOf (text.drop i))

/-- `find_unique_text_match`. -/
def findUniqueTextMatch (text expected : List Char) : Result Nat :=
  match findText text expected with
  | none => .error (workspaceError "text_edit_expected_not_found")
  | some first =>
    if (text.drop first).isEmpty then .error (workspaceError "text_edit_expected_not_found")
    else if (findText (text.drop (first + 1)) expected).isSome then
      .error (workspaceError "text_edit_expected_ambiguous")
    else .ok first

/-- The bytes of a text. -/
def textBytes (text : List Char) : List UInt8 := text.flatMap String.utf8EncodeChar

/-- `std::str::from_utf8`. -/
def fromUtf8 (bytes : List UInt8) : Option (List Char) :=
  (String.fromUTF8? ⟨bytes.toArray⟩).map String.toList

/-- One round of the loop over the hunks. -/
def applyHunk (updated : List Char) (hunk : TextPatchHunk) : Result (List Char) := do
  let matchIndex ← findUniqueTextMatch updated hunk.expected.toList
  let bytesAfter := (textBytes updated).length - len hunk.expected + len hunk.replacement
  if bytesAfter > maxFileWriteBytes then .error (workspaceError "text_edit_result_too_large")
  else
    .ok (updated.take matchIndex ++ hunk.replacement.toList ++
      updated.drop (matchIndex + hunk.expected.toList.length))

/-- The loop over the hunks. -/
def applyHunks (updated : List Char) (hunks : List TextPatchHunk) : Result (List Char) :=
  hunks.foldlM applyHunk updated

/-- The loop that checks the hunks. -/
def checkHunks : List TextPatchHunk → (patchInputBytes : Nat) → Result Unit
  | [], _ => .ok ()
  | hunk :: hunks, patchInputBytes =>
    if hunk.expected.isEmpty then .error (workspaceError "text_edit_expected_empty")
    else if len hunk.expected > maxTextEditExpectedBytes then
      .error (workspaceError "text_edit_expected_too_large")
    else if len hunk.replacement > maxFileWriteBytes then
      .error (workspaceError "text_patch_replacement_too_large")
    else
      let patchInputBytes := patchInputBytes + len hunk.expected + len hunk.replacement
      if patchInputBytes > maxTextPatchInputBytes then
        .error (workspaceError "text_patch_input_too_large")
      else checkHunks hunks patchInputBytes

/-- `hunks.is_empty() || hunks.len() > MAX_TEXT_PATCH_HUNKS`. -/
def hunkCountInvalid (hunks : List TextPatchHunk) : Bool :=
  hunks.isEmpty || decide (hunks.length > maxTextPatchHunks)

/-! ## Patches -/

def patchCodes : ReplaceCodes :=
  { mode := "text_edit_temp_mode_failed"
    stat := "text_edit_temp_stat_failed"
    invalid := "text_edit_temp_invalid"
    hardLinked := "text_edit_temp_hard_linked"
    data := "text_edit_data_failed"
    fileSync := "text_edit_file_sync_failed"
    rename := "text_edit_rename_failed"
    parentSync := "text_edit_parent_sync_failed" }

/-- What a patch has found out before it creates the temporary file. -/
structure PatchPlan where
  parent : Path
  name : String
  executable : Bool
  original : List UInt8
  updated : List UInt8

/-- `apply_text_patch_pairs`, up to the creation of the temporary file. -/
def preparePatch (project : ProjectRef) (relative : String) (hunks : List TextPatchHunk) :
    FileM PatchPlan := do
  refuseIf (hunkCountInvalid hunks) "text_patch_hunk_count_invalid"
  resume (checkHunks hunks 0)
  let components ← resume (validateRelativePath relative)
  let (parent, name) ← openParent project components
  let (initialStat, writable) ← inspectExistingReadTarget (parent ++ [name])
  refuseIf (!writable) "file_write_target_read_only"
  refuseIf (decide (initialStat.size > maxFileWriteBytes)) "text_edit_file_too_large"
  let original ← readVerifiedRegularAt (parent ++ [name]) maxFileWriteBytes
  let originalText ← resume (match fromUtf8 original with
    | some text => .ok text
    | none => .error (workspaceError "text_edit_file_not_utf8"))
  let updated ← resume (applyHunks originalText hunks)
  pure {
    parent := parent
    name := name
    executable := ownerExecutable initialStat
    original := original
    updated := textBytes updated }

/-- The second look at the target, right before the renaming. -/
def recheckTarget (plan : PatchPlan) : FileM Unit := do
  let (currentStat, writable) ← inspectExistingReadTarget (plan.parent ++ [plan.name])
  refuseIf (ownerExecutable currentStat != plan.executable || !writable)
    "text_edit_target_changed"
  let current ← readVerifiedRegularAt (plan.parent ++ [plan.name]) maxFileWriteBytes
  refuseIf (current != plan.original) "text_edit_target_changed"

/-- The replacement of a patch, unless the patch changes nothing. -/
def commitPatch (plan : PatchPlan) (uuid : BitVec 128) : FileM Unit :=
  if plan.updated = plan.original then pure ()
  else
    replaceFile patchCodes plan.parent plan.name (tempFileName uuid) plan.executable plan.updated
      (recheckTarget plan)

/-- The last synchronisation of a patch. -/
def syncPatch (plan : PatchPlan) : FileM Unit :=
  if plan.updated = plan.original then pure ()
  else diskIo (.syncDir plan.parent) patchCodes.parentSync

/-- `apply_text_patch_pairs`. -/
def applyTextPatchPairs (project : ProjectRef) (relative : String) (hunks : List TextPatchHunk)
    (uuid : BitVec 128) : FileM TextPatchResult := do
  let plan ← preparePatch project relative hunks
  commitPatch plan uuid
  syncPatch plan
  pure {
    hunksApplied := hunks.length
    bytesBefore := plan.original.length
    bytesAfter := plan.updated.length }

/-- `apply_text_patch`. -/
def applyTextPatch (project : ProjectRef) (relative : String) (hunks : List TextPatchHunk)
    (uuid : BitVec 128) : FileM TextPatchResult := do
  refuseIf (hunkCountInvalid hunks) "text_patch_hunk_count_invalid"
  applyTextPatchPairs project relative hunks uuid

/-- `edit_text_file`. -/
def editTextFile (project : ProjectRef) (relative expected replacement : String)
    (uuid : BitVec 128) : FileM TextEditResult := do
  let result ← applyTextPatchPairs project relative
    [{ expected := expected, replacement := replacement }] uuid
  pure {
    replacements := result.hunksApplied
    bytesBefore := result.bytesBefore
    bytesAfter := result.bytesAfter }

end VibeCoder.Workspace
