/-
  Listing and searching a project (`vibecoder-workspace-local/src/unix_io.rs`).

  * `walkProjectDir`, `listProjectFiles` — the regular files below the root of a project;
  * `matchIndices`, `locateTextMatch`    — where a text has the needle, as line and column;
  * `searchProjectText`                  — the files of a listing, read and searched in turn.

  Names that are not UTF-8 are not on the disk of the model: `foreign` says how many of them a
  directory has.  Text is the list of its characters; an index counts characters where the source
  counts bytes.
-/
import VibeCoder.Workspace.Files

namespace VibeCoder.Workspace

open Resume Files Checkpoint

def maxProjectListEntries : Nat := 4096
def maxProjectSearchMatches : Nat := 512
def maxProjectSearchFileBytes : Nat := 2 * 1024 * 1024
def maxProjectSearchTotalBytes : Nat := 64 * 1024 * 1024
def maxProjectSearchFiles : Nat := 4096
def maxProjectSearchDepth : Nat := 64
def maxProjectWalkEntries : Nat := 16384

def u32Max : Nat := 2 ^ 32 - 1

/-- `saturating_add` of a `u32` and of a `u64`. -/
def saturatingAdd32 (a b : Nat) : Nat := min (a + b) u32Max
def saturatingAdd64 (a b : Nat) : Nat := min (a + b) u64Max

/-! ## Listing -/

/-- `ProjectFileEntry`. -/
structure ProjectFileEntry where
  relativePath : String
  sizeBytes : Nat
  ownerExecutable : Bool
  deriving DecidableEq, Repr

/-- `ProjectFileList`. -/
structure ProjectFileList where
  files : List ProjectFileEntry
  skippedEntries : Nat
  truncated : Bool
  deriving DecidableEq, Repr

/-- `WalkState`. -/
structure WalkState where
  files : List ProjectFileEntry
  skipped : Nat
  entriesSeen : Nat
  truncated : Bool
  maxFiles : Nat

/-- `state.skipped = state.skipped.saturating_add(n)`. -/
def WalkState.skip (state : WalkState) (n : Nat) : WalkState :=
  { state with skipped := saturatingAdd32 state.skipped n }

/-- `state.truncated = true`. -/
def WalkState.truncate (state : WalkState) : WalkState := { state with truncated := true }

/-- `state.files.push(entry)`. -/
def WalkState.push (state : WalkState) (entry : ProjectFileEntry) : WalkState :=
  { state with files := state.files ++ [entry] }

/-- `state.entries_seen += 1`. -/
def WalkState.see (state : WalkState) : WalkState :=
  { state with entriesSeen := state.entriesSeen + 1 }

/-- A name that the loop of `read_dir_names` keeps. -/
def listableName (name : String) : Bool :=
  !(name.isEmpty || decide (len name > maxComponentBytes) || hasControl name ||
    name.toList.contains '\\')

/-- `read_dir_names`. -/
def readDirNames (foreign : Path → Nat) (dir : Path) : FileM (List String × Nat) := do
  diskIo (.openDir dir) "project_list_dir_dup_failed"
  diskIo (.openDir dir) "project_list_fdopendir_failed"
  let raw ← diskIo (.readDir dir) "project_list_readdir_failed"
  let raw := raw.filter (fun name => name != "." && name != "..")
  let names := raw.filter listableName
  pure (names.insertionSort (· ≤ ·), saturatingAdd32 (raw.length - names.length) (foreign dir))

/-- `stat_entry_nofollow`. -/
def statEntryNofollow (p : Path) : FileM Stat := do
  match ← io (.statAt p) "project_list_entry_stat_failed" with
  | some (stat, _) => pure stat
  | none => throw (workspaceError "project_list_entry_stat_failed")

/-- What is done with an entry that is there; the second component says whether the loop returns.
    There is no `child` where the depth is `MAX_PROJECT_SEARCH_DEPTH`. -/
def walkFound (child : Option (Path → String → WalkState → FileM WalkState)) (path : Path)
    (relative : String) (state : WalkState) : Stat → FileM (WalkState × Bool)
  | .dir =>
    match child with
    | none => pure (state.truncate, false)
    | some child => do
      match ← settle (attempt (Workspace.Op.openAt path) : FileM Bool) with
      | .ok true => do
        let state ← child path relative state
        pure (state, state.truncated)
      | .ok false | .error _ => pure ((state.skip 1).truncate, false)
  | .file size executable links =>
    if links ≠ 1 then pure (state.skip 1, false)
    else if state.files.length ≥ state.maxFiles then pure (state.truncate, true)
    else pure (state.push ⟨relative, size, executable⟩, false)
  | .symlink | .special => pure (state.skip 1, false)

/-- The body of the loop of `walk_project_dir`. -/
def walkEntry (child : Option (Path → String → WalkState → FileM WalkState)) (dir : Path)
    (pfx name : String) (state : WalkState) : FileM (WalkState × Bool) :=
  if state.entriesSeen ≥ maxProjectWalkEntries then pure (state.truncate, true)
  else if startsWith name workspaceTempPrefix then pure (state.see.skip 1, false)
  else do
    match ← settle (statEntryNofollow (dir ++ [name])) with
    | .error _ => pure (state.see.skip 1, false)
    | .ok stat =>
      let relative := relativePath pfx name
      if len relative > maxRelativePathBytes then
        pure (if stat = .dir then (state.see.skip 1).truncate else state.see.skip 1, false)
      else walkFound child (dir ++ [name]) relative state.see stat

/-- The loop of `walk_project_dir`. -/
def walkEach (body : String → WalkState → FileM (WalkState × Bool)) :
    List String → WalkState → FileM WalkState
  | [], state => pure state
  | name :: names, state => do
    let (state, returns) ← body name state
    if returns then pure state else walkEach body names state

/-- One directory. -/
def walkDir (foreign : Path → Nat) (child : Option (Path → String → WalkState → FileM WalkState))
    (dir : Path) (pfx : String) (state : WalkState) : FileM WalkState :=
  if state.truncated then pure state
  else do
    let (names, skippedNames) ← readDirNames foreign dir
    walkEach (walkEntry child dir pfx) names (state.skip skippedNames)

/-- `walk_project_dir`; `levels` is `MAX_PROJECT_SEARCH_DEPTH - depth`, and no call is deeper. -/
def walkProjectDir (foreign : Path → Nat) :
    (levels : Nat) → (dir : Path) → (pfx : String) → WalkState → FileM WalkState
  | 0 => walkDir foreign none
  | levels + 1 => walkDir foreign (some (walkProjectDir foreign levels))

/-- `list_project_files`. -/
def listProjectFiles (foreign : Path → Nat) (project : ProjectRef) (maxEntries : Nat) :
    FileM ProjectFileList := do
  refuseIf (decide (maxEntries = 0) || decide (maxEntries > maxProjectListEntries))
    "project_list_limit_invalid"
  let root ← openVerifiedProjectRoot project
  let state ← walkProjectDir foreign maxProjectSearchDepth root ""
    { files := [], skipped := 0, entriesSeen := 0, truncated := false, maxFiles := maxEntries }
  pure {
    files := state.files.insertionSort (fun a b => a.relativePath ≤ b.relativePath)
    skippedEntries := state.skipped
    truncated := state.truncated }

/-! ## Matches -/

/-- `str::match_indices`, from an index on; `skip` characters belong to the last match. -/
def matchIndices (needle : List Char) : List Char → (index skip : Nat) → List Nat
  | [], _, _ => []
  | _ :: text, index, skip + 1 => matchIndices needle text (index + 1) skip
  | c :: text, index, 0 =>
    if needle.isPrefixOf (c :: text) then
      index :: matchIndices needle text (index + 1) (needle.length - 1)
    else matchIndices needle text (index + 1) 0

/-- `str::rfind` of a line break: the index after it. -/
def lineStartOf (before : List Char) : Nat :=
  before.length - (before.reverse.takeWhile (· ≠ '\n')).length

/-- `locate_text_match`. -/
def locateTextMatch (text : List Char) (index : Nat) : Nat × Nat × String :=
  let before := text.take index
  let lineStart := lineStartOf before
  let line := before.count '\n' + 1
  let column := (before.drop lineStart).length + 1
  let lineEnd := index + ((text.drop index).takeWhile (· ≠ '\n')).length
  let rawPreview := (text.take lineEnd).drop lineStart
  let preview := (rawPreview.take 240).map (fun c => if isControl c then ' ' else c)
  (min line u32Max, min column u32Max, String.ofList preview)

/-! ## Searching -/

/-- `ProjectTextMatch`. -/
structure ProjectTextMatch where
  relativePath : String
  line : Nat
  column : Nat
  preview : String
  deriving DecidableEq, Repr

/-- `ProjectTextSearchResult`. -/
structure ProjectTextSearchResult where
  matches_ : List ProjectTextMatch
  filesScanned : Nat
  filesSkipped : Nat
  bytesScanned : Nat
  truncated : Bool
  deriving DecidableEq, Repr

/-- `result.files_skipped = result.files_skipped.saturating_add(1)`. -/
def ProjectTextSearchResult.skip (result : ProjectTextSearchResult) : ProjectTextSearchResult :=
  { result with filesSkipped := saturatingAdd32 result.filesSkipped 1 }

/-- `result.truncated = true`. -/
def ProjectTextSearchResult.truncate (result : ProjectTextSearchResult) :
    ProjectTextSearchResult := { result with truncated := true }

/-- The match at an index. -/
def textMatch (relative : String) (text : List Char) (index : Nat) : ProjectTextMatch :=
  let (line, column, preview) := locateTextMatch text index
  { relativePath := relative, line := line, column := column, preview := preview }

/-- The loop over the matches of a text; the second component says whether the search returns. -/
def collectMatches (relative : String) (text : List Char) (maxMatches : Nat) :
    List Nat → ProjectTextSearchResult → ProjectTextSearchResult × Bool
  | [], result => (result, false)
  | index :: rest, result =>
    if result.matches_.length ≥ maxMatches then (result.truncate, true)
    else
      collectMatches relative text maxMatches rest
        { result with matches_ := result.matches_ ++ [textMatch relative text index] }

/-- The loop over the files. -/
def searchFiles (project : ProjectRef) (needle : List Char) (maxMatches : Nat) :
    List ProjectFileEntry → ProjectTextSearchResult → FileM ProjectTextSearchResult
  | [], result => pure result
  | entry :: files, result =>
    if entry.sizeBytes > maxProjectSearchFileBytes then
      searchFiles project needle maxMatches files result.skip
    else if saturatingAdd64 result.bytesScanned entry.sizeBytes > maxProjectSearchTotalBytes then
      pure result.truncate
    else do
      match ← settle (readFile project entry.relativePath maxProjectSearchFileBytes) with
      | .error _ => searchFiles project needle maxMatches files result.skip
      | .ok bytes =>
        if saturatingAdd64 result.bytesScanned bytes.length > maxProjectSearchTotalBytes then
          pure result.truncate
        else
          let result :=
            { result with bytesScanned := saturatingAdd64 result.bytesScanned bytes.length }
          match fromUtf8 bytes with
          | none => searchFiles project needle maxMatches files result.skip
          | some text =>
            let scanned := { result with filesScanned := saturatingAdd32 result.filesScanned 1 }
            match collectMatches entry.relativePath text maxMatches (matchIndices needle text 0 0)
                scanned with
            | (result, true) => pure result
            | (result, false) => searchFiles project needle maxMatches files result

/-- `search_project_text`. -/
def searchProjectText (foreign : Path → Nat) (project : ProjectRef) (needle : String)
    (maxMatches : Nat) : FileM ProjectTextSearchResult := do
  refuseIf needle.isEmpty "project_search_needle_empty"
  refuseIf (decide (len needle > 4096) || needle.toList.contains (Char.ofNat 0))
    "project_search_needle_invalid"
  refuseIf (decide (maxMatches = 0) || decide (maxMatches > maxProjectSearchMatches))
    "project_search_match_limit_invalid"
  let listing ← listProjectFiles foreign project maxProjectSearchFiles
  searchFiles project needle.toList maxMatches listing.files
    { matches_ := [], filesScanned := 0, filesSkipped := listing.skippedEntries, bytesScanned := 0
      truncated := listing.truncated }

end VibeCoder.Workspace
