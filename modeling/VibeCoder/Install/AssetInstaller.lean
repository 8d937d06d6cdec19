/-
  The installer of the sealed OmniRoute bundle (`OmniRouteAssetInstaller.java`).

  1. **Manifests** — `BundleManifest.parse` and the receipt, over what `org.json` answers about the
     bytes of a file; that reader and SHA-256 are parameters (`Platform`).

  2. **Storage** — the directories of the runtime root and the files in each, by relative path.  A
     fault makes an operation throw, and makes the tests of `java.io.File`, which do not throw,
     answer "no".

  3. **The installer** — `ensureInstalled` and what it calls, one operation of the file system at a
     time.  A rename is one operation; a file is written chunk by chunk.

  Left out: permission bits, symbolic links (nothing makes one), inner directories as entries of
  their own (they hold no bytes, and a walk collects files), and the lock file, under which calls run
  one after the other.
-/
import Mathlib.Algebra.GroupWithZero.Nat
import Mathlib.Algebra.Ring.Int.Defs
import Mathlib.Data.List.AList
import Mathlib.Data.List.Sort
import Mathlib.Data.String.Basic
import VibeCoder.Lib.Resumption

namespace VibeCoder.Installer

open Resume

def manifestName : String := ".vibecoder-omniroute-bundle.json"
def receiptName : String := ".vibecoder-omniroute-install.json"
def installRelativeRoot : String := "vibecoder/runtime/omniroute"

def expectedComponent : String := "omniroute"
def expectedVersion : String := "3.8.50"
def expectedProfile : String := "vibecoder-omniroute-android-backend-v1"
def expectedNode : String := "24.19.0"
def expectedSourceSha256 : String :=
  "1c33cd369119f17cc8343e7373254f7a93623166dc123246119c379ea9a17ad7"
def expectedPatchSha256 : String :=
  "aec0f63fb0dec08f24fffde9209504ec447e9428bec1cd64c033649ed275fe3d"

def maxManifestBytes : Nat := 8 * 1024 * 1024
def maxReceiptBytes : Nat := 128 * 1024
def maxFiles : Int := 100000
def maxFileBytes : Int := 256 * 1024 * 1024
def maxTotalBytes : Int := 1024 * 1024 * 1024
def copyBufferBytes : Nat := 128 * 1024

/-! ## Texts and errors -/

structure Throwable where
  simpleName : String
  message : Option String
  deriving DecidableEq, Repr

def ioException (message : String) : Throwable := ⟨"IOException", some message⟩

/-- The UTF-16 units of a character. -/
def utf16Size (c : Char) : Nat := if c.toNat < 0x10000 then 1 else 2

/-- `String.length()`. -/
def utf16Length (cs : List Char) : Nat := (cs.map utf16Size).sum

/-- `substring(0, n)`; a pair that the cut would split is left out. -/
def takeUtf16 : Nat → List Char → List Char
  | _, [] => []
  | n, c :: cs => if utf16Size c ≤ n then c :: takeUtf16 (n - utf16Size c) cs else []

/-- `safeReason`. -/
def safeReason (error : Throwable) : String :=
  String.ofList (takeUtf16 300 (error.simpleName ++ ":" ++ error.message.getD "no_message").toList)

/-- `getBytes(US_ASCII)`. -/
def asciiBytes (value : String) : List Char :=
  value.toList.map (fun c => if c.toNat < 128 then c else '?')

/-- `constantEquals`. -/
def constantEquals (left right : String) : Bool := asciiBytes left = asciiBytes right

/-- `isSha256`: 64 lower case hex digits. -/
def isSha256 (value : String) : Bool :=
  value.toList.length = 64 && value.toList.all (fun c => c.isDigit || ('a' ≤ c && c ≤ 'f'))

/-- `checkedAdd` on non-negative longs. -/
def checkedAdd (left right : Int) : Except Throwable Int :=
  if right < 0 || left > 2 ^ 63 - 1 - right then .error (ioException "omniroute_size_overflow")
  else .ok (left + right)

/-- `validateRelativePath`. -/
def validateRelativePath (value : String) : Except Throwable Unit :=
  let chars := value.toList
  if chars.isEmpty || utf16Length chars > 4096 then
    .error (ioException "omniroute_relative_path_invalid")
  else if chars.head? = some '/' || '\\' ∈ chars || Char.ofNat 0 ∈ chars then
    .error (ioException ("omniroute_relative_path_invalid:" ++ value))
  else if (chars.splitOn '/').any (fun part => part = [] || part = ['.'] || part = ['.', '.']) then
    .error (ioException ("omniroute_relative_path_invalid:" ++ value))
  else .ok ()

/-! ## Manifests -/

/-- What the reader asks about `runtime.environment`. -/
structure EnvironmentJson where
  port : String
  dashboardPort : String
  hostname : String
  vectorStoreDisableVec : String
  omnirouteMitmStub : String
  deriving DecidableEq, Repr

/-- What the reader asks about `runtime`. -/
structure RuntimeJson where
  bindHost : String
  port : Int
  entrypoint : String
  environment : Option EnvironmentJson
  deriving DecidableEq, Repr

structure FileJson where
  path : String
  size : Int
  sha256 : String
  deriving DecidableEq, Repr

/-- The answers of the `opt` methods of a manifest, with the defaults asked for. -/
structure ManifestJson where
  schema : Int
  componentId : String
  version : String
  profileId : String
  requiredNodeVersion : String
  sourceArchiveSha256 : String
  routingPatchProfileSha256 : String
  apkAssetPackaged : Bool
  serviceRoundTripProven : Bool
  runtime : Option RuntimeJson
  treeSha256 : String
  totalBytes : Int
  fileCount : Int
  /-- `getJSONObject` throws on an entry that is no object. -/
  files : Option (List (Except Throwable FileJson))

/-- A receipt, as `buildReceipt` puts it together. -/
structure Receipt where
  schema : Int
  componentId : String
  version : String
  profileId : String
  manifestSha256 : String
  treeSha256 : String
  installRoot : String
  source : String
  serviceRoundTripProven : Bool
  deriving DecidableEq, Repr

/-- The answers of the `opt` methods of a receipt. -/
structure ReceiptJson where
  schema : Int
  componentId : String
  version : String
  profileId : String
  manifestSha256 : String
  treeSha256 : String
  deriving DecidableEq, Repr

/-- What the installer uses of the platform. -/
structure Platform where
  readManifest : List UInt8 → Except Throwable ManifestJson
  readReceipt : List UInt8 → Except Throwable ReceiptJson
  /-- `JSONObject.toString`, as UTF-8. -/
  receiptText : Receipt → List UInt8
  /-- The digest in hex. -/
  sha256 : List UInt8 → String

structure ManifestFile where
  path : String
  size : Int
  sha256 : String
  deriving DecidableEq, Repr

structure BundleManifest where
  treeSha256 : String
  totalBytes : Int
  files : List ManifestFile
  deriving DecidableEq, Repr

variable (platform : Platform)

def utf8Bytes (value : String) : List UInt8 := value.toList.flatMap String.utf8EncodeChar

/-- What one file adds to the tree digest. -/
def ManifestFile.digestLine (item : ManifestFile) : List UInt8 :=
  utf8Bytes item.path ++ [0] ++ utf8Bytes (toString item.size) ++ [0] ++ utf8Bytes item.sha256 ++ [10]

/-- The loop of `BundleManifest.parse` over the files: those read so far and their total. -/
def parseFiles : List (Except Throwable FileJson) → List ManifestFile → Int →
    Except Throwable (List ManifestFile × Int)
  | [], files, total => .ok (files, total)
  | entry :: rest, files, total => do
    let item ← entry
    validateRelativePath item.path
    if item.path = manifestName || item.path = receiptName ||
        item.path ∈ files.map ManifestFile.path then
      throw (ioException ("omniroute_bundle_duplicate_or_reserved_path:" ++ item.path))
    if item.size < 0 || item.size > maxFileBytes || !isSha256 item.sha256 then
      throw (ioException ("omniroute_bundle_file_metadata_invalid:" ++ item.path))
    let total ← checkedAdd total item.size
    if total > maxTotalBytes then throw (ioException "omniroute_bundle_total_limit_exceeded")
    parseFiles rest (files ++ [⟨item.path, item.size, item.sha256⟩]) total

def requiredFiles : List String :=
  ["server.js", "server-ws.mjs", "package.json", "build/runtime-env.mjs", "build/bootstrap-env.mjs",
    "healthcheck.mjs", "node_modules/sql.js/package.json"]

/-- A file below `migrations/`. -/
def isMigration (path : String) : Bool :=
  "migrations/".toList.isPrefixOf path.toList && path.toList.length > "migrations/".toList.length

/-- The identity a manifest must state. -/
def ManifestJson.identity (root : ManifestJson) : Bool :=
  root.schema = 1 && root.componentId = expectedComponent && root.version = expectedVersion &&
    root.profileId = expectedProfile && root.requiredNodeVersion = expectedNode &&
    root.sourceArchiveSha256 = expectedSourceSha256 &&
    root.routingPatchProfileSha256 = expectedPatchSha256

def RuntimeJson.contract (runtime : RuntimeJson) : Bool :=
  runtime.bindHost = "127.0.0.1" && runtime.port = 20128 && runtime.entrypoint = "server-ws.mjs"

def EnvironmentJson.contract (environment : EnvironmentJson) : Bool :=
  environment.port = "20128" && environment.dashboardPort = "20128" &&
    environment.hostname = "127.0.0.1" && environment.vectorStoreDisableVec = "true" &&
    environment.omnirouteMitmStub = "1"

/-- The checks of `BundleManifest.parse` before it reads the files. -/
def ManifestJson.checkHeader (root : ManifestJson) :
    Except Throwable (List (Except Throwable FileJson)) := do
  if !root.identity then throw (ioException "omniroute_bundle_identity_mismatch")
  if root.apkAssetPackaged || root.serviceRoundTripProven then
    throw (ioException "omniroute_bundle_manifest_overclaims_proof")
  if !root.runtime.any RuntimeJson.contract then
    throw (ioException "omniroute_bundle_runtime_contract_mismatch")
  if !(root.runtime.bind RuntimeJson.environment).any EnvironmentJson.contract then
    throw (ioException "omniroute_bundle_runtime_environment_mismatch")
  if !isSha256 root.treeSha256 then throw (ioException "omniroute_bundle_tree_sha_invalid")
  if root.totalBytes < 0 || root.totalBytes > maxTotalBytes || root.fileCount < 1 ||
      root.fileCount > maxFiles then
    throw (ioException "omniroute_bundle_limits_invalid")
  match root.files with
  | none => throw (ioException "omniroute_bundle_file_count_mismatch")
  | some array =>
    if (array.length : Int) ≠ root.fileCount then
      throw (ioException "omniroute_bundle_file_count_mismatch")
    pure array

/-- `BundleManifest.parse`. -/
def BundleManifest.parse (bytes : List UInt8) : Except Throwable BundleManifest := do
  let root ← platform.readManifest bytes
  let array ← root.checkHeader
  let (files, total) ← parseFiles array [] 0
  if total ≠ root.totalBytes then throw (ioException "omniroute_bundle_declared_total_mismatch")
  if !constantEquals (platform.sha256 (files.flatMap ManifestFile.digestLine)) root.treeSha256 then
    throw (ioException "omniroute_bundle_tree_digest_mismatch")
  let seen := files.map ManifestFile.path
  match requiredFiles.find? (fun required => required ∉ seen) with
  | some required => throw (ioException ("omniroute_bundle_required_file_missing:" ++ required))
  | none =>
    if !seen.any isMigration then throw (ioException "omniroute_bundle_migrations_missing")
    pure ⟨root.treeSha256, root.totalBytes, files⟩

/-- The receipt an installed tree must carry. -/
def ReceiptJson.matches (receipt : ReceiptJson) (manifestSha : String) (manifest : BundleManifest) :
    Bool :=
  receipt.schema = 1 && receipt.componentId = expectedComponent &&
    receipt.version = expectedVersion && receipt.profileId = expectedProfile &&
    constantEquals manifestSha receipt.manifestSha256 &&
    constantEquals manifest.treeSha256 receipt.treeSha256

/-- `buildReceipt`. -/
def buildReceipt (manifest : BundleManifest) (manifestSha : String) : List UInt8 :=
  platform.receiptText
    { schema := 1
      componentId := expectedComponent
      version := expectedVersion
      profileId := expectedProfile
      manifestSha256 := manifestSha
      treeSha256 := manifest.treeSha256
      installRoot := installRelativeRoot
      source := "verified_apk_asset"
      serviceRoundTripProven := false } ++ [10]

/-! ## Storage -/

/-- The files of a directory, by their paths in it. -/
abbrev Dir := AList (fun _ : String => List UInt8)

/-- The directories in the runtime root, by name. -/
abbrev Root := AList (fun _ : String => Dir)

def currentName : String := "omniroute"
def previousName : String := ".omniroute-previous"
def stagePrefix : String := ".omniroute-stage-"

/-- The name of a staging directory. -/
def isStage (name : String) : Bool := stagePrefix.toList.isPrefixOf name.toList

def stageName (treeSha256 : String) : String :=
  stagePrefix ++ String.ofList (treeSha256.toList.take 16)

def Root.file (root : Root) (name path : String) : Option (List UInt8) :=
  (root.lookup name).bind (AList.lookup path)

/-- An inner directory that a path needs is a file. -/
def Dir.underFile (dir : Dir) (path : String) : Bool :=
  dir.keys.any (fun key => (key ++ "/").toList.isPrefixOf path.toList)

/-- The path is an inner directory. -/
def Dir.aboveFile (dir : Dir) (path : String) : Bool :=
  dir.keys.any (fun key => (path ++ "/").toList.isPrefixOf key.toList)

/-- The components of the directory a path lies in. -/
def parentComponents (path : String) : List (List Char) := (path.toList.splitOn '/').dropLast

/-- What `ensurePrivateDirectory` says of the directory of a path it cannot make. -/
def Dir.parentError (dir : Dir) (path : String) : Throwable :=
  let parent := parentComponents path
  let code :=
    if String.ofList (['/'].intercalate parent) ∈ dir.keys then "omniroute_private_directory_invalid:"
    else "omniroute_private_directory_create_failed:"
  ioException (code ++ String.ofList (parent.getLast?.getD []))

/-- The operations of the installer on the bundle and on the runtime root. -/
inductive Op where
  | openAsset (path : String)
  /-- The runtime root exists and its lock is held. -/
  | openRuntimeRoot
  | listFiles
  | fileExists (name : String)
  | isDirectory (name : String)
  | isFile (name path : String)
  | length (name path : String)
  | readFile (name path : String)
  /-- `Files.walk`: the regular files. -/
  | walk (name : String)
  | mkdirs (name : String)
  /-- `ensurePrivateDirectory` on the directory a payload file goes to. -/
  | mkParents (name path : String)
  | create (name path : String)
  | append (name path : String) (bytes : List UInt8)
  | sync (name path : String)
  /-- `Files.move` of a file, `REPLACE_EXISTING`. -/
  | replace (name source target : String)
  /-- `Files.move` of a directory. -/
  | rename (source target : String)
  | deleteFile (name path : String)
  | deleteDirectory (name : String)

/-- The answer to an operation. -/
abbrev Op.Val : Op → Type
  | .openAsset _ | .readFile _ _ => List UInt8
  | .openRuntimeRoot | .mkParents _ _ | .create _ _ | .append _ _ _ | .sync _ _ | .replace _ _ _
  | .rename _ _ | .deleteFile _ _ | .deleteDirectory _ => Unit
  | .listFiles => Option (List String)
  | .fileExists _ | .isDirectory _ | .isFile _ _ | .mkdirs _ => Bool
  | .length _ _ => Nat
  | .walk _ => List String

/-- What goes wrong with an operation: the exception, if it throws one, and how much of a chunk
    reaches the file all the same. -/
structure Fault where
  error : Throwable
  torn : Nat
  deriving DecidableEq, Repr

/-- The runtime root. -/
structure Store where
  root : Root
  /-- A directory that is there has been reported absent. -/
  hidden : Bool

namespace Store

def setDir (s : Store) (name : String) (dir : Dir) : Store :=
  { s with root := s.root.insert name dir }

/-- A change to one directory, if it is there. -/
def change (s : Store) (name : String) (f : Dir → Dir) : Store :=
  match s.root.lookup name with
  | none => s
  | some dir => s.setDir name (f dir)

end Store

def noSuchFile (path : String) : Throwable := ⟨"NoSuchFileException", some path⟩

/-- An operation on which nothing goes wrong. -/
def calm (assets : Dir) : (o : Op) → Store → Except Throwable o.Val × Store
  | .openAsset path, s =>
    (match assets.lookup path with
      | none => .error ⟨"FileNotFoundException", some path⟩
      | some bytes => .ok bytes, s)
  | .openRuntimeRoot, s => (.ok (), s)
  | .listFiles, s => (.ok (some s.root.keys), s)
  | .fileExists name, s => (.ok (s.root.lookup name).isSome, s)
  | .isDirectory name, s => (.ok (s.root.lookup name).isSome, s)
  | .isFile name path, s => (.ok (s.root.file name path).isSome, s)
  | .length name path, s => (.ok (((s.root.file name path).map List.length).getD 0), s)
  | .readFile name path, s =>
    (match s.root.file name path with
      | none => .error ⟨"FileNotFoundException", some path⟩
      | some bytes => .ok bytes, s)
  | .walk name, s =>
    (match s.root.lookup name with
      | none => .error (noSuchFile name)
      | some dir => .ok dir.keys, s)
  | .mkdirs name, s =>
    match s.root.lookup name with
    | some _ => (.ok false, s)
    | none => (.ok true, s.setDir name ∅)
  | .mkParents name path, s =>
    match s.root.lookup name with
    | none => (.error (noSuchFile name), s)
    | some dir =>
      if dir.underFile path then (.error (dir.parentError path), s) else (.ok (), s)
  | .create name path, s =>
    match s.root.lookup name with
    | none => (.error ⟨"FileNotFoundException", some path⟩, s)
    | some dir =>
      if dir.underFile path || dir.aboveFile path then
        (.error ⟨"FileNotFoundException", some path⟩, s)
      else (.ok (), s.setDir name (dir.insert path []))
  | .append name path bytes, s =>
    (.ok (), s.change name (fun dir => dir.insert path ((dir.lookup path).getD [] ++ bytes)))
  | .sync _ _, s => (.ok (), s)
  | .replace name source target, s =>
    match s.root.file name source with
    | none => (.error (noSuchFile source), s)
    | some bytes =>
      -- a file does not take the place of a directory
      if ((s.root.lookup name).getD ∅).aboveFile target then
        (.error ⟨"FileSystemException", some (source ++ " -> " ++ target ++ ": Is a directory")⟩, s)
      else (.ok (), s.change name (fun dir => (dir.erase source).insert target bytes))
  | .rename source target, s =>
    match s.root.lookup source with
    | none => (.error (noSuchFile source), s)
    | some dir =>
      -- a directory that holds something is not replaced
      if ((s.root.lookup target).getD ∅).keys = [] then
        (.ok (), { s with root := (s.root.erase source).insert target dir })
      else (.error ⟨"DirectoryNotEmptyException", some target⟩, s)
  | .deleteFile name path, s => (.ok (), s.change name (fun dir => dir.erase path))
  | .deleteDirectory name, s =>
    if ((s.root.lookup name).getD ∅).keys = [] then
      (.ok (), { s with root := s.root.erase name })
    else (.error ⟨"DirectoryNotEmptyException", some name⟩, s)

/-- An operation on which something goes wrong: the tests of `File` answer as if nothing were
    there. -/
def faulty (fault : Fault) : (o : Op) → Store → Except Throwable o.Val × Store
  | .listFiles, s => (.ok none, { s with hidden := s.hidden || s.root.keys.any isStage })
  | .fileExists name, s =>
    (.ok false, { s with hidden := s.hidden || (s.root.lookup name).isSome })
  | .isDirectory _, s | .isFile _ _, s | .mkdirs _, s => (.ok false, s)
  | .length _ _, s => (.ok 0, s)
  | .append name path bytes, s =>
    (.error fault.error,
      s.change name (fun dir => dir.insert path ((dir.lookup path).getD [] ++ bytes.take fault.torn)))
  | .openAsset _, s | .readFile _ _, s => (.error fault.error, s)
  | .walk _, s => (.error fault.error, s)
  | .openRuntimeRoot, s | .mkParents _ _, s | .create _ _, s | .sync _ _, s | .replace _ _ _, s
  | .rename _ _, s | .deleteFile _ _, s | .deleteDirectory _, s => (.error fault.error, s)

def exec (assets : Dir) (fault : Option Fault) (o : Op) (s : Store) : Except Throwable o.Val × Store :=
  match fault with
  | none => calm assets o s
  | some fault => faulty fault o s

/-! ## The installer -/

abbrev Program := Prog Throwable Op Op.Val

def perform (o : Op) : Program o.Val := attempt o

def failIf (refused : Bool) (error : Throwable) : Program Unit :=
  if refused then throw error else pure ()

structure Verification where
  valid : Bool
  reason : String
  deriving DecidableEq, Repr

def Verification.ok : Verification := ⟨true, "ok"⟩

def Verification.fail (reason : String) : Verification := ⟨false, reason⟩

structure Result where
  packaged : Bool
  verified : Bool
  installedNow : Bool
  status : String
  installRoot : String
  treeSha256 : String
  manifestSha256 : String
  deriving DecidableEq, Repr

namespace Result

def notPackaged : Result := ⟨false, false, false, "not_packaged", "", "", ""⟩

def reused (root : String) (manifest : BundleManifest) (manifestSha : String) : Result :=
  ⟨true, true, false, "verified_existing", root, manifest.treeSha256, manifestSha⟩

def installed (root : String) (manifest : BundleManifest) (manifestSha : String) : Result :=
  ⟨true, true, true, "installed_verified", root, manifest.treeSha256, manifestSha⟩

end Result

/-- `readBounded`. -/
def readBounded (bytes : List UInt8) (maxBytes : Nat) : Except Throwable (List UInt8) :=
  if bytes.length > maxBytes then .error (ioException "omniroute_bounded_read_exceeded")
  else .ok bytes

/-- `readAssetBounded`. -/
def readAssetBounded (path : String) (maxBytes : Nat) : Program (List UInt8) := do
  let bytes ← perform (.openAsset path)
  resume (readBounded bytes maxBytes)

/-- `readFileBounded`. -/
def readFileBounded (name path : String) (maxBytes : Nat) : Program (List UInt8) := do
  let regular ← perform (.isFile name path)
  failIf (!regular) (ioException "omniroute_file_missing_or_too_large")
  let length ← perform (.length name path)
  failIf (length > maxBytes) (ioException "omniroute_file_missing_or_too_large")
  let bytes ← perform (.readFile name path)
  resume (readBounded bytes maxBytes)

/-- The loop of `verifyInstalled` over the payload: the total size, or why it fails. -/
def verifyPayload (name : String) : List ManifestFile → Int → Program (Except String Int)
  | [], totalBytes => pure (.ok totalBytes)
  | item :: rest, totalBytes => do
    let regular ← perform (.isFile name item.path)
    if !regular then return .error ("payload_missing_or_symlink:" ++ item.path)
    let size ← perform (.length name item.path)
    if (size : Int) ≠ item.size then return .error ("payload_size_mismatch:" ++ item.path)
    let content ← perform (.readFile name item.path)
    if !constantEquals (platform.sha256 content) item.sha256 then
      return .error ("payload_sha_mismatch:" ++ item.path)
    let totalBytes ← resume (checkedAdd totalBytes size)
    verifyPayload name rest totalBytes

/-- The paths an installed tree has. -/
def BundleManifest.expectedPaths (manifest : BundleManifest) (requireReceipt : Bool) : List String :=
  manifestName :: ((if requireReceipt then [receiptName] else []) ++
    manifest.files.map ManifestFile.path)

/-- `actualPaths.equals(expectedPaths)`. -/
def samePaths (actual expected : List String) : Bool :=
  actual.all (fun path => path ∈ expected) && expected.all (fun path => path ∈ actual)

/-- The receipt part of `verifyInstalled`. -/
def verifyReceipt (name : String) (requireReceipt : Bool) (manifestSha : String)
    (manifest : BundleManifest) : Program Bool := do
  if !requireReceipt then return true
  let receiptBytes ← readFileBounded name receiptName maxReceiptBytes
  let receipt ← resume (platform.readReceipt receiptBytes)
  return receipt.matches manifestSha manifest

/-- The body of the `try` block of `verifyInstalled`. -/
def verifySteps (name : String) (expectedManifestSha : Option String) (requireReceipt : Bool) :
    Program Verification := do
  let directory ← perform (.isDirectory name)
  if !directory then return .fail "root_missing_or_symlink"
  let manifestBytes ← readFileBounded name manifestName maxManifestBytes
  let manifestSha := platform.sha256 manifestBytes
  if !expectedManifestSha.all (constantEquals manifestSha) then return .fail "manifest_sha_mismatch"
  let manifest ← resume (BundleManifest.parse platform manifestBytes)
  let receipt ← verifyReceipt platform name requireReceipt manifestSha manifest
  if !receipt then return .fail "receipt_mismatch"
  match ← verifyPayload platform name manifest.files 0 with
  | .error reason => return .fail reason
  | .ok totalBytes =>
    if totalBytes ≠ manifest.totalBytes then return .fail "total_bytes_mismatch"
    let actualPaths ← perform (.walk name)
    if !samePaths actualPaths (manifest.expectedPaths requireReceipt) then
      return .fail "unexpected_or_missing_files"
    return .ok

/-- `verifyInstalled`. -/
def verifyInstalled (name : String) (expectedManifestSha : Option String) (requireReceipt : Bool) :
    Program Verification := do
  match ← settle (verifySteps platform name expectedManifestSha requireReceipt) with
  | .ok verification => return verification
  | .error error => return .fail (safeReason error)

/-- The files of a directory, deepest and last first. -/
def deletionOrder (paths : List String) : List String := paths.insertionSort (· ≥ ·)

def deleteFiles (name : String) : List String → Program Unit
  | [] => pure ()
  | path :: rest => do
    perform (.deleteFile name path)
    deleteFiles name rest

/-- `deleteTree`. -/
def deleteTree (name : String) : Program Unit := do
  let present ← perform (.fileExists name)
  if !present then return ()
  let paths ← perform (.walk name)
  deleteFiles name (deletionOrder paths)
  perform (.deleteDirectory name)

/-- `ensurePrivateDirectory` in the runtime root. -/
def ensurePrivateDirectory (name : String) : Program Unit := do
  let present ← perform (.fileExists name)
  if present then
    let directory ← perform (.isDirectory name)
    if !directory then throw (ioException ("omniroute_private_directory_invalid:" ++ name))
  else
    let made ← perform (.mkdirs name)
    if !made then
      let directory ← perform (.isDirectory name)
      if !directory then throw (ioException ("omniroute_private_directory_create_failed:" ++ name))

/-- `moveSameFilesystem`. -/
def moveSameFilesystem (source target : String) : Program Unit := do
  let here ← perform (.fileExists source)
  failIf (!here) (ioException "omniroute_move_source_missing")
  let there ← perform (.fileExists target)
  failIf there (ioException "omniroute_move_target_exists")
  perform (.rename source target)

/-- The loop of `copyAndVerifyAsset` over the chunks read: the bytes written. -/
def copyChunks (name : String) (expected : ManifestFile) : List (List UInt8) → Int → Program Int
  | [], written => pure written
  | chunk :: rest, written => do
    let written ← resume (checkedAdd written chunk.length)
    failIf (written > expected.size || written > maxFileBytes)
      (ioException ("omniroute_asset_size_exceeded:" ++ expected.path))
    perform (.append name expected.path chunk)
    copyChunks name expected rest written

/-- `copyAndVerifyAsset`. -/
def copyAndVerifyAsset (name : String) (expected : ManifestFile) : Program Unit := do
  let bytes ← perform (.openAsset expected.path)
  perform (.create name expected.path)
  let written ← copyChunks name expected (bytes.toChunks copyBufferBytes) 0
  perform (.sync name expected.path)
  failIf (written ≠ expected.size) (ioException ("omniroute_asset_size_mismatch:" ++ expected.path))
  failIf (!constantEquals (platform.sha256 bytes) expected.sha256)
    (ioException ("omniroute_asset_sha_mismatch:" ++ expected.path))

def copyAssets (name : String) : List ManifestFile → Program Unit
  | [] => pure ()
  | item :: rest => do
    perform (.mkParents name item.path)
    copyAndVerifyAsset platform name item
    copyAssets name rest

/-- `writeAtomic` of a file at the top of a directory. -/
def writeAtomic (name target : String) (bytes : List UInt8) (maxBytes : Nat) : Program Unit := do
  failIf (bytes.length > maxBytes) (ioException "omniroute_atomic_write_too_large")
  ensurePrivateDirectory name
  let temp := "." ++ target ++ ".tmp"
  perform (.create name temp)
  perform (.append name temp bytes)
  perform (.sync name temp)
  perform (.replace name temp target)

def deleteTrees : List String → Program Unit
  | [] => pure ()
  | child :: rest => do
    deleteTree child
    deleteTrees rest

/-- `cleanupStaleStages`. -/
def cleanupStaleStages : Program Unit := do
  let children ← perform .listFiles
  match children with
  | none => return ()
  | some children => deleteTrees (children.filter isStage)

/-- `recoverPreviousIfNeeded`. -/
def recoverPreviousIfNeeded : Program Unit := do
  let present ← perform (.fileExists previousName)
  if !present then return ()
  let currentAny ← verifyInstalled platform currentName none false
  if currentAny.valid then
    deleteTree previousName
  else
    let previousAny ← verifyInstalled platform previousName none false
    if !previousAny.valid then
      deleteTree previousName
    else
      deleteTree currentName
      moveSameFilesystem previousName currentName

/-- What a call has read of the packaged bundle. -/
structure Packaged where
  manifest : BundleManifest
  bytes : List UInt8
  sha : String

/-- The staging directory is filled and verified. -/
def stageBundle (packaged : Packaged) (stage : String) : Program Unit := do
  copyAssets platform stage packaged.manifest.files
  writeAtomic stage manifestName packaged.bytes maxManifestBytes
  let receipt := buildReceipt platform packaged.manifest packaged.sha
  writeAtomic stage receiptName receipt maxReceiptBytes
  let staged ← verifyInstalled platform stage (some packaged.sha) true
  failIf (!staged.valid) (ioException ("omniroute_stage_verification_failed:" ++ staged.reason))

/-- The previous directory goes, and the current one takes its place. -/
def makeRoom : Program Unit := do
  deleteTree previousName
  let present ← perform (.fileExists currentName)
  if present then moveSameFilesystem currentName previousName

def restorePrevious : Program Unit := do
  let previous ← perform (.fileExists previousName)
  if previous then moveSameFilesystem previousName currentName

/-- What is done about a commit that has failed. -/
def undoCommit : Program Unit := do
  let present ← perform (.fileExists currentName)
  if !present then restorePrevious

/-- The staging directory becomes the current one. -/
def commitStage (stage : String) : Program Unit := do
  makeRoom
  match ← settle (moveSameFilesystem stage currentName) with
  | .ok () => return ()
  | .error commitError => do
    undoCommit
    throw commitError

/-- The committed tree is verified, and withdrawn if that fails. -/
def finishInstall (packaged : Packaged) : Program Result := do
  let installed ← verifyInstalled platform currentName (some packaged.sha) true
  if installed.valid then
    deleteTree previousName
    return .installed currentName packaged.manifest packaged.sha
  else
    deleteTree currentName
    restorePrevious
    throw (ioException ("omniroute_post_commit_verification_failed:" ++ installed.reason))

/-- `ensureInstalledLocked` after recovery. -/
def installRecovered (packaged : Packaged) : Program Result := do
  let currentVerification ← verifyInstalled platform currentName (some packaged.sha) true
  if currentVerification.valid then
    deleteTree previousName
    return .reused currentName packaged.manifest packaged.sha
  let stage := stageName packaged.manifest.treeSha256
  deleteTree stage
  ensurePrivateDirectory stage
  -- `committed` is set where the commit ends, and the `finally` block acts before that
  match ← settle (do stageBundle platform packaged stage; commitStage stage) with
  | .error error => do
    deleteTree stage
    throw error
  | .ok () => finishInstall platform packaged

/-- `ensureInstalledLocked`. -/
def ensureInstalledLocked (packaged : Packaged) : Program Result := do
  cleanupStaleStages
  recoverPreviousIfNeeded platform
  installRecovered platform packaged

/-- `ensureInstalled`. -/
def ensureInstalled : Program Result := do
  match ← settle (readAssetBounded manifestName maxManifestBytes) with
  | .error missing =>
    if missing.simpleName = "FileNotFoundException" then return .notPackaged else throw missing
  | .ok packagedManifestBytes =>
    let packaged ← resume (BundleManifest.parse platform packagedManifestBytes)
    let packagedManifestSha := platform.sha256 packagedManifestBytes
    perform .openRuntimeRoot
    ensureInstalledLocked platform ⟨packaged, packagedManifestBytes, packagedManifestSha⟩

end VibeCoder.Installer
