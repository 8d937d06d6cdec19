/-
  The check of an installed runtime on a directory as it is (`verify_runtime_tree`).

  `Host.RuntimeTree` has the same check on directories of regular files, with the manifest, the
  receipt and their tests.  Here a directory holds whatever a file system can: directories, regular
  files, symbolic links and special files, under names that need not be UTF-8.

  Left out: reads that fail, and changes while the check runs.  `fs::canonicalize` is asked for the
  root, where links above it can matter; below, it is only asked for a path whose parts have been
  looked at one by one, and returns it.
-/
import VibeCoder.Host.RuntimeTree
import VibeCoder.Lib.NodeTree
import VibeCoder.Build.Repair

namespace VibeCoder.RuntimeDirectory

open NodeTree
open Gateway (refuse)
open Host (hostError)
open Installer (manifestName receiptName samePaths)
open RuntimeTree (ManifestFile BundleManifest InstallReceipt validateManifestRelativePath
  maxManifestBytes maxReceiptBytes maxFiles maxFileBytes maxTotalBytes profileRuntime isSha256)
open Workspace (Component components)

/-! ## Directories -/

/-- `OsString`: text, or bytes that are not UTF-8. -/
inductive OsName where
  | text (value : String)
  | bytes (value : List UInt8)
  deriving DecidableEq

/-- `to_str`. -/
def OsName.toStr : OsName → Option String
  | .text value => some value
  | .bytes _ => none

/-- What `symlink_metadata` tells apart, besides directories. -/
inductive Leaf where
  | file (content : List UInt8)
  | symlink
  | special
  deriving DecidableEq

/-- A node of the file system. -/
abbrev Node := NodeTree.Node OsName Leaf

/-- The entries of a directory. -/
abbrev Entries := List (OsName × Node)

/-- A text that stands for an entry of its directory, and not for the directory or its parent. -/
structure PlainName (name : String) : Prop where
  nonempty : name ≠ ""
  not_dot : name ≠ "."
  not_parent : name ≠ ".."

/-- A text that can be the name of an entry. -/
structure EntryName (name : String) : Prop extends PlainName name where
  no_slash : '/' ∉ name.toList
  no_nul : hasNul name = false

/-- No name twice, and only names that an entry can have. -/
structure ProperEntries (entries : Entries) : Prop where
  distinct : DistinctNames entries
  named : ∀ e ∈ entries, ∀ name, e.1.toStr = some name → EntryName name

/-- The root of the runtime: what is at its path, and where the path leads to. -/
structure Place where
  path : String
  node : Option Node
  canonical : Option String
  proper : ∀ n, node = some n → AllDirs ProperEntries n

/-! ## The check -/

/-- What is used of `serde_json` and `sha2`. -/
structure Crates where
  readManifest : List UInt8 → Option BundleManifest
  readReceipt : List UInt8 → Option InstallReceipt
  sha256 : List UInt8 → Vector UInt8 32

/-- `hex_digest`. -/
def hexDigest (digest : Vector UInt8 32) : String :=
  String.ofList (digest.toList.flatMap Build.hexByte)

variable (crates : Crates)

/-- `sha256_bytes` and `sha256_file`. -/
def Crates.sha256Hex (content : List UInt8) : String := hexDigest (crates.sha256 content)

/-- The loop of `canonical_relative_file`; `names` have been gone down. -/
def walkDown (node : Node) : List Component → List OsName → Result (List OsName)
  | [], names => .ok names
  | .normal name :: rest, names =>
    match get [.text name] node with
    | none => .error (hostError "android_host_omniroute_payload_missing")
    | some (.leaf .symlink) =>
      .error (hostError "android_host_omniroute_runtime_symlink_forbidden")
    | some (.leaf value) =>
      if rest = [] then walkDown (.leaf value) rest (names ++ [.text name])
      else .error (hostError "android_host_omniroute_payload_parent_invalid")
    | some (.dir entries) => walkDown (.dir entries) rest (names ++ [.text name])
  | _ :: _, _ => .error (hostError "android_host_omniroute_manifest_path_invalid")

/-- `canonical_relative_file`. -/
def canonicalRelativeFile (root : Node) (relative : String) : Result (List OsName) :=
  walkDown root (components relative) []

/-- `read_bounded_file`, of an entry of the root. -/
def readBoundedFile (root : Node) (name : String) (maxBytes : Nat) : Result (List UInt8) :=
  match get [.text name] root with
  | none => .error (hostError "android_host_omniroute_metadata_read_failed")
  | some (.leaf (.file content)) =>
    if content.length > maxBytes then
      .error (hostError "android_host_omniroute_bounded_file_invalid")
    else .ok content
  | some _ => .error (hostError "android_host_omniroute_bounded_file_invalid")

/-- The content of a payload: `symlink_metadata` and `is_file`. -/
def payload (root : Node) (names : List OsName) : Result (List UInt8) :=
  match get names root with
  | none => .error (hostError "android_host_omniroute_payload_missing")
  | some (.leaf (.file content)) => .ok content
  | some _ => .error (hostError "android_host_omniroute_payload_identity_mismatch")

/-- The loop of `verify_runtime_tree` over the files: the paths and the total so far. -/
def verifyFiles (root : Node) : List ManifestFile → List String → Nat → Result (List String × Nat)
  | [], expectedPaths, totalBytes => .ok (expectedPaths, totalBytes)
  | item :: rest, expectedPaths, totalBytes => do
    validateManifestRelativePath item.path
    refuse (item.size.toNat > maxFileBytes ∨ isSha256 item.sha256 = false ∨
      item.path ∈ expectedPaths) (hostError "android_host_omniroute_manifest_file_invalid")
    let names ← canonicalRelativeFile root item.path
    let content ← payload root names
    refuse (content.length ≠ item.size.toNat)
      (hostError "android_host_omniroute_payload_identity_mismatch")
    refuse (crates.sha256Hex content ≠ item.sha256)
      (hostError "android_host_omniroute_payload_sha_mismatch")
    refuse (totalBytes + item.size.toNat ≥ 2 ^ 64)
      (hostError "android_host_omniroute_total_bytes_overflow")
    refuse (totalBytes + item.size.toNat > maxTotalBytes)
      (hostError "android_host_omniroute_total_bytes_exceeded")
    verifyFiles root rest (item.path :: expectedPaths) (totalBytes + item.size.toNat)

/-! ## The walk -/

/-- The path below the root, as text. -/
def relativeText (names : List OsName) : Option String :=
  (names.mapM OsName.toStr).map ("/".intercalate ·)

/-- The walk at an entry that is no directory. -/
def visitLeaf (path : List OsName) : Leaf → List String → Result (List String)
  | .symlink, _ => .error (hostError "android_host_omniroute_runtime_symlink_forbidden")
  | .file _, files => do
    let relative ← RuntimeTree.orFail "android_host_omniroute_runtime_path_non_utf8" (relativeText path)
    refuse ((files.insert relative).length > maxFiles + 2)
      (hostError "android_host_omniroute_runtime_file_limit")
    return files.insert relative
  | .special, _ => .error (hostError "android_host_omniroute_runtime_special_file_forbidden")

mutual

/-- The walk at an entry. -/
def visitNode : Node → List OsName → List String → Result (List String)
  | .leaf value, path, files => visitLeaf path value files
  | .dir entries, path, files => collectRuntimeFiles entries path files

/-- `collect_runtime_files`, of the directory at a path. -/
def collectRuntimeFiles : Entries → List OsName → List String → Result (List String)
  | [], _, files => .ok files
  | (name, node) :: rest, directory, files => do
    let files ← visitNode node (directory ++ [name]) files
    collectRuntimeFiles rest directory files

end

/-! ## The whole -/

/-- `OmniRouteRuntimeVerification`. -/
structure OmniRouteRuntimeVerification where
  root : String
  manifestSha256 : String
  treeSha256 : String
  fileCount : UInt64
  totalBytes : Nat
  deriving DecidableEq

/-- The first lines: the root is a directory, and its path its own. -/
def openRoot (place : Place) : Result (String × Entries) :=
  match place.node with
  | none => .error (hostError "android_host_omniroute_runtime_missing")
  | some (.leaf _) => .error (hostError "android_host_omniroute_runtime_root_invalid")
  | some (.dir entries) =>
    match place.canonical with
    | none => .error (hostError "android_host_omniroute_runtime_canonicalize_failed")
    | some canonicalRoot =>
      if canonicalRoot ≠ place.path then
        .error (hostError "android_host_omniroute_runtime_root_identity_mismatch")
      else .ok (canonicalRoot, entries)

/-- `verify_runtime_tree`. -/
def verifyRuntimeTree (place : Place) (expectedManifestSha256 : String) :
    Result OmniRouteRuntimeVerification := do
  let opened ← openRoot place
  let root : Node := .dir opened.2
  let manifestBytes ← readBoundedFile root manifestName maxManifestBytes
  let manifestSha256 := crates.sha256Hex manifestBytes
  refuse (isSha256 expectedManifestSha256 = false ∨ manifestSha256 ≠ expectedManifestSha256)
    (hostError "android_host_omniroute_signed_manifest_sha_mismatch")
  let manifest ← RuntimeTree.orFail "android_host_omniroute_manifest_invalid" (crates.readManifest manifestBytes)
  refuse (manifest.identity = false)
    (hostError "android_host_omniroute_manifest_identity_mismatch")
  refuse (manifest.runtime ≠ profileRuntime)
    (hostError "android_host_omniroute_manifest_runtime_profile_mismatch")
  let receiptBytes ← readBoundedFile root receiptName maxReceiptBytes
  let receipt ← RuntimeTree.orFail "android_host_omniroute_receipt_invalid" (crates.readReceipt receiptBytes)
  refuse (receipt.accords manifestSha256 manifest = false)
    (hostError "android_host_omniroute_receipt_mismatch")
  let expected ← verifyFiles crates root manifest.files [] 0
  refuse (manifest.files.length ≠ manifest.fileCount.toNat ∨ manifest.files.length > maxFiles ∨
      expected.2 ≠ manifest.totalBytes.toNat ∨
      crates.sha256Hex (manifest.files.flatMap ManifestFile.digestLine) ≠ manifest.treeSha256)
    (hostError "android_host_omniroute_manifest_tree_mismatch")
  refuse ("server-ws.mjs" ∉ expected.1)
    (hostError "android_host_omniroute_entrypoint_missing")
  let actualPaths ← collectRuntimeFiles opened.2 [] []
  refuse (samePaths (actualPaths.filter (fun path => path ≠ manifestName && path ≠ receiptName))
      expected.1 = false)
    (hostError "android_host_omniroute_unexpected_or_missing_files")
  return {
    root := opened.1
    manifestSha256 := manifestSha256
    treeSha256 := manifest.treeSha256
    fileCount := manifest.fileCount
    totalBytes := expected.2 }

end VibeCoder.RuntimeDirectory
