/-
  The check of an installed runtime before it is started
  (`vibecoder-android-host/src/omniroute_service.rs`).

  1. **Documents** — the manifest and the receipt with the types that `serde` reads them at, and the
     `runtime` member of the compiled-in profile.
  2. **The check** — `verify_runtime_tree` on the files of a directory.
  3. **What it accepts** — `verifyRuntimeTree_iff`.

  The files of a directory are given by their paths, so that a directory above a file that is there
  is a directory; there are no symbolic links, the root is its own canonical path, every file can be
  read, and every name is UTF-8.  `usize` has 64 bits, as on the one ABI that is built.
-/
import VibeCoder.Gateway.ChatRequest
import VibeCoder.Host.ChatStop
import VibeCoder.Install.AssetInstaller
import VibeCoder.Process.Paths

namespace VibeCoder.RuntimeTree

open Gateway (refuse refuse_iff)
open Host (hostError)
open Installer (Dir manifestName receiptName expectedComponent expectedVersion expectedProfile
  expectedNode expectedSourceSha256 expectedPatchSha256 samePaths utf8Bytes)
open Workspace (Component components)

def maxManifestBytes : Nat := 8 * 1024 * 1024
def maxReceiptBytes : Nat := 128 * 1024
def maxFiles : Nat := 100000
def maxFileBytes : Nat := 256 * 1024 * 1024
def maxTotalBytes : Nat := 1024 * 1024 * 1024
def maxPathBytes : Nat := 4096

/-! ## Documents -/

/-- `serde_json::Number`. -/
inductive Number where
  | posInt (n : UInt64)
  | negInt (n : Int)
  | float (bits : UInt64)
  deriving DecidableEq

mutual

/-- `serde_json::Value`. -/
inductive Value where
  | null
  | bool (value : Bool)
  | number (value : Number)
  | string (value : String)
  | array (items : Items)
  | object (members : Members)

inductive Items where
  | nil
  | cons (item : Value) (rest : Items)

/-- The members of an object, in the order of their keys. -/
inductive Members where
  | nil
  | cons (key : String) (value : Value) (rest : Members)

end

deriving instance DecidableEq for Value, Items, Members

/-- An object with these members. -/
def Members.ofList : List (String × Value) → Members
  | [] => .nil
  | (key, value) :: rest => .cons key value (ofList rest)

/-- The `environment` of the profile. -/
def profileEnvironment : Value := .object (.ofList [
  ("API_PORT", .string "20128"), ("DASHBOARD_PORT", .string "20128"),
  ("HOSTNAME", .string "127.0.0.1"), ("NODE_ENV", .string "production"),
  ("OMNIROUTE_MEMORY_MB", .string "512"), ("OMNIROUTE_MITM_STUB", .string "1"),
  ("OMNIROUTE_PORT", .string "20128"), ("PORT", .string "20128"),
  ("VECTOR_STORE_DISABLE_VEC", .string "true")])

/-- `profile.get("runtime")`. -/
def profileRuntime : Value := .object (.ofList [
  ("bind_host", .string "127.0.0.1"), ("data_dir_policy", .string "runtime_service_private"),
  ("entrypoint", .string "server-ws.mjs"), ("environment", profileEnvironment),
  ("port", .number (.posInt 20128)), ("working_directory", .string "omniroute")])

structure ManifestFile where
  path : String
  size : UInt64
  sha256 : String

structure BundleManifest where
  schema : UInt32
  componentId : String
  version : String
  profileId : String
  sourceArchiveSha256 : String
  routingPatchProfileSha256 : String
  requiredNodeVersion : String
  runtime : Value
  fileCount : UInt64
  totalBytes : UInt64
  treeSha256 : String
  files : List ManifestFile
  apkAssetPackaged : Bool
  serviceRoundTripProven : Bool

structure InstallReceipt where
  schema : UInt32
  componentId : String
  version : String
  profileId : String
  manifestSha256 : String
  treeSha256 : String
  deriving DecidableEq

/-- What the host uses of `serde_json` and `sha2`. -/
structure Libraries where
  readManifest : List UInt8 → Option BundleManifest
  readReceipt : List UInt8 → Option InstallReceipt
  /-- The digest in hex. -/
  sha256 : List UInt8 → String

/-! ## The check -/

/-- `is_sha256`. -/
def isSha256 (value : String) : Bool :=
  len value = 64 && value.toList.all (fun c => c.isDigit || ('a' ≤ c && c ≤ 'f'))

/-- `validate_manifest_identity`. -/
def BundleManifest.identity (manifest : BundleManifest) : Bool :=
  manifest.schema = 1 && manifest.componentId = expectedComponent &&
    manifest.version = expectedVersion && manifest.profileId = expectedProfile &&
    manifest.requiredNodeVersion = expectedNode &&
    manifest.sourceArchiveSha256 = expectedSourceSha256 &&
    manifest.routingPatchProfileSha256 = expectedPatchSha256 && !manifest.apkAssetPackaged &&
    !manifest.serviceRoundTripProven && isSha256 manifest.treeSha256

/-- `matches!(component, Component::Normal(_))`. -/
def isNormal : Component → Bool
  | .normal _ => true
  | _ => false

/-- The test of `validate_manifest_relative_path`. -/
def validPath (path : String) : Bool :=
  path ≠ "" && len path ≤ maxPathBytes && path.toList.head? ≠ some '/' &&
    path.toList.getLast? ≠ some '/' && '\\' ∉ path.toList &&
    !Chars.contains "//".toList path.toList && path ≠ manifestName && path ≠ receiptName &&
    (components path).all isNormal

/-- `validate_manifest_relative_path`. -/
def validateManifestRelativePath (path : String) : Result Unit :=
  refuse (validPath path = false) (hostError "android_host_omniroute_manifest_path_invalid")

/-- The name of a component. -/
def normalName : Component → Option String
  | .normal name => some name
  | _ => none

/-- `canonical_relative_file`, for a path that has been validated: its names, one below the other. -/
def canonicalRelativeFile (dir : Dir) (relative : String) : Result String :=
  let current := "/".intercalate ((components relative).filterMap normalName)
  if (dir.lookup current).isSome || dir.aboveFile current then .ok current
  else if dir.underFile current then
    .error (hostError "android_host_omniroute_payload_parent_invalid")
  else .error (hostError "android_host_omniroute_payload_missing")

/-- `read_bounded_file`. -/
def readBoundedFile (dir : Dir) (path : String) (maxBytes : Nat) : Result (List UInt8) :=
  match dir.lookup path with
  | none =>
    if dir.aboveFile path then .error (hostError "android_host_omniroute_bounded_file_invalid")
    else .error (hostError "android_host_omniroute_metadata_read_failed")
  | some bytes =>
    if bytes.length > maxBytes then
      .error (hostError "android_host_omniroute_bounded_file_invalid")
    else .ok bytes

/-- `.map_err(..)?` and `.ok_or_else(..)?`. -/
def orFail {α : Type} (code : String) : Option α → Result α
  | some a => .ok a
  | none => .error (hostError code)

variable (libraries : Libraries)

/-- The loop of `verify_runtime_tree` over the files: the paths and the total so far. -/
def verifyFiles (dir : Dir) : List ManifestFile → List String → Nat → Result (List String × Nat)
  | [], expectedPaths, totalBytes => .ok (expectedPaths, totalBytes)
  | item :: rest, expectedPaths, totalBytes => do
    validateManifestRelativePath item.path
    refuse (item.size.toNat > maxFileBytes ∨ isSha256 item.sha256 = false ∨
      item.path ∈ expectedPaths) (hostError "android_host_omniroute_manifest_file_invalid")
    let path ← canonicalRelativeFile dir item.path
    let content ← orFail "android_host_omniroute_payload_identity_mismatch" (dir.lookup path)
    refuse (content.length ≠ item.size.toNat)
      (hostError "android_host_omniroute_payload_identity_mismatch")
    refuse (libraries.sha256 content ≠ item.sha256)
      (hostError "android_host_omniroute_payload_sha_mismatch")
    refuse (totalBytes + item.size.toNat ≥ 2 ^ 64)
      (hostError "android_host_omniroute_total_bytes_overflow")
    refuse (totalBytes + item.size.toNat > maxTotalBytes)
      (hostError "android_host_omniroute_total_bytes_exceeded")
    verifyFiles dir rest (item.path :: expectedPaths) (totalBytes + item.size.toNat)

/-- What one file adds to the tree digest. -/
def ManifestFile.digestLine (item : ManifestFile) : List UInt8 :=
  utf8Bytes item.path ++ [0] ++ utf8Bytes (toString item.size.toNat) ++ [0] ++
    utf8Bytes item.sha256 ++ [10]

/-- `collect_runtime_files`, over the files in the order in which they are found. -/
def collectRuntimeFiles : List String → List String → Result (List String)
  | [], files => .ok files
  | path :: rest, files => do
    refuse ((files.insert path).length > maxFiles + 2)
      (hostError "android_host_omniroute_runtime_file_limit")
    collectRuntimeFiles rest (files.insert path)

/-- The receipt is one for the manifest. -/
def InstallReceipt.accords (receipt : InstallReceipt) (manifestSha256 : String)
    (manifest : BundleManifest) : Bool :=
  receipt.schema = 1 && receipt.componentId = expectedComponent &&
    receipt.version = expectedVersion && receipt.profileId = expectedProfile &&
    receipt.manifestSha256 = manifestSha256 && receipt.treeSha256 = manifest.treeSha256

/-- `OmniRouteRuntimeVerification`, but for the root. -/
structure OmniRouteRuntimeVerification where
  manifestSha256 : String
  treeSha256 : String
  fileCount : UInt64
  totalBytes : Nat
  deriving DecidableEq

/-- `verify_runtime_tree`. -/
def verifyRuntimeTree (root : Option Dir) (expectedManifestSha256 : String) :
    Result OmniRouteRuntimeVerification := do
  let dir ← orFail "android_host_omniroute_runtime_missing" root
  let manifestBytes ← readBoundedFile dir manifestName maxManifestBytes
  let manifestSha256 := libraries.sha256 manifestBytes
  refuse (isSha256 expectedManifestSha256 = false ∨ manifestSha256 ≠ expectedManifestSha256)
    (hostError "android_host_omniroute_signed_manifest_sha_mismatch")
  let manifest ← orFail "android_host_omniroute_manifest_invalid"
    (libraries.readManifest manifestBytes)
  refuse (manifest.identity = false)
    (hostError "android_host_omniroute_manifest_identity_mismatch")
  refuse (manifest.runtime ≠ profileRuntime)
    (hostError "android_host_omniroute_manifest_runtime_profile_mismatch")
  let receiptBytes ← readBoundedFile dir receiptName maxReceiptBytes
  let receipt ← orFail "android_host_omniroute_receipt_invalid" (libraries.readReceipt receiptBytes)
  refuse (receipt.accords manifestSha256 manifest = false)
    (hostError "android_host_omniroute_receipt_mismatch")
  let (expectedPaths, totalBytes) ← verifyFiles libraries dir manifest.files [] 0
  refuse (manifest.files.length ≠ manifest.fileCount.toNat ∨ manifest.files.length > maxFiles ∨
      totalBytes ≠ manifest.totalBytes.toNat ∨
      libraries.sha256 (manifest.files.flatMap ManifestFile.digestLine) ≠ manifest.treeSha256)
    (hostError "android_host_omniroute_manifest_tree_mismatch")
  refuse ("server-ws.mjs" ∉ expectedPaths)
    (hostError "android_host_omniroute_entrypoint_missing")
  let actualPaths ← collectRuntimeFiles dir.keys []
  refuse (samePaths (actualPaths.filter (fun path => path ≠ manifestName && path ≠ receiptName))
      expectedPaths = false)
    (hostError "android_host_omniroute_unexpected_or_missing_files")
  pure {
    manifestSha256 := manifestSha256
    treeSha256 := manifest.treeSha256
    fileCount := manifest.fileCount
    totalBytes := totalBytes }

/-! ## What it accepts -/

section

variable {libraries : Libraries} {dir : Dir} {sha : String} {manifest : BundleManifest}

theorem orFail_then_iff {α β : Type} {code : String} {value : Option α} {f : α → Result β} {b : β} :
    (orFail code value >>= f) = .ok b ↔ ∃ a, value = some a ∧ f a = .ok b := by
  rw [Result.bind_eq_ok]
  cases value with
  | none => exact ⟨(fun ⟨_, h, _⟩ => by cases h), (fun ⟨_, h, _⟩ => by cases h)⟩
  | some c =>
    constructor
    · rintro ⟨_, ⟨⟩, h⟩
      exact ⟨c, rfl, h⟩
    · rintro ⟨_, ⟨⟩, h⟩
      exact ⟨c, rfl, h⟩

theorem readBoundedFile_then_iff {β : Type} {path : String} {maxBytes : Nat}
    {f : List UInt8 → Result β} {b : β} :
    (readBoundedFile dir path maxBytes >>= f) = .ok b ↔
      ∃ bytes, (dir.lookup path = some bytes ∧ bytes.length ≤ maxBytes) ∧ f bytes = .ok b := by
  rw [Result.bind_eq_ok, readBoundedFile]
  cases hfile : dir.lookup path with
  | none =>
    constructor
    · rintro ⟨bytes, h, -⟩
      dsimp only at h
      split at h
      · cases h
      · cases h
    · rintro ⟨bytes, ⟨h, -⟩, -⟩
      cases h
  | some content =>
    constructor
    · rintro ⟨bytes, h, hf⟩
      dsimp only at h
      split at h
      · cases h
      · rename_i hsize
        cases h
        exact ⟨content, ⟨rfl, Nat.not_lt.mp hsize⟩, hf⟩
    · rintro ⟨bytes, ⟨h, hsize⟩, hf⟩
      cases h
      refine ⟨content, ?_, hf⟩
      dsimp only
      rw [if_neg (Nat.not_lt.mpr hsize)]

/-- A file of the manifest that is there as it should be. -/
structure Present (libraries : Libraries) (dir : Dir) (item : ManifestFile) : Prop where
  valid : validPath item.path = true
  bounded : item.size.toNat ≤ maxFileBytes
  digest : isSha256 item.sha256 = true
  found : ∃ path, canonicalRelativeFile dir item.path = .ok path ∧ ∃ content,
    dir.lookup path = some content ∧ content.length = item.size.toNat ∧
      libraries.sha256 content = item.sha256

theorem canonicalRelativeFile_then_iff {β : Type} {relative : String} {f : String → Result β} {b : β} :
    (canonicalRelativeFile dir relative >>= f) = .ok b ↔
      ∃ path, canonicalRelativeFile dir relative = .ok path ∧ f path = .ok b :=
  Result.bind_eq_ok

/-- The size of the files together. -/
def totalSize (files : List ManifestFile) : Nat := (files.map (fun item => item.size.toNat)).sum

@[simp] theorem totalSize_cons (item : ManifestFile) (files : List ManifestFile) :
    totalSize (item :: files) = item.size.toNat + totalSize files := rfl

/-- **The loop.**  Every file is there as it should be, none is listed twice, and the total is small
    enough. -/
theorem verifyFiles_iff {files : List ManifestFile} : ∀ {paths read : List String} {total whole : Nat},
    total ≤ maxTotalBytes →
      (verifyFiles libraries dir files paths total = .ok (read, whole) ↔
        (∀ item ∈ files, Present libraries dir item ∧ item.path ∉ paths) ∧
          (files.map ManifestFile.path).Nodup ∧ total + totalSize files ≤ maxTotalBytes ∧
          read = (files.map ManifestFile.path).reverse ++ paths ∧ whole = total + totalSize files) := by
  induction files with
  | nil =>
    intro paths read total whole htotal
    simp [verifyFiles, totalSize, htotal, eq_comm]
  | cons item rest ih =>
    intro paths read total whole htotal
    simp only [verifyFiles, validateManifestRelativePath, Result.check_eq_ok, refuse_iff,
      canonicalRelativeFile_then_iff, orFail_then_iff, Bool.not_eq_false, not_or, not_not, ge_iff_le,
      gt_iff_lt, Nat.not_lt, Nat.not_le, ne_eq]
    have hmax : maxTotalBytes < 2 ^ 64 := by decide
    constructor
    · rintro ⟨hvalid, ⟨hbounded, hdigest, hnew⟩, path, hpath, content, hcontent, hsize, hsha, -, hfits,
        hrest⟩
      obtain ⟨hall, hnodup, hsum, rfl, rfl⟩ := (ih hfits).mp hrest
      have hpresent : Present libraries dir item :=
        ⟨hvalid, hbounded, hdigest, path, hpath, content, hcontent, hsize, hsha⟩
      have hfresh : item.path ∉ rest.map ManifestFile.path := by
        intro hmem
        obtain ⟨other, hother, heq⟩ := List.mem_map.mp hmem
        refine (hall other hother).2 ?_
        rw [heq]
        exact List.mem_cons_self
      refine ⟨fun other hother => ?_, ?_, ?_, ?_, ?_⟩
      · rcases List.mem_cons.mp hother with rfl | hother
        · exact ⟨hpresent, hnew⟩
        · exact ⟨(hall other hother).1, fun hmem => (hall other hother).2 (List.mem_cons_of_mem _ hmem)⟩
      · rw [List.map_cons]
        exact List.nodup_cons.mpr ⟨hfresh, hnodup⟩
      · rw [totalSize_cons]
        omega
      · simp
      · rw [totalSize_cons]
        omega
    · rintro ⟨hall, hnodup, hsum, rfl, rfl⟩
      obtain ⟨hpresent, hnew⟩ := hall item List.mem_cons_self
      obtain ⟨path, hpath, content, hcontent, hsize, hsha⟩ := hpresent.found
      rw [List.map_cons, List.nodup_cons] at hnodup
      rw [totalSize_cons] at hsum
      have hfits : total + item.size.toNat ≤ maxTotalBytes := by omega
      refine ⟨hpresent.valid, ⟨hpresent.bounded, hpresent.digest, hnew⟩, path, hpath, content, hcontent,
        hsize, hsha, by omega, hfits, (ih hfits).mpr ⟨fun other hother => ?_, hnodup.2, by omega, ?_, ?_⟩⟩
      · obtain ⟨hother', hold⟩ := hall other (List.mem_cons_of_mem _ hother)
        refine ⟨hother', fun hmem => ?_⟩
        rcases List.mem_cons.mp hmem with heq | hmem
        · exact hnodup.1 (heq ▸ List.mem_map_of_mem hother)
        · exact hold hmem
      · simp
      · rw [totalSize_cons]
        omega

/-- **The walk.**  It finds every file, unless there are too many. -/
theorem collectRuntimeFiles_iff {paths : List String} : ∀ {files found : List String},
    (paths ++ files).Nodup → files.length ≤ maxFiles + 2 →
      (collectRuntimeFiles paths files = .ok found ↔
        (paths ++ files).length ≤ maxFiles + 2 ∧ found = paths.reverse ++ files) := by
  induction paths with
  | nil =>
    intro files found hnodup hfew
    simp [collectRuntimeFiles, eq_comm]
    omega
  | cons path rest ih =>
    intro files found hnodup hfew
    have hnew : path ∉ files := by
      intro hmem
      exact (List.nodup_cons.mp hnodup).1 (List.mem_append_right _ hmem)
    have hperm : (rest ++ path :: files).Nodup :=
      (List.perm_middle.nodup_iff).mpr hnodup
    rw [collectRuntimeFiles, Result.check_eq_ok, refuse_iff, List.insert_of_not_mem hnew, gt_iff_lt,
      Nat.not_lt]
    constructor
    · rintro ⟨hroom, hrest⟩
      obtain ⟨hlength, rfl⟩ := (ih hperm hroom).mp hrest
      refine ⟨?_, by simp⟩
      simp only [List.length_append, List.length_cons] at hlength ⊢
      omega
    · rintro ⟨hlength, rfl⟩
      simp only [List.length_append, List.length_cons] at hlength
      have hroom : (path :: files).length ≤ maxFiles + 2 := by
        rw [List.length_cons]
        omega
      refine ⟨hroom, (ih hperm hroom).mpr ⟨?_, by simp⟩⟩
      simp only [List.length_append, List.length_cons]
      omega

/-- What the check asks of a directory. -/
structure Accepted (libraries : Libraries) (dir : Dir) (sha : String) (manifest : BundleManifest) :
    Prop where
  read : ∃ bytes, (dir.lookup manifestName = some bytes ∧ bytes.length ≤ maxManifestBytes) ∧
    libraries.sha256 bytes = sha ∧ libraries.readManifest bytes = some manifest
  digest : isSha256 sha = true
  identity : manifest.identity = true
  runtime : manifest.runtime = profileRuntime
  receipt : ∃ bytes, (dir.lookup receiptName = some bytes ∧ bytes.length ≤ maxReceiptBytes) ∧
    ∃ receipt, libraries.readReceipt bytes = some receipt ∧ receipt.accords sha manifest = true
  files : ∀ item ∈ manifest.files, Present libraries dir item
  distinct : (manifest.files.map ManifestFile.path).Nodup
  count : manifest.files.length = manifest.fileCount.toNat
  few : manifest.files.length ≤ maxFiles
  small : totalSize manifest.files ≤ maxTotalBytes
  total : totalSize manifest.files = manifest.totalBytes.toNat
  tree : libraries.sha256 (manifest.files.flatMap ManifestFile.digestLine) = manifest.treeSha256
  entrypoint : "server-ws.mjs" ∈ manifest.files.map ManifestFile.path
  room : dir.keys.length ≤ maxFiles + 2
  paths : ∀ path, (path ∈ dir.keys ∧ path ≠ manifestName ∧ path ≠ receiptName) ↔
    path ∈ manifest.files.map ManifestFile.path

theorem samePaths_iff {actual expected : List String} :
    samePaths actual expected = true ↔ ∀ path, path ∈ actual ↔ path ∈ expected := by
  simp only [samePaths, Bool.and_eq_true, List.all_eq_true, decide_eq_true_eq]
  constructor
  · rintro ⟨hleft, hright⟩ path
    exact ⟨hleft path, hright path⟩
  · intro h
    exact ⟨fun path => (h path).mp, fun path => (h path).mpr⟩

theorem verifyFiles_then_iff {β : Type} {files : List ManifestFile} {f : List String × Nat → Result β}
    {b : β} : (verifyFiles libraries dir files [] 0 >>= f) = .ok b ↔
      ((∀ item ∈ files, Present libraries dir item) ∧ (files.map ManifestFile.path).Nodup ∧
        totalSize files ≤ maxTotalBytes) ∧
        f ((files.map ManifestFile.path).reverse, totalSize files) = .ok b := by
  rw [Result.bind_eq_ok]
  constructor
  · rintro ⟨⟨read, whole⟩, h, hf⟩
    obtain ⟨hall, hnodup, hsum, rfl, rfl⟩ := (verifyFiles_iff (Nat.zero_le _)).mp h
    rw [Nat.zero_add] at hsum hf
    rw [List.append_nil] at hf
    exact ⟨⟨fun item hitem => (hall item hitem).1, hnodup, hsum⟩, hf⟩
  · rintro ⟨⟨hall, hnodup, hsum⟩, hf⟩
    refine ⟨_, (verifyFiles_iff (Nat.zero_le _)).mpr
      ⟨fun item hitem => ⟨hall item hitem, List.not_mem_nil⟩, hnodup, ?_, ?_, ?_⟩, hf⟩
    · rw [Nat.zero_add]
      exact hsum
    · rw [List.append_nil]
    · rw [Nat.zero_add]

theorem collectRuntimeFiles_then_iff {β : Type} {f : List String → Result β} {b : β} :
    (collectRuntimeFiles dir.keys [] >>= f) = .ok b ↔
      dir.keys.length ≤ maxFiles + 2 ∧ f dir.keys.reverse = .ok b := by
  have hnodup : (dir.keys ++ []).Nodup := by
    rw [List.append_nil]
    exact dir.nodupKeys
  have hwalk : ∀ found, collectRuntimeFiles dir.keys [] = .ok found ↔
      (dir.keys ++ []).length ≤ maxFiles + 2 ∧ found = dir.keys.reverse ++ [] :=
    fun found => collectRuntimeFiles_iff hnodup (Nat.zero_le _)
  simp only [List.append_nil] at hwalk
  rw [Result.bind_eq_ok]
  constructor
  · rintro ⟨found, h, hf⟩
    obtain ⟨hroom, rfl⟩ := (hwalk found).mp h
    exact ⟨hroom, hf⟩
  · rintro ⟨hroom, hf⟩
    exact ⟨_, (hwalk _).mpr ⟨hroom, rfl⟩, hf⟩

/-- **What the check accepts.** -/
theorem verifyRuntimeTree_iff : (∃ verified, verifyRuntimeTree libraries (some dir) sha = .ok verified) ↔
    ∃ manifest, Accepted libraries dir sha manifest := by
  simp only [verifyRuntimeTree, orFail_then_iff, readBoundedFile_then_iff, Result.check_eq_ok,
    refuse_iff, verifyFiles_then_iff, collectRuntimeFiles_then_iff, not_or, not_not, ne_eq,
    Bool.not_eq_false, gt_iff_lt, Nat.not_lt, samePaths_iff, List.mem_reverse, List.mem_filter,
    Bool.and_eq_true, decide_eq_true_eq]
  constructor
  · rintro ⟨verified, _, ⟨⟩, bytes, hbytes, ⟨hdigest, rfl⟩, manifest, hmanifest, hidentity, hruntime,
      receiptBytes, hreceiptBytes, receipt, hreceipt, haccords, ⟨hfiles, hdistinct, hsmall⟩,
      ⟨hcount, hfew, htotal, htree⟩, hentry, hroom, hpaths, -⟩
    exact ⟨manifest, ⟨⟨bytes, hbytes, rfl, hmanifest⟩, hdigest, hidentity, hruntime,
      ⟨receiptBytes, hreceiptBytes, receipt, hreceipt, haccords⟩, hfiles, hdistinct, hcount, hfew, hsmall,
      htotal, htree, hentry, hroom, hpaths⟩⟩
  · rintro ⟨manifest, h⟩
    obtain ⟨bytes, hbytes, hsha, hmanifest⟩ := h.read
    obtain ⟨receiptBytes, hreceiptBytes, receipt, hreceipt, haccords⟩ := h.receipt
    subst hsha
    exact ⟨_, dir, rfl, bytes, hbytes, ⟨h.digest, rfl⟩, manifest, hmanifest, h.identity, h.runtime,
      receiptBytes, hreceiptBytes, receipt, hreceipt, haccords, ⟨h.files, h.distinct, h.small⟩,
      ⟨h.count, h.few, h.total, h.tree⟩, h.entrypoint, h.room, h.paths, rfl⟩

end

end VibeCoder.RuntimeTree
