/-
  The installer and the launcher read the same tree.

  1. **Two readers** (`Agree`) — what `org.json` answers about a manifest that `serde_json` reads, and
     both about a receipt of the installer.
  2. **Paths** (`validPath_of_relative`) — what the installer accepts as a path, the launcher accepts if
     it is short enough as UTF-8.
  3. **A complete tree** (`verify_iff`) — what the launcher asks of it beyond what the installer has
     seen.
  4. **Runs** (`installed_starts_iff`) — any calls of the installer, with faults and crashes anywhere.
-/
import VibeCoder.Host.RuntimeTree
import VibeCoder.Install.DotFiles
import VibeCoder.Install.InstallerRuns
import VibeCoder.Lib.UrlStandard

namespace VibeCoder.RuntimeTree

open Installer (Platform ManifestJson FileJson ReceiptJson constantEquals asciiBytes buildReceipt
  validateRelativePath Owned OwnManifest OwnReceipt currentName Holds Intact Dir manifestName
  receiptName expectedComponent expectedVersion expectedProfile)
open Workspace (Component components)
open VibeCoder.Host (hostError)

/-! ## Two readers -/

/-- `optInt`, of a number that is written with digits only. -/
def optInt (n : Nat) : Int := if n < 2 ^ 63 then ((n : Int) + 2 ^ 31) % 2 ^ 32 - 2 ^ 31 else 2 ^ 31 - 1

/-- `optLong`, of a number that is written with digits only. -/
def optLong (n : Nat) : Int := if n < 2 ^ 63 then n else 2 ^ 63 - 1

/-- What the installer reads of a file. -/
def ManifestFile.json (item : ManifestFile) : FileJson :=
  ⟨item.path, optLong item.size.toNat, item.sha256⟩

/-- What the installer is told about a manifest, but for its `runtime`. -/
structure Answers (manifest : BundleManifest) (json : ManifestJson) : Prop where
  schema : json.schema = optInt manifest.schema.toNat
  componentId : json.componentId = manifest.componentId
  version : json.version = manifest.version
  profileId : json.profileId = manifest.profileId
  requiredNodeVersion : json.requiredNodeVersion = manifest.requiredNodeVersion
  sourceArchiveSha256 : json.sourceArchiveSha256 = manifest.sourceArchiveSha256
  routingPatchProfileSha256 : json.routingPatchProfileSha256 = manifest.routingPatchProfileSha256
  apkAssetPackaged : json.apkAssetPackaged = manifest.apkAssetPackaged
  serviceRoundTripProven : json.serviceRoundTripProven = manifest.serviceRoundTripProven
  treeSha256 : json.treeSha256 = manifest.treeSha256
  totalBytes : json.totalBytes = optLong manifest.totalBytes.toNat
  fileCount : json.fileCount = optInt manifest.fileCount.toNat
  files : json.files = some ((manifest.files.map ManifestFile.json).map Except.ok)

/-- **The libraries of the two sides**: one SHA-256, and two JSON readers. -/
structure Agree (platform : Platform) (libraries : Libraries) : Prop where
  hex : ∀ bytes, Installer.isSha256 (platform.sha256 bytes) = true
  sha256 : ∀ bytes, libraries.sha256 bytes = platform.sha256 bytes
  manifest : ∀ bytes manifest json, libraries.readManifest bytes = some manifest →
    platform.readManifest bytes = .ok json → Answers manifest json
  /-- What `JSONObject.toString` writes is read by `JSONObject`. -/
  receipt : ∀ manifest content, Installer.isSha256 manifest.treeSha256 = true →
    platform.readReceipt (buildReceipt platform manifest (platform.sha256 content)) = .ok
      { schema := 1
        componentId := expectedComponent
        version := expectedVersion
        profileId := expectedProfile
        manifestSha256 := platform.sha256 content
        treeSha256 := manifest.treeSha256 }
  /-- And by `serde_json`. -/
  launchedReceipt : ∀ manifest content, Installer.isSha256 manifest.treeSha256 = true →
    libraries.readReceipt (buildReceipt platform manifest (platform.sha256 content)) = some
      { schema := 1
        componentId := expectedComponent
        version := expectedVersion
        profileId := expectedProfile
        manifestSha256 := platform.sha256 content
        treeSha256 := manifest.treeSha256 }

theorem optInt_eq_one {n : Nat} (hn : n < 2 ^ 32) (h : optInt n = 1) : n = 1 := by
  rw [optInt, if_pos (by omega)] at h
  omega

/-- A count that fits 32 bits is read as it is, if it is not read as a negative number. -/
theorem optInt_eq {n : Nat} (hn : n < 2 ^ 32) (h : 1 ≤ optInt n) : optInt n = n := by
  rw [optInt, if_pos (by omega)] at h ⊢
  omega

theorem optLong_eq {n : Nat} {bound : Int} (hbound : bound < 2 ^ 63 - 1) (h : optLong n ≤ bound) :
    optLong n = n := by
  rw [optLong] at h ⊢
  split
  · rfl
  · rename_i hlarge
    rw [if_neg hlarge] at h
    omega

/-! ## Digests -/

/-- A lower case hex digit. -/
def isHex (c : Char) : Bool := c.isDigit || ('a' ≤ c && c ≤ 'f')

theorem isHex_ascii {c : Char} (h : isHex c = true) : c.toNat < 128 := by
  simp only [isHex, Char.isDigit, Bool.or_eq_true, Bool.and_eq_true, decide_eq_true_eq, Char.le_def,
    ge_iff_le, UInt32.le_iff_toNat_le] at h
  rcases h with h | h
  · exact Nat.lt_of_le_of_lt h.2 (by decide)
  · exact Nat.lt_of_le_of_lt h.2 (by decide)

/-- **Digests that compare equal are equal.** -/
theorem eq_of_constantEquals {digest value : String} (hdigest : Installer.isSha256 digest = true)
    (h : constantEquals digest value = true) : digest = value := by
  rw [Installer.isSha256, Bool.and_eq_true, List.all_eq_true] at hdigest
  have hhex : ∀ c ∈ digest.toList, isHex c = true := hdigest.2
  have hbytes : asciiBytes digest = asciiBytes value := of_decide_eq_true h
  have hsame : asciiBytes digest = digest.toList := by
    have hkeep : ∀ c ∈ digest.toList, (if c.toNat < 128 then c else '?') = c :=
      fun c hc => if_pos (isHex_ascii (hhex c hc))
    rw [asciiBytes, List.map_congr_left hkeep, List.map_id']
  have hvalue : asciiBytes value = value.toList := by
    have hkeep : ∀ c ∈ value.toList, (if c.toNat < 128 then c else '?') = c := by
      intro c hc
      have hmem : (if c.toNat < 128 then c else '?') ∈ asciiBytes value := List.mem_map_of_mem hc
      rw [← hbytes, hsame] at hmem
      split
      · rfl
      · -- a question mark is no hex digit
        rename_i hlarge
        rw [if_neg hlarge] at hmem
        exact absurd (hhex '?' hmem) (by decide)
    rw [asciiBytes, List.map_congr_left hkeep, List.map_id']
  rw [hsame, hvalue] at hbytes
  exact String.toList_injective hbytes

/-- The two sides test digests alike. -/
theorem isSha256_eq (value : String) : isSha256 value = Installer.isSha256 value := by
  rw [isSha256, Installer.isSha256]
  by_cases hhex : value.toList.all isHex = true
  · have hlen : len value = value.toList.length :=
      Text.utf8ByteSize_ascii (fun c hc => isHex_ascii (List.all_eq_true.mp hhex c hc))
    rw [hlen]
  · have hnot : value.toList.all (fun c => c.isDigit || ('a' ≤ c && c ≤ 'f')) = false :=
      Bool.eq_false_of_not_eq_true hhex
    rw [hnot, Bool.and_false, Bool.and_false]

/-! ## Paths -/

/-- What `validateRelativePath` lets through. -/
theorem validateRelativePath_ok {path : String} (h : validateRelativePath path = .ok ()) :
    path.toList ≠ [] ∧ path.toList.head? ≠ some '/' ∧ '\\' ∉ path.toList ∧
      ∀ part ∈ path.toList.splitOn '/', part ≠ [] ∧ part ≠ ['.'] ∧ part ≠ ['.', '.'] := by
  simp only [validateRelativePath] at h
  split at h
  · cases h
  rename_i hsome
  split at h
  · cases h
  rename_i hchars
  split at h
  · cases h
  rename_i hparts
  simp only [Bool.or_eq_true, List.isEmpty_iff, decide_eq_true_eq, not_or] at hsome hchars
  rw [Bool.not_eq_true, List.any_eq_false] at hparts
  refine ⟨hsome.1, hchars.1.1, hchars.1.2, fun part hpart => ?_⟩
  have hgood := hparts part hpart
  simp only [Bool.or_eq_true, decide_eq_true_eq, not_or] at hgood
  exact ⟨hgood.1.1, hgood.1.2, hgood.2⟩

section

variable {path : String} (h : validateRelativePath path = .ok ())

include h

/-- Its components are its parts. -/
theorem components_of_relative :
    components path = ((path.toList.splitOn '/').map String.ofList).map Component.normal := by
  obtain ⟨-, hhead, -, hparts⟩ := validateRelativePath_ok h
  have hnormal : ∀ part ∈ path.toList.splitOn '/',
      Workspace.component (String.ofList part) = some (.normal (String.ofList part)) := by
    intro part hpart
    obtain ⟨hempty, hdot, hparent⟩ := hparts part hpart
    refine Workspace.component_normal (fun heq => hempty ?_) (fun heq => hdot ?_)
      (fun heq => hparent ?_)
    all_goals
      have hchars := congrArg String.toList heq
      rw [String.toList_ofList] at hchars
      exact hchars
  have habsolute : Workspace.isAbsolute path = false := by
    rw [Workspace.isAbsolute, beq_eq_false_iff_ne]
    exact hhead
  have hfirst : ((path.toList.splitOn '/').map String.ofList).head? ≠ some "." := by
    intro heq
    rw [List.head?_map] at heq
    obtain ⟨part, hpart, hdot⟩ := Option.map_eq_some_iff.mp heq
    refine (hparts part (List.mem_of_mem_head? hpart)).2.1 ?_
    have hchars := congrArg String.toList hdot
    rw [String.toList_ofList] at hchars
    exact hchars
  rw [components, Workspace.splitSlash_eq_splitOn, habsolute, if_neg Bool.false_ne_true,
    if_neg hfirst, List.filterMap_map, List.map_map]
  have hall := List.filterMap_congr hnormal
  exact hall.trans (congrFun List.filterMap_eq_map _)

/-- Its names, joined, are the path. -/
theorem names_of_relative : "/".intercalate ((components path).filterMap normalName) = path := by
  rw [components_of_relative h, List.filterMap_map]
  have hnames : ((path.toList.splitOn '/').map String.ofList).filterMap (normalName ∘ Component.normal) =
      (path.toList.splitOn '/').map String.ofList := by
    have hsome : normalName ∘ Component.normal = some := rfl
    rw [hsome, List.filterMap_some]
  have hchars : ((path.toList.splitOn '/').map String.ofList).map String.toList =
      path.toList.splitOn '/' := by
    rw [List.map_map]
    simp
  rw [hnames]
  refine String.toList_injective ?_
  rw [String.toList_intercalate, hchars]
  exact List.intercalate_splitOn '/'

/-- **A path of the installer** is one of the launcher, if it is short enough. -/
theorem validPath_of_relative (hshort : len path ≤ maxPathBytes) (hmanifest : path ≠ manifestName)
    (hreceipt : path ≠ receiptName) : validPath path = true := by
  obtain ⟨hsome, hhead, hslash, hparts⟩ := validateRelativePath_ok h
  have hnone : [] ∉ UrlStandard.segmentsOf path.toList := fun hmem => (hparts [] hmem).1 rfl
  rw [UrlStandard.mem_segmentsOf_iff List.not_mem_nil, not_or] at hnone
  have hempty : path ≠ "" := by
    rintro rfl
    exact hsome rfl
  have hlast : path.toList.getLast? ≠ some '/' := by
    intro hlast
    obtain ⟨before, hbefore⟩ := List.getLast?_eq_some_iff.mp hlast
    refine hnone.1 ⟨'/' :: before, ?_⟩
    rw [hbefore]
    rfl
  have hdouble : Chars.contains ['/', '/'] path.toList = false := by
    rw [← Bool.not_eq_true, Chars.contains_iff]
    exact fun hinfix => hnone.2 (List.infix_cons hinfix)
  have hnormal : (components path).all isNormal = true := by
    rw [components_of_relative h, List.all_map, List.all_eq_true]
    exact fun part hpart => rfl
  simp [validPath, hempty, hshort, hhead, hlast, hslash, hdouble, hmanifest, hreceipt, hnormal]

/-- A file of that path is found under it. -/
theorem canonicalRelativeFile_of_relative {dir : Dir} {content : List UInt8}
    (hcontent : dir.lookup path = some content) : canonicalRelativeFile dir path = .ok path := by
  rw [canonicalRelativeFile, names_of_relative h]
  simp [hcontent]

end

/-! ## A complete tree -/

/-- What the launcher asks beyond what the installer has seen. -/
structure Launchable (manifest : BundleManifest) : Prop where
  runtime : manifest.runtime = profileRuntime
  count : manifest.fileCount.toNat < 2 ^ 32
  short : ∀ item ∈ manifest.files, len item.path ≤ maxPathBytes

section

variable {platform : Platform} {libraries : Libraries} {dir : Dir} {sha : String}
variable {manifest : BundleManifest} {bytes : List UInt8}

/-- What the launcher has asked of a tree that it accepts. -/
theorem Accepted.launchable (h : Accepted libraries dir sha manifest) : Launchable manifest := by
  refine ⟨h.runtime, ?_, fun item hitem => ?_⟩
  · have hcount := h.count
    have hfew : manifest.files.length ≤ 100000 := h.few
    omega
  · have hvalid := (h.files item hitem).valid
    simp only [validPath, Bool.and_eq_true, decide_eq_true_eq] at hvalid
    exact hvalid.1.1.1.1.1.1.1.2

/-- What the two sides read of the same manifest. -/
structure ReadTwice (platform : Platform) (manifest : BundleManifest)
    (parsed : Installer.BundleManifest) : Prop where
  identity : manifest.identity = true
  parsed : parsed = ⟨manifest.treeSha256, manifest.totalBytes.toNat,
    manifest.files.map (fun item => ⟨item.path, item.size.toNat, item.sha256⟩)⟩
  digest : Installer.isSha256 manifest.treeSha256 = true
  tree : platform.sha256 (manifest.files.flatMap ManifestFile.digestLine) = manifest.treeSha256
  required : ∀ path ∈ Installer.requiredFiles, path ∈ manifest.files.map ManifestFile.path
  few : manifest.files.length ≤ maxFiles
  count : manifest.fileCount.toNat < 2 ^ 32 → manifest.files.length = manifest.fileCount.toNat
  small : totalSize manifest.files ≤ maxTotalBytes
  total : totalSize manifest.files = manifest.totalBytes.toNat
  files : ∀ item ∈ manifest.files, validateRelativePath item.path = .ok () ∧
    item.size.toNat ≤ maxFileBytes ∧ Installer.isSha256 item.sha256 = true

/-- The total as the installer adds it up. -/
theorem totalSize_eq (files : List ManifestFile) :
    (totalSize files : Int) = (files.map (fun item => (item.size.toNat : Int))).sum := by
  induction files with
  | nil => rfl
  | cons item rest ih =>
    rw [totalSize_cons, List.map_cons, List.sum_cons, ← ih]
    omega

theorem readTwice (ha : Agree platform libraries) (hread : libraries.readManifest bytes = some manifest)
    {parsed : Installer.BundleManifest}
    (hparsed : Installer.BundleManifest.parse platform bytes = .ok parsed) :
    ReadTwice platform manifest parsed := by
  obtain ⟨root, items, hroot, hchecked, hitems, hsum, htree, hrequired, hsame⟩ :=
    Installer.parse_ok hparsed
  have hanswers := ha.manifest bytes manifest root hread hroot
  have hfiles : items = manifest.files.map ManifestFile.json := by
    have hboth := hchecked.files.1.symm.trans hanswers.files
    have hmap : items.map (@Except.ok Installer.Throwable FileJson) =
        (manifest.files.map ManifestFile.json).map Except.ok := Option.some.inj hboth
    exact List.map_injective_iff.mpr (fun a b hab => Except.ok.inj hab) hmap
  subst hfiles
  have hitem : ∀ item ∈ manifest.files, item.json.Checked :=
    fun item hitem => hitems item.json (List.mem_map_of_mem hitem)
  have hsize : ∀ item ∈ manifest.files, optLong item.size.toNat = item.size.toNat :=
    fun item hmem => optLong_eq (by decide) (hitem item hmem).size.2
  have htotal : optLong manifest.totalBytes.toNat = manifest.totalBytes.toNat := by
    have hbound := hchecked.total.2
    rw [hanswers.totalBytes] at hbound
    exact optLong_eq (by decide) hbound
  have hlength : (manifest.files.length : Int) = root.fileCount := by
    have hcount := hchecked.files.2
    rw [List.length_map, List.length_map] at hcount
    exact hcount
  have hwhole : (totalSize manifest.files : Int) = root.totalBytes := by
    have hsizes : (manifest.files.map ManifestFile.json).map FileJson.size =
        manifest.files.map (fun item => (item.size.toNat : Int)) := by
      rw [List.map_map]
      exact List.map_congr_left hsize
    rw [totalSize_eq, ← hsizes]
    exact hsum
  have hbound := hchecked.total.2
  have hfew := hchecked.count.2
  have hdigest := hchecked.treeSha256
  rw [hanswers.treeSha256] at hdigest
  have hparsed : parsed = ⟨manifest.treeSha256, manifest.totalBytes.toNat,
      manifest.files.map (fun item => ⟨item.path, item.size.toNat, item.sha256⟩)⟩ := by
    rw [hsame, hanswers.treeSha256, hanswers.totalBytes, htotal, List.map_map]
    have hfiles : manifest.files.map (FileJson.file ∘ ManifestFile.json) =
        manifest.files.map (fun item => ⟨item.path, item.size.toNat, item.sha256⟩) := by
      refine List.map_congr_left (fun item hmem => ?_)
      show (⟨item.path, optLong item.size.toNat, item.sha256⟩ : Installer.ManifestFile) = _
      rw [hsize item hmem]
    rw [hfiles]
  have hpaths : parsed.files.map Installer.ManifestFile.path =
      manifest.files.map ManifestFile.path := by
    rw [hparsed, List.map_map]
    rfl
  have hlines : parsed.files.flatMap Installer.ManifestFile.digestLine =
      manifest.files.flatMap ManifestFile.digestLine := by
    rw [hparsed, List.flatMap_map]
    rfl
  refine {
    identity := ?_
    parsed := hparsed
    digest := hdigest
    tree := ?_
    required := ?_
    few := ?_
    count := fun hcount => ?_
    small := ?_
    total := ?_
    files := fun item hmem => ?_ }
  · have hidentity := hchecked.identity
    have hhonest := hchecked.honest
    simp only [ManifestJson.identity, Bool.and_eq_true, decide_eq_true_eq, hanswers.schema,
      hanswers.componentId, hanswers.version, hanswers.profileId, hanswers.requiredNodeVersion,
      hanswers.sourceArchiveSha256, hanswers.routingPatchProfileSha256] at hidentity
    rw [hanswers.apkAssetPackaged, hanswers.serviceRoundTripProven] at hhonest
    obtain ⟨⟨⟨⟨⟨⟨hschema, hcomponent⟩, hversion⟩, hprofile⟩, hnode⟩, hsource⟩, hpatch⟩ := hidentity
    have hone : manifest.schema = 1 :=
      UInt32.toNat_inj.mp (optInt_eq_one manifest.schema.toNat_lt hschema)
    simp [BundleManifest.identity, hone, hcomponent, hversion, hprofile, hnode, hsource, hpatch,
      hhonest, isSha256_eq, hdigest]
  · rw [hlines, hanswers.treeSha256] at htree
    exact eq_of_constantEquals (ha.hex _) htree
  · rw [← hpaths]
    exact hrequired
  · rw [← hlength] at hfew
    exact Int.ofNat_le.mp hfew
  · have hone := hchecked.count.1
    rw [hanswers.fileCount] at hlength hone
    rw [optInt_eq hcount hone] at hlength
    exact Int.ofNat.inj hlength
  · rw [← hwhole] at hbound
    exact Int.ofNat_le.mp hbound
  · rw [hanswers.totalBytes, htotal] at hwhole
    exact Int.ofNat.inj hwhole
  · have hgood := hitem item hmem
    have hfits := hgood.size.2
    have hsame' : item.json.size = item.size.toNat := hsize item hmem
    rw [hsame'] at hfits
    exact ⟨hgood.path, Int.ofNat_le.mp hfits, hgood.sha256⟩

/-- A file that the installer has verified is there for the launcher. -/
theorem present_of_verified (ha : Agree platform libraries) {digest : String}
    {parsed : Installer.BundleManifest} (hr : ReadTwice platform manifest parsed)
    (hwell : parsed.WellFormed) (hv : Dir.Verified platform (some sha) true dir digest parsed)
    (hsized : dir.Sized parsed.files) {item : ManifestFile} (hitem : item ∈ manifest.files)
    (hshort : len item.path ≤ maxPathBytes) : Present libraries dir item := by
  obtain ⟨hpath, hbounded, hdigest⟩ := hr.files item hitem
  have hmem : ⟨item.path, item.size.toNat, item.sha256⟩ ∈ parsed.files := by
    rw [hr.parsed]
    exact List.mem_map_of_mem hitem
  have hunreserved := hwell.unreserved _ hmem
  have hfound := hv.payload _ hmem
  rw [Dir.digested, Option.any_eq_true] at hfound
  obtain ⟨content, hcontent, hequal⟩ := hfound
  have hlength := hsized _ hmem content hcontent
  have hsha := eq_of_constantEquals (ha.hex content) hequal
  refine ⟨validPath_of_relative hpath hshort hunreserved.1 hunreserved.2, hbounded, ?_, item.path,
    canonicalRelativeFile_of_relative hpath hcontent, content, hcontent, Int.ofNat.inj hlength, ?_⟩
  · rw [isSha256_eq]
    exact hdigest
  · rw [ha.sha256]
    exact hsha

/-- **A complete tree.**  The launcher accepts it exactly when its manifest states the runtime of the
    profile, a count of files below 2^32, and paths that are short enough as UTF-8. -/
theorem verify_iff (ha : Agree platform libraries)
    (hcomplete : dir.complete platform (some sha) = true) (hsha : Installer.isSha256 sha = true)
    (hlookup : dir.lookup manifestName = some bytes) (hown : OwnManifest bytes)
    (hreceipt : ∀ found, dir.lookup receiptName = some found → OwnReceipt platform found)
    (hread : libraries.readManifest bytes = some manifest) :
    (∃ verified, verifyRuntimeTree libraries (some dir) sha = .ok verified) ↔ Launchable manifest := by
  rw [verifyRuntimeTree_iff]
  constructor
  · rintro ⟨other, h⟩
    obtain ⟨found, ⟨hfound, -⟩, -, hother⟩ := h.read
    rw [hlookup] at hfound
    cases hfound
    rw [hread] at hother
    cases hother
    exact h.launchable
  intro hlaunch
  obtain ⟨digest, parsed, hv, hsized⟩ := Dir.complete_iff.mp hcomplete
  have hwell := Dir.manifest_wellFormed hv.read
  obtain ⟨hparsed, hdigest⟩ : Installer.BundleManifest.parse platform bytes = .ok parsed ∧
      platform.sha256 bytes = digest := by
    have hmanifest := hv.read
    rw [Dir.manifest, hlookup] at hmanifest
    dsimp only at hmanifest
    split at hmanifest
    · cases hmanifest
    · rename_i hsame
      cases hmanifest
      exact ⟨hsame, rfl⟩
  have hequal : digest = sha := by
    refine eq_of_constantEquals ?_ hv.agrees
    rw [← hdigest]
    exact ha.hex bytes
  have hr := readTwice ha hread hparsed
  have hpaths : parsed.files.map Installer.ManifestFile.path =
      manifest.files.map ManifestFile.path := by
    rw [hr.parsed, List.map_map]
    rfl
  have hkeys : ∀ path, path ∈ dir.keys ↔
      path = manifestName ∨ path = receiptName ∨ path ∈ manifest.files.map ManifestFile.path := by
    intro path
    have hsame := samePaths_iff.mp hv.paths path
    rw [hsame, Installer.BundleManifest.expectedPaths, hpaths]
    simp
  refine ⟨manifest, {
    read := ⟨bytes, ⟨hlookup, hown⟩, ?_, hread⟩
    digest := ?_
    identity := hr.identity
    runtime := hlaunch.runtime
    receipt := ?_
    files := fun item hitem =>
      present_of_verified ha hr hwell hv hsized hitem (hlaunch.short item hitem)
    distinct := ?_
    count := hr.count hlaunch.count
    few := hr.few
    small := hr.small
    total := hr.total
    tree := ?_
    entrypoint := ?_
    room := ?_
    paths := ?_ }⟩
  · rw [ha.sha256, hdigest, hequal]
  · rw [isSha256_eq]
    exact hsha
  · have hreceipted := hv.receipt rfl
    rw [Dir.receipted, Option.any_eq_true] at hreceipted
    obtain ⟨found, hfound, hmatches⟩ := hreceipted
    obtain ⟨hsize, own, content, hown', rfl⟩ := hreceipt found hfound
    rw [ha.receipt own content hown'] at hmatches
    simp only [ReceiptJson.matches, Bool.and_eq_true] at hmatches
    have hcontent := eq_of_constantEquals (by rw [← hdigest]; exact ha.hex bytes) hmatches.1.2
    have htree : parsed.treeSha256 = own.treeSha256 := by
      refine eq_of_constantEquals ?_ hmatches.2
      rw [hr.parsed]
      exact hr.digest
    refine ⟨_, ⟨hfound, hsize⟩, _, ha.launchedReceipt own content hown', ?_⟩
    rw [hr.parsed] at htree
    simp [InstallReceipt.accords, ← hcontent, hequal, ← htree]
  · rw [← hpaths]
    exact hwell.nodup
  · rw [ha.sha256]
    exact hr.tree
  · exact hr.required _ (by decide)
  · -- every file is the manifest, the receipt or listed
    have hsub : dir.keys ⊆ manifestName :: receiptName :: manifest.files.map ManifestFile.path := by
      intro path hpath
      rw [List.mem_cons, List.mem_cons]
      exact (hkeys path).mp hpath
    have hlength : dir.keys.length ≤ _ := (List.subperm_of_subset dir.nodupKeys hsub).length_le
    rw [List.length_cons, List.length_cons, List.length_map] at hlength
    have hfew := hr.few
    omega
  · intro path
    rw [hkeys path]
    constructor
    · rintro ⟨hpath, hmanifest, hreceiptName⟩
      rcases hpath with hpath | hpath | hpath
      · exact absurd hpath hmanifest
      · exact absurd hpath hreceiptName
      · exact hpath
    · intro hpath
      have hlisted := hpath
      rw [← hpaths] at hlisted
      obtain ⟨item, hitem, rfl⟩ := List.mem_map.mp hlisted
      exact ⟨.inr (.inr hpath), hwell.unreserved item hitem⟩

end

/-! ## A call -/

section

open Installer (Store Program Throwable Packaged Watched ensureInstalled approach wp_approach
  wp_recoverPreviousIfNeeded wp_installRecovered wp_ensureInstalled_own ensureInstalled_eq Held)
open Resume (Wp Post Reached wp_seq wp_pure wp_reach)

variable {platform : Platform} {assets : Dir} {s : Store}

/-- What a verified result says of the current directory. -/
def Current (platform : Platform) (assets : Dir) (result : Installer.Result) (t : Store) : Prop :=
  result.verified = true → ∃ bytes, assets.lookup manifestName = some bytes ∧
    Holds platform t.root currentName (some (platform.sha256 bytes))

/-- **A call**, from wherever other calls have left the directories. -/
theorem wp_ensureInstalled_current (h : Intact platform False s) :
    Wp (Watched assets (Intact platform False)) () (ensureInstalled platform)
      (fun result t => Intact platform False t ∧ Current platform assets result t)
      (fun _ => Intact platform False) s := by
  rw [ensureInstalled_eq]
  refine wp_seq trivial (wp_approach h) (fun r t _ ht => ?_) (fun _ _ _ ht => ht)
  obtain ⟨hintact, hpackaged⟩ := ht
  cases r with
  | none =>
    refine wp_pure ⟨hintact, fun hverified => ?_⟩
    cases hverified
  | some packaged =>
    obtain ⟨hread, hasset, -⟩ := hpackaged packaged rfl
    -- nothing is said of a complete tree that was there before
    have hheld : Held platform False False t.root := ⟨hintact, False.elim, False.elim⟩
    refine wp_seq trivial (wp_recoverPreviousIfNeeded hheld) (fun _ u _ hu => ?_) (fun _ _ _ hu => hu)
    refine Wp.mono trivial (wp_installRecovered hread hu) (fun result v _ hv => ?_) (fun _ _ _ hv => hv)
    refine ⟨hv.kept, fun _ => ⟨packaged.bytes, hasset, ?_⟩⟩
    rw [← hread.digest]
    exact hv.holds

/-! ## Runs -/

open Installer (Call Host)

variable {host : Host} {call : Call} {libraries : Libraries}

/-- What calls leave behind. -/
structure Tidy (platform : Platform) (host : Host) : Prop where
  sound : host.Sound platform
  manifests : Owned manifestName OwnManifest host.root
  receipts : Owned receiptName (OwnReceipt platform) host.root

/-- **What a start takes**: whenever the installer has reported a verified installation, the launcher
    accepts the current directory with the digest of the packaged manifest just when the manifest
    there, which has that digest, is `Launchable`. -/
def Startable (platform : Platform) (libraries : Libraries) (host : Host) : Prop :=
  ∀ result, host.outcome = some (.ok result) → result.verified = true →
    ∃ sha dir bytes, host.packaged = some sha ∧ host.root.lookup currentName = some dir ∧
      dir.lookup manifestName = some bytes ∧ platform.sha256 bytes = sha ∧
      ∀ manifest, libraries.readManifest bytes = some manifest →
        ((∃ verified, verifyRuntimeTree libraries (some dir) sha = .ok verified) ↔
          Launchable manifest)

/-- **The claim about a state**: whenever the installer has reported a verified installation, the
    launcher accepts the current directory with the digest of the packaged manifest, if it can read
    the manifest there. -/
def Starts (libraries : Libraries) (host : Host) : Prop :=
  ∀ result, host.outcome = some (.ok result) → result.verified = true →
    ∃ sha dir bytes, host.packaged = some sha ∧ host.root.lookup currentName = some dir ∧
      dir.lookup manifestName = some bytes ∧
      ((libraries.readManifest bytes).isSome = true →
        ∃ verified, verifyRuntimeTree libraries (some dir) sha = .ok verified)

/-- Wherever a call ends, what is kept all through it holds. -/
theorem reached_end {α : Type} {J : Store → Prop} {run : Option (Except Throwable α × Nat) × Store}
    (h : Reached J (Post (fun _ => J) (fun _ => J)) run) : J run.2 := by
  rcases run with ⟨_ | ⟨_ | a, n⟩, t⟩
  · exact h
  · exact h
  · exact h

/-- What a call has come to. -/
theorem ensureInstalled_reached (h : host.Sound platform) (call : Call) :
    Reached (Intact platform False)
      (Post (fun result t => Intact platform False t ∧ Current platform call.assets result t)
        (fun _ => Intact platform False))
      (call.reach (ensureInstalled platform) host.root) :=
  wp_reach (fun _ => trivial) (wp_ensureInstalled_current ⟨h.1, h.2, False.elim⟩)

/-- **One call** leaves its directories as the next one may find them. -/
theorem Tidy.step (h : Tidy platform host) (call : Call) : Tidy platform (host.step platform call) := by
  have howned : ∀ {dot own}, Installer.Dot platform dot own → Owned dot own host.root →
      Owned dot own (host.step platform call).root := by
    intro dot own hdot hown
    exact reached_end (wp_reach (fun _ => trivial) (wp_ensureInstalled_own hdot
      (show Owned dot own (Store.mk host.root false).root from hown)))
  have hsound : Intact platform False (call.reach (ensureInstalled platform) host.root).2 := by
    have hreached := ensureInstalled_reached h.sound call
    rcases hend : call.reach (ensureInstalled platform) host.root with ⟨_ | ⟨_ | result, k⟩, t⟩
    all_goals rw [hend] at hreached
    · exact hreached
    · exact hreached
    · exact hreached.1
  exact ⟨⟨hsound.left, hsound.right⟩, howned .manifest h.manifests, howned .receipt h.receipts⟩

/-- **One call** reports a verified installation of what can be started. -/
theorem startable_step (ha : Agree platform libraries) (h : Tidy platform host) :
    Startable platform libraries (host.step platform call) := by
  intro result hdone hverified
  have hreached := ensureInstalled_reached h.sound call
  have htidy := h.step call
  change (call.reach (ensureInstalled platform) host.root).1.map Prod.fst = some (.ok result) at hdone
  rcases hend : call.reach (ensureInstalled platform) host.root with ⟨_ | ⟨answer, k⟩, t⟩
  · rw [hend] at hdone
    cases hdone
  rw [hend] at hdone hreached
  cases hdone
  obtain ⟨bytes, hasset, dir, hdir, hcomplete⟩ := hreached.2 hverified
  have hroot : (host.step platform call).root = t.root := congrArg (fun run => run.2.root) hend
  have hcurrent : (host.step platform call).root.lookup currentName = some dir := by
    rw [hroot]
    exact hdir
  have hfile : ∀ {dot content}, dir.lookup dot = some content →
      (host.step platform call).root.file currentName dot = some content := by
    intro dot content hcontent
    rw [Installer.Root.file, hcurrent]
    exact hcontent
  -- the manifest that is there
  obtain ⟨digest, parsed, hv, -⟩ := Installer.Dir.complete_iff.mp hcomplete
  have hmanifest := hv.read
  rw [Installer.Dir.manifest] at hmanifest
  cases hlookup : dir.lookup manifestName with
  | none =>
    rw [hlookup] at hmanifest
    cases hmanifest
  | some found =>
    rw [hlookup] at hmanifest
    dsimp only at hmanifest
    split at hmanifest
    · cases hmanifest
    cases hmanifest
    refine ⟨platform.sha256 bytes, dir, found, ?_, hcurrent, hlookup,
      eq_of_constantEquals (ha.hex found) hv.agrees, fun manifest hread => ?_⟩
    · show (call.assets.lookup manifestName).map platform.sha256 = some (platform.sha256 bytes)
      rw [hasset]
      rfl
    · exact verify_iff ha hcomplete (ha.hex bytes) hlookup (htidy.manifests _ _ (hfile hlookup))
        (fun receipt hreceipt => htidy.receipts _ _ (hfile hreceipt)) hread

/-- **Installer and launcher.**  Any calls one after the other, each with its own bundle, any faults,
    and a crash anywhere: whenever the installer reports a verified installation, the launcher accepts
    it exactly when its manifest is `Launchable`. -/
theorem installed_starts_iff (ha : Agree platform libraries) (calls : List Call) :
    Runs.Always (Host.step platform) (Startable platform libraries) Host.fresh calls := by
  refine Runs.always_invariant (Host.step platform)
    (I := fun host => Tidy platform host ∧ Startable platform libraries host)
    (fun host call h => ⟨h.1.step call, startable_step ha h.1⟩) (fun host h => h.2) ?_ calls
  refine ⟨⟨⟨fun _ hdir => (by cases hdir), fun _ hdir => (by cases hdir)⟩, ?_, ?_⟩, nofun⟩
  · intro name bytes hfile
    cases hfile
  · intro name bytes hfile
    cases hfile

end

/-! ## A manifest with the fields that the installer checks, and no others -/

section

open Installer (SmallBundle firstBundle secondBundle smallPlatform callOf emptySha utf8Bytes
  installRelativeRoot malformed Call Host Installable stagedTree lookup_stagedTree
  installedRoot lookup_installedRoot)

/-- The digest that starts at a byte. -/
def digestAt (start : Nat) (bytes : List UInt8) : String :=
  String.ofList (((bytes.drop start).take 64).map (fun b => Char.ofNat b.toNat))

theorem digest_ascii {digest : String} (h : Installer.isSha256 digest = true) :
    ∀ c ∈ digest.toList, c.toNat < 128 := by
  rw [Installer.isSha256, Bool.and_eq_true, List.all_eq_true] at h
  exact fun c hc => isHex_ascii (h.2 c hc)

/-- A digest is written with one byte for a digit. -/
theorem utf8Bytes_digest {digest : String} (h : Installer.isSha256 digest = true) :
    utf8Bytes digest = digest.toList.map (fun c => c.val.toUInt8) := by
  rw [utf8Bytes, List.map_eq_flatMap]
  refine List.flatMap_congr (fun c hc => ?_)
  exact String.utf8EncodeChar_eq_singleton (Text.utf8Size_ascii (digest_ascii h c hc))

theorem length_digest {digest : String} (h : Installer.isSha256 digest = true) :
    (utf8Bytes digest).length = 64 := by
  rw [utf8Bytes_digest h, List.length_map]
  rw [Installer.isSha256, Bool.and_eq_true, decide_eq_true_eq] at h
  exact h.1

theorem digestAt_append {start : Nat} {before after : List UInt8} {digest : String}
    (h : Installer.isSha256 digest = true) (hstart : before.length = start) :
    digestAt start (before ++ (utf8Bytes digest ++ after)) = digest := by
  have hback : ∀ c ∈ digest.toList, Char.ofNat c.val.toUInt8.toNat = c := by
    intro c hc
    have hsmall : c.val.toUInt8.toNat = c.toNat := by
      rw [UInt32.toNat_toUInt8]
      exact Nat.mod_eq_of_lt (Nat.lt_of_lt_of_le (digest_ascii h c hc) (by decide))
    rw [hsmall]
    exact Char.ofNat_toNat c
  rw [digestAt, ← hstart, List.drop_left, ← length_digest h, List.take_left, utf8Bytes_digest h,
    List.map_map]
  refine String.toList_injective ?_
  rw [String.toList_ofList]
  exact (List.map_congr_left hback).trans (List.map_id _)

/-- A receipt up to the digest of the manifest. -/
def receiptHead : List UInt8 :=
  ["\x7b\"schema\":", toString (1 : Int), ",\"component_id\":\"", expectedComponent,
    "\",\"version\":\"", expectedVersion, "\",\"profile_id\":\"", expectedProfile,
    "\",\"manifest_sha256\":\""].flatMap utf8Bytes

def receiptMiddle : List UInt8 := utf8Bytes "\",\"tree_sha256\":\""

def receiptTail : List UInt8 :=
  ["\",\"install_root\":\"", String.ofList (installRelativeRoot.toList.flatMap
      (fun c => if c = '/' then ['\\', '/'] else [c])),
    "\",\"source\":\"", "verified_apk_asset", "\",\"service_round_trip_proven\":", "false",
    "\x7d"].flatMap utf8Bytes ++ [10]

theorem length_receiptHead : receiptHead.length = 131 := by set_option maxRecDepth 20000 in decide

theorem length_receiptMiddle : receiptMiddle.length = 17 := by decide

/-- `smallPlatform`, with a reader for every receipt that the installer writes. -/
def receiptPlatform : Platform :=
  { smallPlatform with
    readReceipt bytes := .ok
      { schema := 1
        componentId := expectedComponent
        version := expectedVersion
        profileId := expectedProfile
        manifestSha256 := digestAt 131 bytes
        treeSha256 := digestAt 212 bytes } }

/-- The manifest of a small bundle, with the types of the launcher. -/
def manifestOf (bundle : SmallBundle) : BundleManifest where
  schema := 1
  componentId := expectedComponent
  version := expectedVersion
  profileId := expectedProfile
  sourceArchiveSha256 := Installer.expectedSourceSha256
  routingPatchProfileSha256 := Installer.expectedPatchSha256
  requiredNodeVersion := Installer.expectedNode
  runtime := .object (.ofList [
    ("bind_host", .string "127.0.0.1"), ("entrypoint", .string "server-ws.mjs"),
    ("environment", .object (.ofList [
      ("DASHBOARD_PORT", .string "20128"), ("HOSTNAME", .string "127.0.0.1"),
      ("OMNIROUTE_MITM_STUB", .string "1"), ("PORT", .string "20128"),
      ("VECTOR_STORE_DISABLE_VEC", .string "true")])),
    ("port", .number (.posInt 20128))])
  fileCount := bundle.paths.length.toUInt64
  totalBytes := 0
  treeSha256 := bundle.treeSha256
  files := bundle.paths.map (fun path => ⟨path, 0, emptySha⟩)
  apkAssetPackaged := false
  serviceRoundTripProven := false

def receiptLibraries : Libraries where
  readManifest bytes :=
    if bytes[16]? = some 57 then some (manifestOf firstBundle)
    else if bytes[16]? = some 101 then some (manifestOf secondBundle)
    else none
  readReceipt bytes := some
    { schema := 1
      componentId := expectedComponent
      version := expectedVersion
      profileId := expectedProfile
      manifestSha256 := digestAt 131 bytes
      treeSha256 := digestAt 212 bytes }
  sha256 := receiptPlatform.sha256

theorem buildReceipt_eq (manifest : Installer.BundleManifest) (sha : String) :
    buildReceipt receiptPlatform manifest sha =
      receiptHead ++ (utf8Bytes sha ++
        (receiptMiddle ++ (utf8Bytes manifest.treeSha256 ++ receiptTail))) := by
  simp only [buildReceipt, receiptPlatform, smallPlatform, Installer.receiptText, receiptHead,
    receiptMiddle, receiptTail, List.flatMap_cons, List.flatMap_nil, List.append_assoc,
    List.append_nil, Bool.false_eq_true, if_false]

theorem answers_of_small {bundle : SmallBundle} (h : bundle.paths.length < 2 ^ 31) :
    Answers (manifestOf bundle) bundle.json where
  schema := by
    show (1 : Int) = optInt 1
    decide
  componentId := rfl
  version := rfl
  profileId := rfl
  requiredNodeVersion := rfl
  sourceArchiveSha256 := rfl
  routingPatchProfileSha256 := rfl
  apkAssetPackaged := rfl
  serviceRoundTripProven := rfl
  treeSha256 := rfl
  totalBytes := by
    show (0 : Int) = optLong 0
    decide
  fileCount := by
    have hcount : (manifestOf bundle).fileCount.toNat = bundle.paths.length :=
      Nat.mod_eq_of_lt (by omega)
    rw [hcount, optInt, if_pos (by omega)]
    show (bundle.paths.length : Int) = _
    omega
  files := by
    show some _ = some (((bundle.paths.map _).map _).map _)
    rw [List.map_map, List.map_map]
    rfl

theorem receipt_digests {manifest : Installer.BundleManifest} {sha : String}
    (hsha : Installer.isSha256 sha = true) (htree : Installer.isSha256 manifest.treeSha256 = true) :
    digestAt 131 (buildReceipt receiptPlatform manifest sha) = sha ∧
      digestAt 212 (buildReceipt receiptPlatform manifest sha) = manifest.treeSha256 := by
  rw [buildReceipt_eq]
  constructor
  · exact digestAt_append hsha length_receiptHead
  · rw [← List.append_assoc, ← List.append_assoc]
    refine digestAt_append htree ?_
    rw [List.length_append, List.length_append, length_digest hsha, length_receiptHead,
      length_receiptMiddle]

theorem receipt_hex (bytes : List UInt8) :
    Installer.isSha256 (receiptPlatform.sha256 bytes) = true := by
  simp only [receiptPlatform, smallPlatform]
  split
  · decide
  split
  · split
    · decide
    · decide
  split
  · decide
  · decide

theorem receipt_agree : Agree receiptPlatform receiptLibraries where
  hex := receipt_hex
  sha256 _ := rfl
  manifest bytes manifest json hread hjson := by
    simp only [receiptLibraries] at hread
    simp only [receiptPlatform, smallPlatform] at hjson
    split at hread
    · rename_i hfirst
      rw [if_pos hfirst] at hjson
      cases hread
      cases hjson
      exact answers_of_small (by decide)
    · rename_i hfirst
      rw [if_neg hfirst] at hjson
      split at hread
      · rename_i hsecond
        rw [if_pos hsecond] at hjson
        cases hread
        cases hjson
        exact answers_of_small (by decide)
      · cases hread
  receipt manifest content htree := by
    have h := receipt_digests (receipt_hex content) htree
    show Except.ok (_ : ReceiptJson) = _
    rw [h.1, h.2]
  launchedReceipt manifest content htree := by
    have h := receipt_digests (receipt_hex content) htree
    show some (_ : InstallReceipt) = _
    rw [h.1, h.2]

/-- A first installation of such a bundle. -/
theorem installed_starts_iff_first :
    Runs.Always (Host.step receiptPlatform) (Startable receiptPlatform receiptLibraries) Host.fresh
      [callOf firstBundle 1000] :=
  installed_starts_iff receipt_agree _

theorem firstBundle_tree : Installer.isSha256 firstBundle.manifest.treeSha256 = true := by
  show Installer.isSha256 firstBundle.treeSha256 = true
  decide

/-- The installer reads its own receipt of the bundle. -/
theorem firstBundle_installable :
    Installable receiptPlatform firstBundle.assets firstBundle.bytes firstBundle.manifest := by
  have hsha := receipt_hex firstBundle.bytes
  have hdigests := receipt_digests hsha firstBundle_tree
  refine Installer.firstBundle_installable _ ⟨_, rfl, ?_⟩
  rw [show smallPlatform.sha256 = receiptPlatform.sha256 from rfl,
    show buildReceipt smallPlatform = buildReceipt receiptPlatform from rfl, ReceiptJson.matches,
    hdigests.1, hdigests.2]
  simp [constantEquals]

/-- **A bundle that is installed and never starts**: its `runtime` has the members that the installer
    checks, and not the others of the profile. -/
theorem installed_but_refused : Agree receiptPlatform receiptLibraries ∧
    ¬ Runs.Always (Host.step receiptPlatform) (Starts receiptLibraries) Host.fresh
      [callOf firstBundle 1000] := by
  refine ⟨receipt_agree, fun halways => ?_⟩
  have hlast := Runs.Always.last (Host.step receiptPlatform) halways
  obtain ⟨houtcome, hroot, -⟩ : (Host.step receiptPlatform Host.fresh (callOf firstBundle 1000)).outcome =
      _ ∧ _ = installedRoot _ _ ∧ _ :=
    Host.step_fresh firstBundle_installable rfl Installer.firstBundle_steps
  obtain ⟨sha, dir, bytes, -, hdir, hbytes, hstarts⟩ := hlast _ houtcome rfl
  have hlookup : some dir = some (stagedTree receiptPlatform firstBundle.assets firstBundle.bytes
      firstBundle.manifest) := by
    rw [← hdir]
    show (Host.step receiptPlatform Host.fresh (callOf firstBundle 1000)).root.lookup currentName = _
    rw [hroot]
    exact lookup_installedRoot
  cases hlookup
  rw [(lookup_stagedTree firstBundle_installable).1] at hbytes
  cases hbytes
  have hread : receiptLibraries.readManifest firstBundle.bytes = some (manifestOf firstBundle) := by
    simp only [receiptLibraries]
    rw [if_pos]
    decide
  obtain ⟨manifest, haccepted⟩ := verifyRuntimeTree_iff.mp (hstarts (by rw [hread]; rfl))
  obtain ⟨bytes, ⟨hbytes, -⟩, -, hmanifest⟩ := haccepted.read
  rw [(lookup_stagedTree firstBundle_installable).1] at hbytes
  cases hbytes
  rw [hread] at hmanifest
  cases hmanifest
  exact absurd haccepted.runtime (by decide)

end

end VibeCoder.RuntimeTree
