/-
  Complete trees, and trees with a gap.

  1. **Manifests** (`BundleManifest.WellFormed`) — what `BundleManifest.parse` accepts lists no path
     twice, neither the manifest nor the receipt, and lists `server.js`.

  2. **Complete** (`Dir.complete`) — a tree with exactly the files of its manifest, the manifest and
     a receipt for it.  A verification that passes has seen all of this but the sizes
     (`Dir.Verified`; `File.length` answers 0 where it fails).

  3. **Gaps** (`Dir.Gappy`) — a file of the manifest is missing.  A tree that is deleted gets a gap
     with the first file that goes (`gappy_of_first`): the last path in the order is never one of
     the two dot files at its top.  So a deletion that is cut short leaves nothing that a
     verification, with or without a receipt, takes for a tree.
-/
import VibeCoder.Install.AssetInstaller

namespace VibeCoder.Installer

variable {platform : Platform}

/-! ## Manifests -/

structure BundleManifest.WellFormed (manifest : BundleManifest) : Prop where
  unreserved : ∀ item ∈ manifest.files, item.path ≠ manifestName ∧ item.path ≠ receiptName
  nodup : (manifest.files.map ManifestFile.path).Nodup
  server : "server.js" ∈ manifest.files.map ManifestFile.path

theorem parseFiles_ok {entries : List (Except Throwable FileJson)} {files read : List ManifestFile}
    {total readTotal : Int} (h : parseFiles entries files total = .ok (read, readTotal))
    (hunreserved : ∀ item ∈ files, item.path ≠ manifestName ∧ item.path ≠ receiptName)
    (hnodup : (files.map ManifestFile.path).Nodup) :
    (∀ item ∈ read, item.path ≠ manifestName ∧ item.path ≠ receiptName) ∧
      (read.map ManifestFile.path).Nodup := by
  induction entries generalizing files total with
  | nil =>
    cases h
    exact ⟨hunreserved, hnodup⟩
  | cons entry rest ih =>
    cases entry with
    | error e => cases h
    | ok item =>
      simp only [parseFiles, bind, Except.bind] at h
      split at h
      · cases h
      split at h
      · cases h
      rename_i hfresh
      split at h
      · cases h
      split at h
      · cases h
      split at h
      · cases h
      -- the file that was read is neither reserved nor listed before
      simp only [Bool.or_eq_true, decide_eq_true_eq, not_or] at hfresh
      obtain ⟨⟨hmanifest, hreceipt⟩, hnew⟩ := hfresh
      refine ih h (fun other hother => ?_) ?_
      · rcases List.mem_append.mp hother with hold | hlast
        · exact hunreserved other hold
        · rw [List.mem_singleton.mp hlast]
          exact ⟨hmanifest, hreceipt⟩
      · rw [List.map_append]
        refine List.nodup_append.mpr ⟨hnodup, List.nodup_singleton _, ?_⟩
        intro path hpath other hother heq
        rw [List.map_singleton, List.mem_singleton] at hother
        rw [heq, hother] at hpath
        exact hnew hpath

theorem parse_wellFormed {bytes : List UInt8} {manifest : BundleManifest}
    (h : BundleManifest.parse platform bytes = .ok manifest) : manifest.WellFormed := by
  simp only [BundleManifest.parse, bind, Except.bind] at h
  split at h
  · cases h
  split at h
  · cases h
  split at h
  · cases h
  rename_i read hread
  obtain ⟨files, total⟩ := read
  obtain ⟨hunreserved, hnodup⟩ := parseFiles_ok hread (fun _ hitem => by cases hitem) List.nodup_nil
  dsimp only at h
  split at h
  · cases h
  split at h
  · cases h
  split at h
  · cases h
  rename_i hrequired
  split at h
  · cases h
  cases h
  have hserver := List.find?_eq_none.mp hrequired "server.js" (by decide)
  simp only [decide_not, Bool.not_eq_true', decide_eq_false_iff_not, not_not] at hserver
  exact ⟨hunreserved, hnodup, hserver⟩

/-! ## Complete trees -/

namespace Dir

/-- The manifest in a directory, with its digest. -/
def manifest (platform : Platform) (dir : Dir) : Option (String × BundleManifest) :=
  match dir.lookup manifestName with
  | none => none
  | some bytes =>
    match BundleManifest.parse platform bytes with
    | .error _ => none
    | .ok manifest => some (platform.sha256 bytes, manifest)

/-- There is a receipt for the manifest. -/
def receipted (platform : Platform) (dir : Dir) (sha : String) (manifest : BundleManifest) : Bool :=
  (dir.lookup receiptName).any (fun bytes =>
    match platform.readReceipt bytes with
    | .error _ => false
    | .ok receipt => receipt.matches sha manifest)

/-- There is a file with the digest of the manifest. -/
def digested (platform : Platform) (dir : Dir) (item : ManifestFile) : Bool :=
  (dir.lookup item.path).any (fun content => constantEquals (platform.sha256 content) item.sha256)

/-- No file differs in size from the manifest. -/
def Sized (dir : Dir) (files : List ManifestFile) : Prop :=
  ∀ item ∈ files, ∀ content, dir.lookup item.path = some content → (content.length : Int) = item.size

/-- What a verification that passes has seen. -/
structure Verified (platform : Platform) (expected : Option String) (requireReceipt : Bool) (dir : Dir)
    (sha : String) (manifest : BundleManifest) : Prop where
  read : dir.manifest platform = some (sha, manifest)
  agrees : expected.all (constantEquals sha) = true
  receipt : requireReceipt = true → dir.receipted platform sha manifest = true
  payload : ∀ item ∈ manifest.files, dir.digested platform item = true
  paths : samePaths dir.keys (manifest.expectedPaths requireReceipt) = true

/-- **A complete tree**: exactly the files of its manifest, the manifest and its receipt. -/
def complete (platform : Platform) (expected : Option String) (dir : Dir) : Bool :=
  match dir.manifest platform with
  | none => false
  | some (sha, manifest) =>
    expected.all (constantEquals sha) && dir.receipted platform sha manifest &&
      manifest.files.all (fun item => dir.digested platform item &&
        (dir.lookup item.path).all (fun content => (content.length : Int) = item.size)) &&
      samePaths dir.keys (manifest.expectedPaths true)

/-- **A tree with a gap**: if its manifest can be read, one of the files listed there is missing. -/
def Gappy (platform : Platform) (dir : Dir) : Prop :=
  ∀ sha manifest, dir.manifest platform = some (sha, manifest) →
    ∃ item ∈ manifest.files, dir.lookup item.path = none

variable {dir : Dir} {expected : Option String} {sha : String} {manifest : BundleManifest}

theorem manifest_wellFormed (h : dir.manifest platform = some (sha, manifest)) :
    manifest.WellFormed := by
  unfold Dir.manifest at h
  split at h
  · cases h
  split at h
  · cases h
  rename_i hparsed
  cases h
  exact parse_wellFormed hparsed

theorem manifest_of_read {bytes : List UInt8} (h : dir.lookup manifestName = some bytes)
    (hparsed : BundleManifest.parse platform bytes = .ok manifest) :
    dir.manifest platform = some (platform.sha256 bytes, manifest) := by
  unfold Dir.manifest
  rw [h]
  dsimp only
  rw [hparsed]

/-- What has been seen of a complete tree. -/
theorem exists_verified (h : dir.complete platform expected = true) :
    ∃ sha manifest, Verified platform expected true dir sha manifest ∧ dir.Sized manifest.files := by
  unfold complete at h
  rcases hread : dir.manifest platform with _ | ⟨sha, manifest⟩
  · rw [hread] at h
    cases h
  rw [hread] at h
  simp only [Bool.and_eq_true, List.all_eq_true] at h
  obtain ⟨⟨⟨hsha, hreceipt⟩, hfiles⟩, hpaths⟩ := h
  refine ⟨sha, manifest, ⟨hread, hsha, fun _ => hreceipt, fun item hitem => (hfiles item hitem).1,
    hpaths⟩, fun item hitem content hcontent => ?_⟩
  have hsize := (hfiles item hitem).2
  rw [hcontent] at hsize
  exact of_decide_eq_true hsize

theorem Verified.complete (h : Verified platform expected true dir sha manifest)
    (hsized : dir.Sized manifest.files) : dir.complete platform expected = true := by
  unfold Dir.complete
  rw [h.read]
  simp only [Bool.and_eq_true, List.all_eq_true]
  refine ⟨⟨⟨h.agrees, h.receipt rfl⟩, fun item hitem => ⟨h.payload item hitem, ?_⟩⟩, h.paths⟩
  cases hcontent : dir.lookup item.path with
  | none => rfl
  | some content => exact decide_eq_true (hsized item hitem content hcontent)

theorem complete_iff : dir.complete platform expected = true ↔
    ∃ sha manifest, Verified platform expected true dir sha manifest ∧ dir.Sized manifest.files := by
  constructor
  · exact exists_verified
  · rintro ⟨sha, manifest, h, hsized⟩
    exact h.complete hsized

theorem complete_none (h : dir.complete platform expected = true) :
    dir.complete platform none = true := by
  obtain ⟨sha, manifest, hverified, hsized⟩ := exists_verified h
  exact Verified.complete { hverified with agrees := rfl } hsized

/-! ## Gaps -/

theorem Gappy.not_verified {requireReceipt : Bool} (h : dir.Gappy platform) :
    ¬ Verified platform expected requireReceipt dir sha manifest := by
  intro hverified
  obtain ⟨item, hitem, hmissing⟩ := h sha manifest hverified.read
  have hpresent := hverified.payload item hitem
  unfold digested at hpresent
  rw [hmissing] at hpresent
  cases hpresent

/-- The files a tree has, where a verification has passed. -/
theorem Verified.mem_keys {requireReceipt : Bool}
    (h : Verified platform expected requireReceipt dir sha manifest) {path : String} :
    path ∈ dir.keys ↔ path ∈ manifest.expectedPaths requireReceipt := by
  have hpaths := h.paths
  unfold samePaths at hpaths
  simp only [Bool.and_eq_true, List.all_eq_true, decide_eq_true_eq] at hpaths
  exact ⟨hpaths.1 path, hpaths.2 path⟩

/-- With a receipt in it a tree does not pass without one. -/
theorem not_verified_of_complete (h : dir.complete platform none = true) :
    ¬ Verified platform expected false dir sha manifest := by
  intro hverified
  obtain ⟨sha', manifest', hcomplete, -⟩ := exists_verified h
  have hsame : some (sha', manifest') = some (sha, manifest) :=
    hcomplete.read.symm.trans hverified.read
  cases hsame
  have hhere : receiptName ∈ dir.keys := by
    refine hcomplete.mem_keys.mpr ?_
    unfold BundleManifest.expectedPaths
    simp
  have hlisted := hverified.mem_keys.mp hhere
  rcases List.mem_cons.mp hlisted with hname | hpayload
  · exact absurd hname (by decide)
  · obtain ⟨item, hitem, hpath⟩ := List.mem_map.mp (show receiptName ∈ manifest.files.map _ from hpayload)
    exact ((manifest_wellFormed hverified.read).unreserved item hitem).2 hpath

theorem complete_expected (h : dir.complete platform none = true)
    (hverified : Verified platform expected true dir sha manifest) :
    dir.complete platform expected = true := by
  obtain ⟨sha', manifest', hcomplete, hsized⟩ := exists_verified h
  have hsame : some (sha', manifest') = some (sha, manifest) :=
    hcomplete.read.symm.trans hverified.read
  cases hsame
  exact hverified.complete hsized

theorem keys_ne_nil_of_complete (h : dir.complete platform none = true) : dir.keys ≠ [] := by
  obtain ⟨sha, manifest, hverified, -⟩ := exists_verified h
  have hmem : manifestName ∈ dir.keys := hverified.mem_keys.mpr List.mem_cons_self
  exact List.ne_nil_of_mem hmem

/-- Deleting more keeps a gap. -/
theorem Gappy.erase (h : dir.Gappy platform) (path : String) : Gappy platform (dir.erase path) := by
  intro sha manifest hread
  by_cases hname : manifestName = path
  · -- the manifest itself is gone
    unfold Dir.manifest at hread
    rw [hname, AList.lookup_erase] at hread
    cases hread
  have hsame : dir.manifest platform = some (sha, manifest) := by
    unfold Dir.manifest at hread ⊢
    rwa [AList.lookup_erase_ne hname] at hread
  obtain ⟨item, hitem, hmissing⟩ := h sha manifest hsame
  refine ⟨item, hitem, ?_⟩
  by_cases hitself : item.path = path
  · rw [hitself, AList.lookup_erase]
  · rw [AList.lookup_erase_ne hitself]
    exact hmissing

/-- **The first deletion makes a gap.**  The last path in the order is a file of the manifest. -/
theorem gappy_of_first (h : dir.complete platform none = true ∨ dir.Gappy platform) {path : String}
    {rest : List String} (horder : deletionOrder dir.keys = path :: rest) :
    Gappy platform (dir.erase path) := by
  rcases h with hcomplete | hgappy
  · obtain ⟨sha, manifest, hverified, -⟩ := exists_verified hcomplete
    have hwell := manifest_wellFormed hverified.read
    have hmem : ∀ p, p ∈ path :: rest ↔ p ∈ manifest.expectedPaths true := by
      intro p
      rw [← horder, deletionOrder, List.mem_insertionSort]
      exact hverified.mem_keys
    have hsorted : (path :: rest).Pairwise (· ≥ ·) := by
      rw [← horder]
      exact List.pairwise_insertionSort _ _
    have hlast : "server.js" ≤ path := by
      have hserver : "server.js" ∈ path :: rest :=
        (hmem _).mpr (List.mem_cons_of_mem _ (List.mem_append_right _ hwell.server))
      rcases List.mem_cons.mp hserver with heq | hrest
      · exact le_of_eq heq
      · exact (List.pairwise_cons.mp hsorted).1 _ hrest
    -- both dot files come before `server.js`
    have hmanifest : path ≠ manifestName := by
      rintro rfl
      exact absurd hlast (by decide)
    have hreceipt : path ≠ receiptName := by
      rintro rfl
      exact absurd hlast (by decide)
    have hpayload : path ∈ manifest.files.map ManifestFile.path := by
      have hlisted := (hmem path).mp List.mem_cons_self
      simpa [BundleManifest.expectedPaths, hmanifest, hreceipt] using hlisted
    obtain ⟨item, hitem, hpath⟩ := List.mem_map.mp hpayload
    intro sha' manifest' hread
    have hsame : dir.manifest platform = some (sha', manifest') := by
      unfold Dir.manifest at hread ⊢
      rwa [AList.lookup_erase_ne hmanifest.symm] at hread
    rw [hverified.read] at hsame
    cases hsame
    refine ⟨item, hitem, ?_⟩
    rw [hpath, AList.lookup_erase]
  · exact hgappy.erase path

end Dir

end VibeCoder.Installer
