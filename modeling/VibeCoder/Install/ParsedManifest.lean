/-
  What `BundleManifest.parse` lets through.

  1. **The header** (`checkHeader_ok`) — the identity, the limits and the number of files.
  2. **The files** (`parseFiles_read`) — each with a relative path, a size and a digest, in order.
  3. **The manifest** (`parse_ok`) — both, and a tree digest over the files that were read.
-/
import VibeCoder.Install.Staging

namespace VibeCoder.Installer

variable {platform : Platform}

/-- A guard followed by the rest, as `do` notation spells it. -/
theorem guard_eq_ok {ε β : Type} {c : Prop} [Decidable c] {e : ε} {f : Unit → Except ε β}
    {rest : Except ε β} {b : β} :
    (if c then throw e >>= f else rest) = .ok b ↔ ¬ c ∧ rest = .ok b := by
  by_cases hc : c
  · rw [if_pos hc]
    constructor
    · intro h
      cases h
    · rintro ⟨hnot, -⟩
      exact absurd hc hnot
  · rw [if_neg hc]
    constructor
    · intro h
      exact ⟨hc, h⟩
    · rintro ⟨-, h⟩
      exact h

theorem read_then_iff {ε α β : Type} {x : Except ε α} {f : α → Except ε β} {b : β} :
    (x >>= f) = .ok b ↔ ∃ a, x = .ok a ∧ f a = .ok b := by
  cases x with
  | error e => exact ⟨(fun h => by cases h), (fun ⟨_, h, _⟩ => by cases h)⟩
  | ok a =>
    constructor
    · intro h
      exact ⟨a, rfl, h⟩
    · rintro ⟨_, ⟨⟩, h⟩
      exact h

/-! ## The header -/

/-- What the header checks leave. -/
structure ManifestJson.Checked (root : ManifestJson) (array : List (Except Throwable FileJson)) :
    Prop where
  identity : root.identity = true
  honest : root.apkAssetPackaged = false ∧ root.serviceRoundTripProven = false
  treeSha256 : isSha256 root.treeSha256 = true
  total : 0 ≤ root.totalBytes ∧ root.totalBytes ≤ maxTotalBytes
  count : 1 ≤ root.fileCount ∧ root.fileCount ≤ maxFiles
  files : root.files = some array ∧ (array.length : Int) = root.fileCount

theorem checkHeader_ok {root : ManifestJson} {array : List (Except Throwable FileJson)}
    (h : root.checkHeader = .ok array) : root.Checked array := by
  rw [ManifestJson.checkHeader] at h
  simp only [guard_eq_ok, Bool.not_eq_true, Bool.not_eq_false', Bool.or_eq_false_iff,
    decide_eq_false_iff_not, Int.not_lt, gt_iff_lt] at h
  obtain ⟨hidentity, hhonest, -, -, htree, ⟨⟨⟨hnonneg, htotal⟩, hsome⟩, hfew⟩, hfiles⟩ := h
  split at hfiles
  · cases hfiles
  · rename_i files hsame
    rw [guard_eq_ok, not_not] at hfiles
    obtain ⟨hcount, hok⟩ := hfiles
    cases hok
    exact ⟨hidentity, hhonest, htree, ⟨hnonneg, htotal⟩, ⟨hsome, hfew⟩, hsame, hcount⟩

/-! ## The files -/

/-- A file that has been read. -/
def FileJson.file (item : FileJson) : ManifestFile := ⟨item.path, item.size, item.sha256⟩

/-- What the loop asks of a file by itself. -/
structure FileJson.Checked (item : FileJson) : Prop where
  path : validateRelativePath item.path = .ok ()
  size : 0 ≤ item.size ∧ item.size ≤ maxFileBytes
  sha256 : isSha256 item.sha256 = true

/-- **The files that were read**, in their order. -/
theorem parseFiles_read {entries : List (Except Throwable FileJson)} :
    ∀ {files read : List ManifestFile} {total whole : Int},
      parseFiles entries files total = .ok (read, whole) →
        ∃ items : List FileJson, entries = items.map Except.ok ∧ (∀ item ∈ items, item.Checked) ∧
          read = files ++ items.map FileJson.file ∧ whole = total + (items.map FileJson.size).sum := by
  induction entries with
  | nil =>
    intro files read total whole h
    cases h
    refine ⟨[], rfl, fun item hitem => absurd hitem List.not_mem_nil, ?_, ?_⟩
    · simp
    · simp
  | cons entry rest ih =>
    intro files read total whole h
    simp only [parseFiles, read_then_iff, guard_eq_ok, Bool.not_eq_true, Bool.or_eq_false_iff,
      Bool.not_eq_false', decide_eq_false_iff_not, Int.not_lt, gt_iff_lt] at h
    obtain ⟨item, rfl, _, hpath, -, ⟨⟨hnonneg, hsize⟩, hsha⟩, sum, hsum, -, hrest⟩ := h
    obtain ⟨items, rfl, hchecked, rfl, rfl⟩ := ih hrest
    refine ⟨item :: items, rfl, fun other hother => ?_, ?_, ?_⟩
    · rcases List.mem_cons.mp hother with rfl | hother
      · exact ⟨hpath, ⟨hnonneg, hsize⟩, hsha⟩
      · exact hchecked other hother
    · rw [List.append_assoc]
      rfl
    · rw [checkedAdd_ok hsum, List.map_cons, List.sum_cons]
      omega

/-! ## The manifest -/

/-- **What has been parsed.** -/
theorem parse_ok {bytes : List UInt8} {manifest : BundleManifest}
    (h : BundleManifest.parse platform bytes = .ok manifest) :
    ∃ (root : ManifestJson) (items : List FileJson), platform.readManifest bytes = .ok root ∧
      root.Checked (items.map Except.ok) ∧
      (∀ item ∈ items, item.Checked) ∧
      (items.map FileJson.size).sum = root.totalBytes ∧
      constantEquals (platform.sha256 (manifest.files.flatMap ManifestFile.digestLine))
        root.treeSha256 = true ∧
      (∀ required ∈ requiredFiles, required ∈ manifest.files.map ManifestFile.path) ∧
      manifest = ⟨root.treeSha256, root.totalBytes, items.map FileJson.file⟩ := by
  rw [BundleManifest.parse] at h
  simp only [read_then_iff, guard_eq_ok] at h
  obtain ⟨root, hroot, array, harray, ⟨files, total⟩, hfiles, htotal, htree, hrest⟩ := h
  obtain ⟨items, rfl, hchecked, hread, hsum⟩ := parseFiles_read hfiles
  split at hrest
  · cases hrest
  · rename_i hrequired
    rw [guard_eq_ok] at hrest
    obtain ⟨-, hok⟩ := hrest
    cases hok
    rw [not_not] at htotal
    rw [Int.zero_add] at hsum
    refine ⟨root, items, hroot, checkHeader_ok harray, hchecked, hsum.symm.trans htotal, ?_,
      fun required hmem => ?_, ?_⟩
    · simpa using htree
    · have hfound := List.find?_eq_none.mp hrequired required hmem
      simpa using hfound
    · rw [hread]
      rfl

end VibeCoder.Installer
