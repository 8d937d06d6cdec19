/-
  The installer does install: on an empty runtime root, when nothing goes wrong, a bundle that is
  well formed ends up as the verified current directory.

  The laws of the other modules say what holds if a call returns; this one says that it does return,
  and after how many operations (`Takes`).

  1. **Copying** (`calm_copyAssets`) — file by file, as long as no path lies below another.
  2. **Verification** (`calm_verifyInstalled`) — a complete tree passes.
  3. **The call** (`calm_ensureInstalled`) — both, and the renames around them.
-/
import Mathlib.Algebra.Order.BigOperators.Group.List
import VibeCoder.Install.CrashSafety
import VibeCoder.Install.ParsedManifest
import VibeCoder.Lib.Takes

namespace VibeCoder.Installer

open Resume

variable {platform : Platform} {assets : Dir} {s t : Store} {name : String} {d e : Dir}

/-- The program ends so, after `n` operations on which nothing goes wrong. -/
abbrev Calmly (assets : Dir) (n : Nat) {α : Type} (p : Program α) (s : Store) (r : Except Throwable α)
    (t : Store) : Prop :=
  Takes (exec assets) none n p s r t

theorem calm_op {o : Op} {r : Except Throwable o.Val} (h : calm assets o s = (r, t)) :
    Calmly assets 1 (perform o) s r t :=
  takes_attempt h

theorem calm_failIf {refused : Bool} {error : Throwable} (h : refused = false) :
    Calmly assets 0 (failIf refused error) s (.ok ()) s := by
  rw [h]
  exact takes_pure ()

/-! ## One directory -/

theorem lookup_setDir : (s.setDir name d).root.lookup name = some d := AList.lookup_insert _

theorem file_setDir (path : String) : (s.setDir name d).root.file name path = d.lookup path :=
  file_eq lookup_setDir

theorem setDir_setDir : (s.setDir name d).setDir name e = s.setDir name e := by
  simp only [Store.setDir, AList.insert_insert]

theorem change_setDir (f : Dir → Dir) : (s.setDir name d).change name f = s.setDir name (f d) := by
  simp only [Store.change, lookup_setDir, setDir_setDir]

/-- No name lies below another. -/
def Apart (names : List String) : Prop :=
  ∀ a ∈ names, ∀ b ∈ names, (a ++ "/").toList.isPrefixOf b.toList = false

section

variable {names : List String} {path : String}

theorem Apart.underFile (h : Apart names) (hkeys : ∀ key ∈ d.keys, key ∈ names)
    (hpath : path ∈ names) : d.underFile path = false := by
  rw [Dir.underFile, List.any_eq_false]
  intro key hkey
  rw [h key (hkeys key hkey) path hpath]
  exact Bool.false_ne_true

theorem Apart.aboveFile (h : Apart names) (hkeys : ∀ key ∈ d.keys, key ∈ names)
    (hpath : path ∈ names) : d.aboveFile path = false := by
  rw [Dir.aboveFile, List.any_eq_false]
  intro key hkey
  rw [h path hpath key (hkeys key hkey)]
  exact Bool.false_ne_true

theorem keys_insert_subset {content : List UInt8} (hkeys : ∀ key ∈ d.keys, key ∈ names)
    (hpath : path ∈ names) : ∀ key ∈ (d.insert path content).keys, key ∈ names := by
  intro key hkey
  rcases (AList.mem_insert d).mp (AList.mem_keys.mpr hkey) with rfl | hold
  · exact hpath
  · exact hkeys key (AList.mem_keys.mp hold)

theorem calm_mkParents (h : Apart names) (hkeys : ∀ key ∈ d.keys, key ∈ names)
    (hpath : path ∈ names) :
    Calmly assets 1 (perform (.mkParents name path)) (s.setDir name d) (.ok ()) (s.setDir name d) := by
  refine calm_op ?_
  simp only [calm, lookup_setDir, h.underFile hkeys hpath]
  rfl

theorem calm_create (h : Apart names) (hkeys : ∀ key ∈ d.keys, key ∈ names) (hpath : path ∈ names) :
    Calmly assets 1 (perform (.create name path)) (s.setDir name d) (.ok ())
      (s.setDir name (d.insert path [])) := by
  refine calm_op ?_
  simp only [calm, lookup_setDir, h.underFile hkeys hpath, h.aboveFile hkeys hpath, setDir_setDir]
  rfl

theorem calm_append {old bytes : List UInt8} :
    Calmly assets 1 (perform (.append name path bytes)) (s.setDir name (d.insert path old)) (.ok ())
      (s.setDir name (d.insert path (old ++ bytes))) := by
  refine calm_op ?_
  simp only [calm, change_setDir, AList.lookup_insert, AList.insert_insert, Option.getD_some]

theorem calm_sync : Calmly assets 1 (perform (.sync name path)) s (.ok ()) s :=
  calm_op rfl

end

/-! ## Copying -/

theorem flatten_toChunks_go {α : Type} (n : Nat) (xs : List α) (last : Array α)
    (done : Array (List α)) :
    (List.toChunks.go n xs last done).flatten = done.toList.flatten ++ last.toList ++ xs := by
  induction xs generalizing last done with
  | nil => simp [List.toChunks.go]
  | cons x xs ih =>
    rw [List.toChunks.go]
    split
    · rw [ih]
      simp
    · rw [ih]
      simp

theorem flatten_toChunks {α : Type} (n : Nat) (xs : List α) : (xs.toChunks n).flatten = xs := by
  cases xs with
  | nil => cases n <;> rfl
  | cons x xs =>
    cases n with
    | zero => simp [List.toChunks]
    | succ n =>
      rw [List.toChunks, flatten_toChunks_go]
      · rfl
      · exact nofun

theorem checkedAdd_eq {left right : Int} (hright : 0 ≤ right) (hsum : left + right ≤ 2 ^ 63 - 1) :
    checkedAdd left right = .ok (left + right) := by
  rw [checkedAdd, if_neg]
  simp only [Bool.or_eq_true, decide_eq_true_eq]
  omega

/-- The loop over the chunks. -/
theorem calm_copyChunks {expected : ManifestFile} (hmax : expected.size ≤ maxFileBytes)
    (chunks : List (List UInt8)) {written : Int} {old : List UInt8}
    (hsize : written + chunks.flatten.length ≤ expected.size) :
    Calmly assets chunks.length (copyChunks name expected chunks written)
      (s.setDir name (d.insert expected.path old)) (.ok (written + chunks.flatten.length))
      (s.setDir name (d.insert expected.path (old ++ chunks.flatten))) := by
  induction chunks generalizing written old with
  | nil =>
    have hzero : written + (([] : List (List UInt8)).flatten.length : Int) = written :=
      Int.add_zero written
    rw [hzero, List.flatten_nil, List.append_nil]
    exact takes_pure written
  | cons chunk rest ih =>
    rw [List.flatten_cons, List.length_append] at hsize ⊢
    have hmax' : maxFileBytes = 256 * 1024 * 1024 := rfl
    have hadd : checkedAdd written chunk.length = .ok (written + chunk.length) :=
      checkedAdd_eq (by omega) (by omega)
    have hsum : written + chunk.length + (rest.flatten.length : Int) =
        written + ((chunk.length + rest.flatten.length : Nat) : Int) := by omega
    have hrest : Calmly assets rest.length (copyChunks name expected rest (written + chunk.length))
        (s.setDir name (d.insert expected.path (old ++ chunk))) _ _ := ih (by omega)
    rw [List.append_assoc, hsum] at hrest
    unfold copyChunks
    refine Takes.count (Takes.then (takes_resume hadd) (Takes.then (calm_failIf ?_)
      (Takes.then calm_append hrest))) ?_
    · simp only [Bool.or_eq_false_iff, decide_eq_false_iff_not]
      omega
    · rw [List.length_cons]
      omega

/-- A file of the manifest that the bundle has. -/
structure Supplied (platform : Platform) (assets : Dir) (item : ManifestFile) (content : List UInt8) :
    Prop where
  asset : assets.lookup item.path = some content
  size : (content.length : Int) = item.size
  max : item.size ≤ maxFileBytes
  digest : constantEquals (platform.sha256 content) item.sha256 = true

/-- The operations one file takes. -/
def copySteps (content : List UInt8) : Nat := 4 + (content.toChunks copyBufferBytes).length

theorem calm_copyAndVerifyAsset {names : List String} {item : ManifestFile} {content : List UInt8}
    (h : Supplied platform assets item content) (hapart : Apart names)
    (hkeys : ∀ key ∈ d.keys, key ∈ names) (hpath : item.path ∈ names) :
    Calmly assets (3 + (content.toChunks copyBufferBytes).length)
      (copyAndVerifyAsset platform name item) (s.setDir name d) (.ok ())
      (s.setDir name (d.insert item.path content)) := by
  have hfits : (0 : Int) + (content.toChunks copyBufferBytes).flatten.length ≤ item.size := by
    rw [flatten_toChunks, ← h.size]
    omega
  have hcopy : Calmly assets _ (copyChunks name item (content.toChunks copyBufferBytes) 0)
      (s.setDir name (d.insert item.path [])) _ _ := calm_copyChunks h.max _ hfits
  rw [flatten_toChunks, List.nil_append, Int.zero_add, h.size] at hcopy
  have hopen : calm assets (.openAsset item.path) (s.setDir name d) = (.ok content, s.setDir name d) := by
    simp only [calm, h.asset]
  refine Takes.count (Takes.then (calm_op hopen) (Takes.then (calm_create hapart hkeys hpath)
    (Takes.then hcopy (Takes.then calm_sync (Takes.then (calm_failIf ?_) (calm_failIf ?_)))))) ?_
  · simp
  · rw [h.digest]
    rfl
  · omega

/-- What copying leaves. -/
def copied (assets : Dir) (files : List ManifestFile) (d : Dir) : Dir :=
  files.foldl (fun d item => d.insert item.path ((assets.lookup item.path).getD [])) d

def copyTotal (assets : Dir) (files : List ManifestFile) : Nat :=
  (files.map (fun item => copySteps ((assets.lookup item.path).getD []))).sum

theorem calm_copyAssets {names : List String} (hapart : Apart names) (files : List ManifestFile)
    (hfiles : ∀ item ∈ files, item.path ∈ names ∧ ∃ content, Supplied platform assets item content)
    (hkeys : ∀ key ∈ d.keys, key ∈ names) :
    Calmly assets (copyTotal assets files) (copyAssets platform name files) (s.setDir name d) (.ok ())
      (s.setDir name (copied assets files d)) := by
  induction files generalizing d with
  | nil => exact takes_pure ()
  | cons item rest ih =>
    obtain ⟨hpath, content, hitem⟩ := hfiles item List.mem_cons_self
    have hlater : ∀ key ∈ (d.insert item.path content).keys, key ∈ names :=
      keys_insert_subset hkeys hpath
    have hrest := ih (fun other hother => hfiles other (List.mem_cons_of_mem _ hother)) hlater
    have hcopied : copied assets (item :: rest) d = copied assets rest (d.insert item.path content) := by
      rw [copied, List.foldl_cons, hitem.asset]
      rfl
    have htotal : copyTotal assets (item :: rest) = copySteps content + copyTotal assets rest := by
      rw [copyTotal, List.map_cons, List.sum_cons, hitem.asset]
      rfl
    rw [hcopied, htotal]
    refine Takes.count (Takes.then (calm_mkParents hapart hkeys hpath)
      (Takes.then (calm_copyAndVerifyAsset hitem hapart hkeys hpath) hrest)) ?_
    rw [copySteps]
    omega

theorem lookup_copied (files : List ManifestFile) (path : String) :
    (copied assets files d).lookup path =
      if path ∈ files.map ManifestFile.path then some ((assets.lookup path).getD [])
      else d.lookup path := by
  induction files generalizing d with
  | nil => rfl
  | cons item rest ih =>
    have hcons : copied assets (item :: rest) d =
        copied assets rest (d.insert item.path ((assets.lookup item.path).getD [])) := rfl
    rw [hcons, ih, List.map_cons]
    by_cases hrest : path ∈ rest.map ManifestFile.path
    · rw [if_pos hrest, if_pos (List.mem_cons_of_mem _ hrest)]
    · rw [if_neg hrest]
      by_cases hitem : path = item.path
      · rw [if_pos (hitem ▸ List.mem_cons_self), hitem, AList.lookup_insert]
      · rw [if_neg (by simp [hitem, hrest]), AList.lookup_insert_ne hitem]

/-! ## Writing -/

theorem calm_ensureThere :
    Calmly assets 2 (ensurePrivateDirectory name) (s.setDir name d) (.ok ()) (s.setDir name d) := by
  have hthere : calm assets (.fileExists name) (s.setDir name d) = (.ok true, s.setDir name d) := by
    simp only [calm, lookup_setDir]
    rfl
  have hdirectory : calm assets (.isDirectory name) (s.setDir name d) = (.ok true, s.setDir name d) := by
    simp only [calm, lookup_setDir]
    rfl
  unfold ensurePrivateDirectory
  refine Takes.count (Takes.then (m := 1) (calm_op hthere) ?_) rfl
  rw [if_pos rfl]
  refine Takes.then (m := 0) (calm_op hdirectory) ?_
  rw [if_neg (by decide)]
  exact takes_pure ()

theorem calm_ensureNew (h : s.root.lookup name = none) :
    Calmly assets 2 (ensurePrivateDirectory name) s (.ok ()) (s.setDir name ∅) := by
  have hthere : calm assets (.fileExists name) s = (.ok false, s) := by
    simp only [calm, h]
    rfl
  have hmade : calm assets (.mkdirs name) s = (.ok true, s.setDir name ∅) := by
    simp only [calm, h]
  unfold ensurePrivateDirectory
  refine Takes.count (Takes.then (m := 1) (calm_op hthere) ?_) rfl
  rw [if_neg Bool.false_ne_true]
  refine Takes.then (m := 0) (calm_op hmade) ?_
  rw [if_neg (by decide)]
  exact takes_pure ()

/-- What an atomic write leaves. -/
def written (d : Dir) (target : String) (bytes : List UInt8) : Dir :=
  ((d.insert (tempName target) bytes).erase (tempName target)).insert target bytes

theorem calm_writeAtomic {names : List String} {target : String} {bytes : List UInt8} {most : Nat}
    (hapart : Apart names) (hkeys : ∀ key ∈ d.keys, key ∈ names) (htarget : target ∈ names)
    (htemp : tempName target ∈ names) (hbytes : bytes.length ≤ most) :
    Calmly assets 6 (writeAtomic name target bytes most) (s.setDir name d) (.ok ())
      (s.setDir name (written d target bytes)) := by
  have hreplace : calm assets (.replace name (tempName target) target)
      (s.setDir name (d.insert (tempName target) bytes)) =
        (.ok (), s.setDir name (written d target bytes)) := by
    have hfile : (s.setDir name (d.insert (tempName target) bytes)).root.file name (tempName target) =
        some bytes := (file_setDir _).trans (AList.lookup_insert _)
    have hlater : ∀ key ∈ (d.insert (tempName target) bytes).keys, key ∈ names :=
      keys_insert_subset hkeys htemp
    have habove := hapart.aboveFile hlater htarget
    simp only [calm, hfile, lookup_setDir, Option.getD_some, habove, change_setDir]
    rfl
  have happend : Calmly assets 1 (perform (.append name (tempName target) bytes))
      (s.setDir name (d.insert (tempName target) [])) (.ok ())
      (s.setDir name (d.insert (tempName target) ([] ++ bytes))) := calm_append
  rw [List.nil_append] at happend
  refine Takes.count (Takes.then (calm_failIf ?_) (Takes.then calm_ensureThere
    (Takes.then (calm_create hapart hkeys htemp) (Takes.then happend (Takes.then calm_sync
      (calm_op hreplace)))))) ?_
  · simpa using hbytes
  · omega

theorem lookup_written_target {target : String} {bytes : List UInt8} :
    (written d target bytes).lookup target = some bytes := AList.lookup_insert _

theorem lookup_written {target path : String} {bytes : List UInt8} (hpath : path ≠ target)
    (htemp : path ≠ tempName target) : (written d target bytes).lookup path = d.lookup path := by
  rw [written, AList.lookup_insert_ne hpath, AList.lookup_erase_ne htemp, AList.lookup_insert_ne htemp]

theorem mem_keys_written {target path : String} {bytes : List UInt8} :
    path ∈ (written d target bytes).keys ↔ path = target ∨ path ≠ tempName target ∧ path ∈ d.keys := by
  rw [← AList.mem_keys, ← AList.mem_keys, written, AList.mem_insert, AList.mem_erase, AList.mem_insert]
  constructor
  · rintro (htarget | ⟨htemp, hhere | hold⟩)
    · exact .inl htarget
    · exact absurd hhere htemp
    · exact .inr ⟨htemp, hold⟩
  · rintro (htarget | ⟨htemp, hold⟩)
    · exact .inl htarget
    · exact .inr ⟨htemp, .inr hold⟩

/-! ## Verification -/

variable {path : String} {bytes : List UInt8} {expected : Option String} {sha : String}
variable {manifest : BundleManifest}

theorem calm_readFileBounded {most : Nat} (hfile : s.root.file name path = some bytes)
    (hbytes : bytes.length ≤ most) :
    Calmly assets 3 (readFileBounded name path most) s (.ok bytes) s := by
  have hregular : calm assets (.isFile name path) s = (.ok true, s) := by
    simp only [calm, hfile]
    rfl
  have hlength : calm assets (.length name path) s = (.ok bytes.length, s) := by
    simp only [calm, hfile]
    rfl
  have hread : calm assets (.readFile name path) s = (.ok bytes, s) := by
    simp only [calm, hfile]
  have hbounded : readBounded bytes most = .ok bytes := if_neg (by omega)
  refine Takes.count (Takes.then (calm_op hregular) (Takes.then (calm_failIf rfl)
    (Takes.then (calm_op hlength) (Takes.then (calm_failIf ?_) (Takes.then (calm_op hread)
      (takes_resume hbounded)))))) rfl
  simpa using hbytes

theorem calm_verifyPayload (hdir : s.root.lookup name = some d) (files : List ManifestFile)
    (hdigested : ∀ item ∈ files, d.digested platform item = true) (hsized : d.Sized files)
    {total : Int} (hsmall : total + (files.map ManifestFile.size).sum ≤ 2 ^ 63 - 1)
    (hnonneg : ∀ item ∈ files, 0 ≤ item.size) :
    Calmly assets (3 * files.length) (verifyPayload platform name files total) s
      (.ok (.ok (total + (files.map ManifestFile.size).sum))) s := by
  induction files generalizing total with
  | nil =>
    rw [List.map_nil, List.sum_nil, Int.add_zero]
    exact takes_pure _
  | cons item rest ih =>
    obtain ⟨content, hcontent, hdigest⟩ :=
      (Option.any_eq_true _ _).mp (hdigested item List.mem_cons_self)
    have hsize := hsized item List.mem_cons_self content hcontent
    have hfile : s.root.file name item.path = some content := (file_eq hdir).trans hcontent
    have hregular : calm assets (.isFile name item.path) s = (.ok true, s) := by
      simp only [calm, hfile]
      rfl
    have hlength : calm assets (.length name item.path) s = (.ok content.length, s) := by
      simp only [calm, hfile]
      rfl
    have hread : calm assets (.readFile name item.path) s = (.ok content, s) := by
      simp only [calm, hfile]
    have hrest : 0 ≤ (rest.map ManifestFile.size).sum :=
      List.sum_nonneg (fun size hmem => by
        obtain ⟨other, hother, rfl⟩ := List.mem_map.mp hmem
        exact hnonneg other (List.mem_cons_of_mem _ hother))
    rw [List.map_cons, List.sum_cons] at hsmall ⊢
    have hadd : checkedAdd total content.length = .ok (total + content.length) :=
      checkedAdd_eq (by omega) (by omega)
    have hlater := ih (fun other hother => hdigested other (List.mem_cons_of_mem _ hother))
      (fun other hother => hsized other (List.mem_cons_of_mem _ hother))
      (show total + content.length + (rest.map ManifestFile.size).sum ≤ _ by omega)
      (fun other hother => hnonneg other (List.mem_cons_of_mem _ hother))
    have hsum : total + content.length + (rest.map ManifestFile.size).sum =
        total + (item.size + (rest.map ManifestFile.size).sum) := by omega
    rw [hsum] at hlater
    unfold verifyPayload
    refine Takes.count (Takes.then (calm_op hregular) ?_) (show 1 + (2 + 3 * rest.length) = 3 * (item :: rest).length by
      rw [List.length_cons]
      omega)
    rw [if_neg (by simp)]
    refine Takes.count (Takes.then (calm_op hlength) ?_) (show 1 + (1 + 3 * rest.length) = _ by omega)
    rw [if_neg (by simp [hsize])]
    refine Takes.then (calm_op hread) ?_
    rw [if_neg (by simp [hdigest])]
    refine Takes.count (Takes.then (takes_resume hadd) hlater) ?_
    omega

/-- A complete tree whose files are no larger than the installer reads. -/
structure Bounded (platform : Platform) (expected : Option String) (sha : String)
    (manifest : BundleManifest) (d : Dir) : Prop where
  verified : d.Verified platform expected true sha manifest
  sized : d.Sized manifest.files
  manifest : ∀ bytes, d.lookup manifestName = some bytes → bytes.length ≤ maxManifestBytes
  receipt : ∀ bytes, d.lookup receiptName = some bytes → bytes.length ≤ maxReceiptBytes

/-- The operations a verification takes. -/
def verifySize (manifest : BundleManifest) : Nat := 8 + 3 * manifest.files.length

theorem calm_verifyReceipt (hdir : s.root.lookup name = some d)
    (h : Bounded platform expected sha manifest d) :
    Calmly assets 3 (verifyReceipt platform name true sha manifest) s (.ok true) s := by
  have hreceipt := h.verified.receipt rfl
  obtain ⟨bytes, hbytes, hmatches⟩ := (Option.any_eq_true _ _).mp hreceipt
  cases hread : platform.readReceipt bytes with
  | error e =>
    rw [hread] at hmatches
    cases hmatches
  | ok receipt =>
    rw [hread] at hmatches
    have hfile : s.root.file name receiptName = some bytes := (file_eq hdir).trans hbytes
    unfold verifyReceipt
    rw [if_neg (by decide)]
    refine Takes.count (Takes.then (calm_readFileBounded hfile (h.receipt bytes hbytes))
      (Takes.then (m := 0) (takes_resume hread) ?_)) rfl
    · rw [show receipt.matches sha manifest = true from hmatches]
      exact takes_pure true

/-- **A tree whose payload is right** passes if it has the files it should have. -/
theorem calm_verifyTo {requireReceipt : Bool} {wanted : Option String} {steps : Nat}
    (hdir : s.root.lookup name = some d) (h : Bounded platform expected sha manifest d)
    (hwanted : wanted.all (constantEquals sha) = true)
    (hreceipt : Calmly assets steps (verifyReceipt platform name requireReceipt sha manifest) s
      (.ok true) s) :
    Calmly assets (steps + (5 + 3 * manifest.files.length))
      (verifyInstalled platform name wanted requireReceipt) s
      (.ok (if samePaths d.keys (manifest.expectedPaths requireReceipt) = true then Verification.ok
        else .fail "unexpected_or_missing_files")) s := by
  obtain ⟨bytes, hbytes, hparse, rfl⟩ : ∃ bytes, d.lookup manifestName = some bytes ∧
      BundleManifest.parse platform bytes = .ok manifest ∧ platform.sha256 bytes = sha := by
    have hread := h.verified.read
    unfold Dir.manifest at hread
    split at hread
    · cases hread
    rename_i bytes hbytes
    split at hread
    · cases hread
    rename_i parsed hparse
    cases hread
    exact ⟨bytes, hbytes, hparse, rfl⟩
  obtain ⟨root, items, -, hroot, hitems, hsum, -, -, hmanifest⟩ := parse_ok hparse
  have hsizes : (manifest.files.map ManifestFile.size).sum = manifest.totalBytes := by
    rw [hmanifest, List.map_map, ← hsum]
    rfl
  have hnonneg : ∀ item ∈ manifest.files, 0 ≤ item.size := by
    intro item hitem
    rw [hmanifest] at hitem
    obtain ⟨json, hjson, rfl⟩ := List.mem_map.mp hitem
    exact (hitems json hjson).size.1
  have htotal : manifest.totalBytes ≤ maxTotalBytes := by
    rw [hmanifest]
    exact hroot.total.2
  have hmost : maxTotalBytes = 1024 * 1024 * 1024 := rfl
  have hthere : calm assets (.isDirectory name) s = (.ok true, s) := by
    simp only [calm, hdir]
    rfl
  have hwalk : calm assets (.walk name) s = (.ok d.keys, s) := by
    simp only [calm, hdir]
  have hsmall : 0 + (manifest.files.map ManifestFile.size).sum ≤ 2 ^ 63 - 1 := by omega
  have hpayload : Calmly assets _ (verifyPayload platform name manifest.files 0) s _ s :=
    calm_verifyPayload hdir manifest.files h.verified.payload h.sized hsmall hnonneg
  rw [Int.zero_add, hsizes] at hpayload
  have hfile : s.root.file name manifestName = some bytes := (file_eq hdir).trans hbytes
  have hsteps : Calmly assets (steps + (5 + 3 * manifest.files.length))
      (verifySteps platform name wanted requireReceipt) s
      (.ok (if samePaths d.keys (manifest.expectedPaths requireReceipt) = true then Verification.ok
        else .fail "unexpected_or_missing_files")) s := by
    unfold verifySteps
    refine Takes.count (Takes.then (m := 4 + steps + 3 * manifest.files.length) (calm_op hthere) ?_)
      (by omega)
    rw [if_neg (by decide)]
    refine Takes.count (Takes.then (m := 1 + steps + 3 * manifest.files.length)
      (calm_readFileBounded hfile (h.manifest bytes hbytes)) ?_) (by omega)
    rw [if_neg (by simp [hwanted])]
    refine Takes.count (Takes.then (takes_resume hparse) (Takes.then
      (m := 1 + 3 * manifest.files.length) hreceipt ?_)) (by omega)
    rw [if_neg (by decide)]
    refine Takes.count (Takes.then hpayload (m := 1) ?_) (by omega)
    dsimp only
    rw [if_neg (by simp)]
    refine Takes.count (Takes.then (calm_op hwalk) (m := 0) ?_) (by omega)
    cases samePaths d.keys (manifest.expectedPaths requireReceipt) with
    | true => exact takes_pure _
    | false => exact takes_pure _
  unfold verifyInstalled
  exact Takes.count (Takes.then (m := 0) hsteps.settle (takes_pure _)) rfl

/-- **A complete tree passes.** -/
theorem calm_verifyInstalled (hdir : s.root.lookup name = some d)
    (h : Bounded platform expected sha manifest d) :
    Calmly assets (verifySize manifest) (verifyInstalled platform name expected true) s
      (.ok Verification.ok) s := by
  have hpass : Calmly assets _ (verifyInstalled platform name expected true) s _ s :=
    calm_verifyTo hdir h h.verified.agrees (calm_verifyReceipt hdir h)
  rw [if_pos h.verified.paths] at hpass
  refine hpass.count ?_
  rw [verifySize]
  omega

/-- Without a receipt it does not. -/
theorem calm_verifyBare (hdir : s.root.lookup name = some d)
    (h : Bounded platform expected sha manifest d) :
    Calmly assets (5 + 3 * manifest.files.length) (verifyInstalled platform name none false) s
      (.ok (.fail "unexpected_or_missing_files")) s := by
  have hbare : Calmly assets 0 (verifyReceipt platform name false sha manifest) s (.ok true) s :=
    takes_pure true
  have hextra : ¬ samePaths d.keys (manifest.expectedPaths false) = true := by
    intro hsame
    have hcomplete : d.complete platform none = true :=
      Dir.complete_none (Dir.complete_iff.mpr ⟨sha, manifest, h.verified, h.sized⟩)
    have hpassed : d.Verified platform none false sha manifest :=
      ⟨h.verified.read, rfl, nofun, h.verified.payload, hsame⟩
    exact Dir.not_verified_of_complete hcomplete hpassed
  have hfails : Calmly assets _ (verifyInstalled platform name none false) s _ s :=
    calm_verifyTo hdir h rfl hbare
  rw [if_neg hextra] at hfails
  exact hfails.count (by omega)

/-- The tree of another bundle. -/
theorem calm_verifyOther {requireReceipt : Bool} {wanted : String}
    (hfile : s.root.file name manifestName = some bytes) (hbytes : bytes.length ≤ maxManifestBytes)
    (hother : constantEquals (platform.sha256 bytes) wanted = false) :
    Calmly assets 4 (verifyInstalled platform name (some wanted) requireReceipt) s
      (.ok (.fail "manifest_sha_mismatch")) s := by
  obtain ⟨dir, hdir, -⟩ := dir_of_file hfile
  have hthere : calm assets (.isDirectory name) s = (.ok true, s) := by
    simp only [calm, hdir]
    rfl
  have hsteps : Calmly assets 4 (verifySteps platform name (some wanted) requireReceipt) s
      (.ok (.fail "manifest_sha_mismatch")) s := by
    unfold verifySteps
    refine Takes.count (Takes.then (m := 3) (calm_op hthere) ?_) rfl
    rw [if_neg (by decide)]
    refine Takes.count (Takes.then (m := 0) (calm_readFileBounded hfile hbytes) ?_) rfl
    rw [if_pos (by simp [hother])]
    exact takes_pure _
  unfold verifyInstalled
  exact Takes.count (Takes.then (m := 0) hsteps.settle (takes_pure _)) rfl

/-! ## Deletion -/

theorem calm_deleteFile {path : String} (hdir : s.root.lookup name = some d) :
    Calmly assets 1 (perform (.deleteFile name path)) s (.ok ()) (s.setDir name (d.erase path)) := by
  refine calm_op ?_
  simp only [calm, Store.change, hdir]

/-- The files go, one after the other. -/
theorem calm_deleteFiles (paths : List String) (hdir : s.root.lookup name = some d) :
    ∃ t, Calmly assets paths.length (deleteFiles name paths) s (.ok ()) t ∧
      t.root.lookup name = some (paths.foldl (fun (d : Dir) path => d.erase path) d) ∧
      ∀ other, other ≠ name → t.root.lookup other = s.root.lookup other := by
  induction paths generalizing s d with
  | nil => exact ⟨s, takes_pure (), hdir, fun _ _ => rfl⟩
  | cons path rest ih =>
    obtain ⟨t, hrest, hleft, helse⟩ := ih (s := s.setDir name (d.erase path)) lookup_setDir
    refine ⟨t, Takes.count (Takes.then (calm_deleteFile hdir) hrest) ?_, hleft, fun other hother => ?_⟩
    · rw [List.length_cons, Nat.add_comm]
    · exact (helse other hother).trans (AList.lookup_insert_ne hother)

theorem mem_keys_erased {path : String} (paths : List String) :
    path ∈ (paths.foldl (fun (d : Dir) path => d.erase path) d).keys ↔
      path ∈ d.keys ∧ path ∉ paths := by
  induction paths generalizing d with
  | nil => simp
  | cons other rest ih =>
    rw [List.foldl_cons, ih, ← AList.mem_keys, AList.mem_erase, AList.mem_keys, List.mem_cons, not_or]
    constructor
    · rintro ⟨⟨hne, hmem⟩, hrest⟩
      exact ⟨hmem, hne, hrest⟩
    · rintro ⟨hmem, hne, hrest⟩
      exact ⟨⟨hne, hmem⟩, hrest⟩

/-- **A directory goes**, with all that is in it. -/
theorem calm_deleteTree (hdir : s.root.lookup name = some d) :
    ∃ t, Calmly assets (3 + d.keys.length) (deleteTree name) s (.ok ()) t ∧
      t.root.lookup name = none ∧ ∀ other, other ≠ name → t.root.lookup other = s.root.lookup other := by
  have hthere : calm assets (.fileExists name) s = (.ok true, s) := by
    simp only [calm, hdir]
    rfl
  have hwalk : calm assets (.walk name) s = (.ok d.keys, s) := by
    simp only [calm, hdir]
  obtain ⟨t, hfiles, hleft, helse⟩ :
      ∃ t, Calmly assets _ (deleteFiles name (deletionOrder d.keys)) s _ t ∧ _ :=
    calm_deleteFiles _ hdir
  have hempty : ((t.root.lookup name).getD ∅).keys = [] := by
    rw [hleft, Option.getD_some, List.eq_nil_iff_forall_not_mem]
    intro path hpath
    obtain ⟨hmem, hnot⟩ := (mem_keys_erased _).mp hpath
    rw [deletionOrder, List.mem_insertionSort] at hnot
    exact hnot hmem
  have hdirectory : calm assets (.deleteDirectory name) t =
      (.ok (), { t with root := t.root.erase name }) := by
    simp only [calm, hempty, if_true]
  have hlength : (deletionOrder d.keys).length = d.keys.length := List.length_insertionSort _ _
  rw [hlength] at hfiles
  refine ⟨{ t with root := t.root.erase name }, ?_, AList.lookup_erase _ _, fun other hother => ?_⟩
  · unfold deleteTree
    refine Takes.count (Takes.then (m := 2 + d.keys.length) (calm_op hthere) ?_) (by omega)
    rw [if_neg (by decide)]
    refine Takes.count (Takes.then (calm_op hwalk) (Takes.then hfiles (calm_op hdirectory))) (by omega)
  · exact (AList.lookup_erase_ne hother).trans (helse other hother)

/-! ## The call -/

theorem calm_missing {requireReceipt : Bool} (h : s.root.lookup name = none) :
    Calmly assets 1 (verifyInstalled platform name expected requireReceipt) s
      (.ok (.fail "root_missing_or_symlink")) s := by
  have hgone : calm assets (.isDirectory name) s = (.ok false, s) := by
    simp only [calm, h]
    rfl
  have hsteps : Calmly assets 1 (verifySteps platform name expected requireReceipt) s
      (.ok (.fail "root_missing_or_symlink")) s := by
    unfold verifySteps
    refine Takes.then (m := 0) (calm_op hgone) ?_
    rw [if_pos (by decide)]
    exact takes_pure _
  exact Takes.then (m := 0) hsteps.settle (takes_pure _)

theorem calm_deleteNothing (h : s.root.lookup name = none) :
    Calmly assets 1 (deleteTree name) s (.ok ()) s := by
  have hgone : calm assets (.fileExists name) s = (.ok false, s) := by
    simp only [calm, h]
    rfl
  unfold deleteTree
  refine Takes.then (m := 0) (calm_op hgone) ?_
  rw [if_pos (by decide)]
  exact takes_pure ()

theorem calm_move {source target : String} (hsource : s.root.lookup source = some d)
    (htarget : s.root.lookup target = none) :
    Calmly assets 3 (moveSameFilesystem source target) s (.ok ())
      { s with root := (s.root.erase source).insert target d } := by
  have hhere : calm assets (.fileExists source) s = (.ok true, s) := by
    simp only [calm, hsource]
    rfl
  have hgone : calm assets (.fileExists target) s = (.ok false, s) := by
    simp only [calm, htarget]
    rfl
  have hmove : calm assets (.rename source target) s =
      (.ok (), { s with root := (s.root.erase source).insert target d }) := by
    simp only [calm, hsource, htarget]
    rfl
  exact Takes.count (Takes.then (calm_op hhere) (Takes.then (calm_failIf rfl)
    (Takes.then (calm_op hgone) (Takes.then (calm_failIf rfl) (calm_op hmove))))) rfl

/-- The names in the staging directory, at some time or other. -/
def stagedNames (manifest : BundleManifest) : List String :=
  [manifestName, tempName manifestName, receiptName, tempName receiptName] ++
    manifest.files.map ManifestFile.path

/-- **A bundle that is well formed**: it has the files of its manifest, no name in the way of another,
    and the receipt for it is read back. -/
structure Installable (platform : Platform) (assets : Dir) (bytes : List UInt8)
    (manifest : BundleManifest) : Prop where
  asset : assets.lookup manifestName = some bytes
  small : bytes.length ≤ maxManifestBytes
  parsed : BundleManifest.parse platform bytes = .ok manifest
  supplied : ∀ item ∈ manifest.files, ∃ content, Supplied platform assets item content
  apart : Apart (stagedNames manifest)
  manifestTemp : tempName manifestName ∉ manifest.files.map ManifestFile.path
  receiptTemp : tempName receiptName ∉ manifest.files.map ManifestFile.path
  receipt : ∃ receipt, platform.readReceipt (buildReceipt platform manifest (platform.sha256 bytes)) =
    .ok receipt ∧ receipt.matches (platform.sha256 bytes) manifest = true
  receiptSmall : (buildReceipt platform manifest (platform.sha256 bytes)).length ≤ maxReceiptBytes

/-- The tree that the staging directory ends up with. -/
def stagedTree (platform : Platform) (assets : Dir) (bytes : List UInt8) (manifest : BundleManifest) :
    Dir :=
  written (written (copied assets manifest.files ∅) manifestName bytes) receiptName
    (buildReceipt platform manifest (platform.sha256 bytes))

section

variable {bytes : List UInt8}

theorem lookup_stagedTree (h : Installable platform assets bytes manifest) :
    (stagedTree platform assets bytes manifest).lookup manifestName = some bytes ∧
    (stagedTree platform assets bytes manifest).lookup receiptName =
      some (buildReceipt platform manifest (platform.sha256 bytes)) ∧
    ∀ item ∈ manifest.files,
      (stagedTree platform assets bytes manifest).lookup item.path = assets.lookup item.path := by
  have hwell := parse_wellFormed h.parsed
  refine ⟨?_, lookup_written_target, fun item hitem => ?_⟩
  · rw [stagedTree, lookup_written (by decide) (by decide), lookup_written_target]
  · have hmem : item.path ∈ manifest.files.map ManifestFile.path := List.mem_map_of_mem hitem
    obtain ⟨hmanifest, hreceipt⟩ := hwell.unreserved item hitem
    obtain ⟨content, hcontent⟩ := h.supplied item hitem
    rw [stagedTree, lookup_written hreceipt (fun heq => h.receiptTemp (heq ▸ hmem)),
      lookup_written hmanifest (fun heq => h.manifestTemp (heq ▸ hmem)), lookup_copied, if_pos hmem,
      hcontent.asset]
    rfl

theorem keys_stagedTree (h : Installable platform assets bytes manifest) (path : String) :
    path ∈ (stagedTree platform assets bytes manifest).keys ↔ path ∈ manifest.expectedPaths true := by
  have hcopied : path ∈ (copied assets manifest.files ∅).keys ↔
      path ∈ manifest.files.map ManifestFile.path := by
    rw [← AList.mem_keys, ← AList.lookup_isSome, lookup_copied]
    split
    · rename_i hmem
      simp [hmem]
    · rename_i hnot
      simp only [hnot, iff_false]
      exact Bool.false_ne_true
  have hreserved : path ∈ manifest.files.map ManifestFile.path →
      path ≠ tempName manifestName ∧ path ≠ tempName receiptName :=
    fun hmem => ⟨fun heq => h.manifestTemp (heq ▸ hmem), fun heq => h.receiptTemp (heq ▸ hmem)⟩
  rw [stagedTree, mem_keys_written, mem_keys_written, hcopied, BundleManifest.expectedPaths]
  simp only [if_true, List.mem_cons, List.mem_append, List.not_mem_nil, or_false]
  constructor
  · rintro (hreceipt | ⟨-, hmanifest | ⟨-, hfile⟩⟩)
    · exact .inr (.inl hreceipt)
    · exact .inl hmanifest
    · exact .inr (.inr hfile)
  · rintro (rfl | hreceipt | hfile)
    · exact .inr ⟨by decide, .inl rfl⟩
    · exact .inl hreceipt
    · exact .inr ⟨(hreserved hfile).2, .inr ⟨(hreserved hfile).1, hfile⟩⟩

theorem length_keys_stagedTree (h : Installable platform assets bytes manifest) :
    (stagedTree platform assets bytes manifest).keys.length = 2 + manifest.files.length := by
  have hwell := parse_wellFormed h.parsed
  have hpaths : (manifest.expectedPaths true).Nodup := by
    have hunreserved : ∀ path ∈ manifest.files.map ManifestFile.path,
        path ≠ manifestName ∧ path ≠ receiptName := by
      intro path hpath
      obtain ⟨item, hitem, rfl⟩ := List.mem_map.mp hpath
      exact hwell.unreserved item hitem
    refine List.nodup_cons.mpr ⟨?_, List.nodup_cons.mpr ⟨?_, hwell.nodup⟩⟩
    · intro hmem
      rcases List.mem_cons.mp hmem with heq | hmem
      · exact absurd heq (by decide)
      · exact (hunreserved _ hmem).1 rfl
    · exact fun hmem => (hunreserved _ hmem).2 rfl
  have hperm : (stagedTree platform assets bytes manifest).keys.Perm (manifest.expectedPaths true) :=
    (List.perm_ext_iff_of_nodup (AList.keys_nodup _) hpaths).mpr (keys_stagedTree h)
  rw [hperm.length_eq]
  simp only [BundleManifest.expectedPaths, if_true, List.length_cons, List.length_append,
    List.length_nil, List.length_map]
  omega

/-- The staged tree is complete. -/
theorem bounded_stagedTree (h : Installable platform assets bytes manifest) :
    Bounded platform (some (platform.sha256 bytes)) (platform.sha256 bytes) manifest
      (stagedTree platform assets bytes manifest) := by
  obtain ⟨hmanifest, hreceipt, hfiles⟩ := lookup_stagedTree h
  refine ⟨⟨Dir.manifest_of_read hmanifest h.parsed, ?_, fun _ => ?_, fun item hitem => ?_, ?_⟩,
    fun item hitem content hcontent => ?_, fun read hread => ?_, fun read hread => ?_⟩
  · simp [constantEquals]
  · obtain ⟨receipt, hread, hmatches⟩ := h.receipt
    rw [Dir.receipted, hreceipt, Option.any_some, hread]
    exact hmatches
  · obtain ⟨content, hcontent⟩ := h.supplied item hitem
    rw [Dir.digested, hfiles item hitem, hcontent.asset]
    exact hcontent.digest
  · simp only [samePaths, Bool.and_eq_true, List.all_eq_true, decide_eq_true_eq]
    exact ⟨fun path => (keys_stagedTree h path).mp, fun path => (keys_stagedTree h path).mpr⟩
  · obtain ⟨supplied, hsupplied⟩ := h.supplied item hitem
    rw [hfiles item hitem, hsupplied.asset] at hcontent
    cases hcontent
    exact hsupplied.size
  · rw [hmanifest] at hread
    cases hread
    exact h.small
  · rw [hreceipt] at hread
    cases hread
    exact h.receiptSmall

/-! ### Staging and committing -/

theorem calm_stageBundle (h : Installable platform assets bytes manifest) :
    Calmly assets (copyTotal assets manifest.files + (12 + verifySize manifest))
      (stageBundle platform ⟨manifest, bytes, platform.sha256 bytes⟩ name) (s.setDir name ∅) (.ok ())
      (s.setDir name (stagedTree platform assets bytes manifest)) := by
  have hname : ∀ name ∈ [manifestName, tempName manifestName, receiptName, tempName receiptName],
      name ∈ stagedNames manifest := fun name hname => List.mem_append_left _ hname
  have hempty : ∀ key ∈ (∅ : Dir).keys, key ∈ stagedNames manifest := nofun
  have hcopied : ∀ key ∈ (copied assets manifest.files ∅).keys, key ∈ stagedNames manifest := by
    intro key hkey
    rw [← AList.mem_keys, ← AList.lookup_isSome, lookup_copied] at hkey
    split at hkey
    · rename_i hmem
      exact List.mem_append_right _ hmem
    · cases hkey
  have hwritten : ∀ key ∈ (written (copied assets manifest.files ∅) manifestName bytes).keys,
      key ∈ stagedNames manifest := by
    intro key hkey
    rcases mem_keys_written.mp hkey with rfl | ⟨-, hold⟩
    · exact hname _ (by simp)
    · exact hcopied key hold
  have hcopy : Calmly assets _ (copyAssets platform name manifest.files) (s.setDir name ∅) _ _ :=
    calm_copyAssets h.apart manifest.files (fun item hitem =>
      ⟨List.mem_append_right _ (List.mem_map_of_mem hitem), h.supplied item hitem⟩) hempty
  have hmanifest : Calmly assets 6 (writeAtomic name manifestName bytes maxManifestBytes)
      (s.setDir name _) _ _ :=
    calm_writeAtomic h.apart hcopied (hname _ (by simp)) (hname _ (by simp)) h.small
  have hreceipt : Calmly assets 6 (writeAtomic name receiptName _ maxReceiptBytes)
      (s.setDir name _) _ _ :=
    calm_writeAtomic h.apart hwritten (hname _ (by simp)) (hname _ (by simp)) h.receiptSmall
  unfold stageBundle
  refine Takes.count (Takes.then hcopy (Takes.then hmanifest (Takes.then hreceipt
    (Takes.then (calm_verifyInstalled lookup_setDir (bounded_stagedTree h))
      (calm_failIf rfl))))) ?_
  omega

theorem calm_commitStage {stage : String} (hcurrent : s.root.lookup currentName = none)
    (hprevious : s.root.lookup previousName = none) (hdir : s.root.lookup stage = some d) :
    Calmly assets 5 (commitStage stage) s (.ok ())
      { s with root := (s.root.erase stage).insert currentName d } := by
  have hgone : calm assets (.fileExists currentName) s = (.ok false, s) := by
    simp only [calm, hcurrent]
    rfl
  have hroom : Calmly assets 2 makeRoom s (.ok ()) s := by
    unfold makeRoom
    refine Takes.then (m := 1) (calm_deleteNothing hprevious) ?_
    refine Takes.then (m := 0) (calm_op hgone) ?_
    rw [if_neg (by decide)]
    exact takes_pure ()
  unfold commitStage
  exact Takes.then (m := 3) hroom (Takes.then (m := 0) (calm_move hdir hcurrent).settle
    (takes_pure ()))

/-- Where the stage of a bundle becomes the current directory of an empty runtime root. -/
def installedRoot (stage : String) (tree : Dir) : Root :=
  (((∅ : Root).insert stage tree).erase stage).insert currentName tree

theorem lookup_installedRoot {stage : String} :
    (installedRoot stage d).lookup currentName = some d := AList.lookup_insert _

theorem keys_installedRoot {stage : String} : (installedRoot stage d).keys = [currentName] := by
  rw [installedRoot, AList.keys_insert, AList.keys_erase, AList.keys_insert]
  simp

theorem lookup_installedRoot_previous {stage : String} (hstage : isStage stage = true) :
    (installedRoot stage d).lookup previousName = none := by
  rw [installedRoot, AList.lookup_insert_ne current_ne_previous.symm,
    AList.lookup_erase_ne (stage_ne hstage).2, AList.lookup_insert_ne (stage_ne hstage).2]
  rfl

theorem calm_stageAndCommit {stage : String} (h : Installable platform assets bytes manifest)
    (hstage : isStage stage = true) :
    Calmly assets (17 + copyTotal assets manifest.files + verifySize manifest)
      (do
        stageBundle platform ⟨manifest, bytes, platform.sha256 bytes⟩ stage
        commitStage stage)
      ((⟨∅, false⟩ : Store).setDir stage ∅) (.ok ())
      ⟨installedRoot stage (stagedTree platform assets bytes manifest), false⟩ := by
  obtain ⟨hcurrent, hprevious⟩ := stage_ne hstage
  have hcommit : Calmly assets 5 (commitStage stage)
      ((⟨∅, false⟩ : Store).setDir stage (stagedTree platform assets bytes manifest)) _ _ :=
    calm_commitStage ((AList.lookup_insert_ne hcurrent).trans rfl)
      ((AList.lookup_insert_ne hprevious).trans rfl) lookup_setDir
  refine Takes.count (Takes.then (calm_stageBundle h) hcommit) ?_
  omega

theorem calm_finishInstall {stage : String} (hstage : isStage stage = true)
    (h : Bounded platform (some sha) sha manifest d) :
    Calmly assets (verifySize manifest + 1) (finishInstall platform ⟨manifest, bytes, sha⟩)
      ⟨installedRoot stage d, false⟩ (.ok (.installed currentName manifest sha))
      ⟨installedRoot stage d, false⟩ := by
  unfold finishInstall
  refine Takes.then (m := 1) (calm_verifyInstalled lookup_installedRoot h) ?_
  rw [if_pos (show Verification.ok.valid = true from rfl)]
  exact Takes.then (m := 0) (calm_deleteNothing (lookup_installedRoot_previous hstage))
    (takes_pure _)

theorem calm_installRecovered (h : Installable platform assets bytes manifest) :
    Calmly assets (22 + copyTotal assets manifest.files + 2 * verifySize manifest)
      (installRecovered platform ⟨manifest, bytes, platform.sha256 bytes⟩) ⟨∅, false⟩
      (.ok (.installed currentName manifest (platform.sha256 bytes)))
      ⟨installedRoot (stageName manifest.treeSha256) (stagedTree platform assets bytes manifest),
        false⟩ := by
  have hstage : isStage (stageName manifest.treeSha256) = true := isStage_stageName _
  have hfinish : Calmly assets _ (finishInstall platform ⟨manifest, bytes, platform.sha256 bytes⟩)
      _ _ _ := calm_finishInstall hstage (bounded_stagedTree h)
  have hstaged := (calm_stageAndCommit h hstage).settle
  unfold installRecovered
  dsimp only
  generalize stageName manifest.treeSha256 = stage at hstage hfinish hstaged ⊢
  generalize stagedTree platform assets bytes manifest = tree at hfinish hstaged ⊢
  refine Takes.count (Takes.then (m := 21 + copyTotal assets manifest.files + 2 * verifySize manifest)
    (calm_missing rfl) ?_) (by omega)
  rw [if_neg (by decide)]
  refine Takes.count (Takes.then (calm_deleteNothing rfl) (Takes.then (calm_ensureNew rfl)
    (Takes.then hstaged hfinish))) (by omega)

/-- What a first call takes. -/
def firstSteps (assets : Dir) (manifest : BundleManifest) : Nat :=
  26 + copyTotal assets manifest.files + 2 * verifySize manifest

/-- What every call begins with. -/
theorem calm_opening (h : Installable platform assets bytes manifest) :
    Calmly assets 1 (settle (readAssetBounded manifestName maxManifestBytes)) s (.ok (.ok bytes)) s := by
  have hopen : calm assets (.openAsset manifestName) s = (.ok bytes, s) := by
    simp only [calm, h.asset]
  have hbytes : readBounded bytes maxManifestBytes = .ok bytes := if_neg (by
    have hsmall := h.small
    omega)
  exact Takes.settle (Takes.then (m := 0) (calm_op hopen) (takes_resume hbytes))

/-- There is nothing to recover. -/
theorem calm_recoverNothing (h : s.root.lookup previousName = none) :
    Calmly assets 1 (recoverPreviousIfNeeded platform) s (.ok ()) s := by
  have hgone : calm assets (.fileExists previousName) s = (.ok false, s) := by
    simp only [calm, h]
    rfl
  unfold recoverPreviousIfNeeded
  refine Takes.then (m := 0) (calm_op hgone) ?_
  rw [if_pos (by decide)]
  exact takes_pure ()

/-- There is nothing to clean up. -/
theorem calm_cleanNothing (h : s.root.keys.filter isStage = []) :
    Calmly assets 1 cleanupStaleStages s (.ok ()) s := by
  have hlist : calm assets .listFiles s = (.ok (some s.root.keys), s) := rfl
  unfold cleanupStaleStages
  refine Takes.then (m := 0) (calm_op hlist) ?_
  dsimp only
  rw [h]
  exact takes_pure ()

/-- **A first call installs the bundle.** -/
theorem calm_ensureInstalled (h : Installable platform assets bytes manifest) :
    Calmly assets (firstSteps assets manifest) (ensureInstalled platform) ⟨∅, false⟩
      (.ok (.installed currentName manifest (platform.sha256 bytes)))
      ⟨installedRoot (stageName manifest.treeSha256) (stagedTree platform assets bytes manifest),
        false⟩ := by
  have hlocked : Calmly assets (24 + copyTotal assets manifest.files + 2 * verifySize manifest)
      (ensureInstalledLocked platform ⟨manifest, bytes, platform.sha256 bytes⟩) ⟨∅, false⟩ _ _ :=
    Takes.count (Takes.then (calm_cleanNothing rfl) (Takes.then (calm_recoverNothing rfl)
      (calm_installRecovered h))) (by omega)
  unfold ensureInstalled
  refine Takes.count (Takes.then (calm_opening h) (Takes.then (takes_resume h.parsed)
    (Takes.then (calm_op rfl) hlocked))) ?_
  rw [firstSteps]
  omega

/-! ## Calls that crash -/

theorem cut_ensureInstalled {n : Nat} (h : Installable platform assets bytes manifest)
    (hlocked : Cut (exec assets) none n
      (ensureInstalledLocked platform ⟨manifest, bytes, platform.sha256 bytes⟩) s t) :
    Cut (exec assets) none (2 + n) (ensureInstalled platform) s t := by
  unfold ensureInstalled
  exact Cut.count (Takes.cut (calm_opening h) (Takes.cut (takes_resume h.parsed)
    (Takes.cut (calm_op rfl) hlocked))) (by omega)

/-- The current directory makes room. -/
theorem calm_makeRoom (hcurrent : s.root.lookup currentName = some d)
    (hprevious : s.root.lookup previousName = none) :
    Calmly assets 5 makeRoom s (.ok ())
      { s with root := (s.root.erase currentName).insert previousName d } := by
  have hthere : calm assets (.fileExists currentName) s = (.ok true, s) := by
    simp only [calm, hcurrent]
    rfl
  unfold makeRoom
  refine Takes.then (m := 4) (calm_deleteNothing hprevious) ?_
  refine Takes.then (m := 3) (calm_op hthere) ?_
  rw [if_pos rfl]
  exact calm_move hcurrent hprevious

/-- **An upgrade that crashes between its two renames**, after the staged tree has been looked at. -/
theorem cut_upgrade {old : List UInt8} (h : Installable platform assets bytes manifest)
    (hcurrent : s.root.lookup currentName = some d) (hprevious : s.root.lookup previousName = none)
    (hclean : ∀ key ∈ s.root.keys, isStage key = false)
    (hold : d.lookup manifestName = some old) (hsmall : old.length ≤ maxManifestBytes)
    (hother : constantEquals (platform.sha256 old) (platform.sha256 bytes) = false) :
    Cut (exec assets) none (29 + copyTotal assets manifest.files + verifySize manifest)
      (ensureInstalled platform) s
      { s with root := ((s.root.insert (stageName manifest.treeSha256)
          (stagedTree platform assets bytes manifest)).erase currentName).insert previousName d } := by
  have hstage : isStage (stageName manifest.treeSha256) = true := isStage_stageName _
  have hstaged : Calmly assets _ (stageBundle platform ⟨manifest, bytes, platform.sha256 bytes⟩
      (stageName manifest.treeSha256)) (s.setDir (stageName manifest.treeSha256) ∅) _ _ :=
    calm_stageBundle h
  have hnew : s.root.lookup (stageName manifest.treeSha256) = none := by
    rw [AList.lookup_eq_none]
    intro hmem
    rw [hclean _ (AList.mem_keys.mp hmem)] at hstage
    cases hstage
  have hother' : Calmly assets 4 (verifyInstalled platform currentName
      (some (platform.sha256 bytes)) true) s _ s :=
    calm_verifyOther ((file_eq hcurrent).trans hold) hsmall hother
  have hnone : s.root.keys.filter isStage = [] := by
    rw [List.filter_eq_nil_iff]
    intro key hkey
    rw [hclean key hkey]
    exact Bool.false_ne_true
  refine (cut_ensureInstalled (n := 27 + copyTotal assets manifest.files + verifySize manifest) h
    ?_).count (by omega)
  unfold ensureInstalledLocked
  refine (Takes.cut (calm_cleanNothing hnone) (Takes.cut
    (m := 25 + copyTotal assets manifest.files + verifySize manifest)
    (calm_recoverNothing hprevious) ?_)).count (by omega)
  unfold installRecovered
  dsimp only
  generalize stageName manifest.treeSha256 = stage at hstage hstaged hnew ⊢
  generalize stagedTree platform assets bytes manifest = tree at hstaged ⊢
  obtain ⟨hcurrent', hprevious'⟩ := stage_ne hstage
  refine (Takes.cut (m := 21 + copyTotal assets manifest.files + verifySize manifest) hother'
    ?_).count (by omega)
  rw [if_neg (by decide)]
  have hroom : Calmly assets 5 makeRoom (s.setDir stage tree) (.ok ())
      ⟨((s.root.insert stage tree).erase currentName).insert previousName d, s.hidden⟩ :=
    calm_makeRoom ((AList.lookup_insert_ne hcurrent').trans hcurrent)
      ((AList.lookup_insert_ne hprevious').trans hprevious)
  have hthere : calm assets (.fileExists stage)
      ⟨((s.root.insert stage tree).erase currentName).insert previousName d, s.hidden⟩ =
        (.ok true, ⟨((s.root.insert stage tree).erase currentName).insert previousName d, s.hidden⟩) := by
    have hlookup : AList.lookup stage (((s.root.insert stage tree).erase currentName).insert
        previousName d) = some tree := by
      rw [AList.lookup_insert_ne hprevious'.symm, AList.lookup_erase_ne hcurrent'.symm,
        AList.lookup_insert]
    simp only [calm, hlookup]
    rfl
  have hmove : Cut (exec assets) none 1 (moveSameFilesystem stage currentName)
      ⟨((s.root.insert stage tree).erase currentName).insert previousName d, s.hidden⟩ _ :=
    (Takes.cut (calm_op hthere) (Takes.cut (calm_failIf rfl) (Cut.first cut_attempt))).count rfl
  have hcommit : Cut (exec assets) none 6 (commitStage stage) (s.setDir stage tree)
      ⟨((s.root.insert stage tree).erase currentName).insert previousName d, s.hidden⟩ := by
    unfold commitStage
    exact (Takes.cut hroom (Cut.first hmove.settle)).count rfl
  exact (Takes.cut (calm_deleteNothing hnew) (Takes.cut (calm_ensureNew hnew)
    (Cut.first (Takes.cut hstaged hcommit).settle))).count (by omega)

/-- **A recovery that crashes** after it has deleted the first file of the previous directory, where the
    upgrade had crashed. -/
theorem cut_recovery {stage path next : String} {rest : List String} {e : Dir}
    (h : Installable platform assets bytes manifest) (hkeys : s.root.keys.filter isStage = [stage])
    (hstage : s.root.lookup stage = some e) (hcurrent : s.root.lookup currentName = none)
    (hprevious : s.root.lookup previousName = some d) {held : BundleManifest}
    (hd : Bounded platform expected sha held d) (horder : deletionOrder d.keys = path :: next :: rest) :
    ∃ t, Cut (exec assets) none (16 + e.keys.length + 3 * held.files.length)
        (ensureInstalled platform) s t ∧
      t.root.lookup currentName = none ∧ t.root.lookup previousName = some (d.erase path) := by
  have hname : isStage stage = true := by
    have hmem : stage ∈ s.root.keys.filter isStage := by
      rw [hkeys]
      exact List.mem_cons_self
    exact (List.mem_filter.mp hmem).2
  obtain ⟨hcurrent', hprevious'⟩ := stage_ne hname
  obtain ⟨u, hdeleted, -, helse⟩ : ∃ t, Calmly assets _ (deleteTree stage) s _ t ∧ _ :=
    calm_deleteTree hstage
  have huc : u.root.lookup currentName = none := (helse _ hcurrent').trans hcurrent
  have hup : u.root.lookup previousName = some d := (helse _ hprevious').trans hprevious
  have hclean : Calmly assets (4 + e.keys.length) cleanupStaleStages s (.ok ()) u := by
    have hlist : calm assets .listFiles s = (.ok (some s.root.keys), s) := rfl
    unfold cleanupStaleStages
    refine (Takes.then (m := 3 + e.keys.length) (calm_op hlist) ?_).count (by omega)
    dsimp only
    rw [hkeys]
    exact (Takes.then hdeleted (takes_pure ())).count (by omega)
  have hthere : calm assets (.fileExists previousName) u = (.ok true, u) := by
    simp only [calm, hup]
    rfl
  have hwalk : calm assets (.walk previousName) u = (.ok d.keys, u) := by
    simp only [calm, hup]
  have hdelete : Cut (exec assets) none 3 (deleteTree previousName) u
      (u.setDir previousName (d.erase path)) := by
    unfold deleteTree
    refine (Takes.cut (m := 2) (calm_op hthere) ?_).count rfl
    rw [if_neg (by decide)]
    refine (Takes.cut (m := 1) (calm_op hwalk) ?_).count rfl
    rw [horder]
    exact Cut.first ((Takes.cut (calm_deleteFile hup) (Cut.first cut_attempt)).count rfl)
  have hrecover : Cut (exec assets) none (10 + 3 * held.files.length) (recoverPreviousIfNeeded platform)
      u (u.setDir previousName (d.erase path)) := by
    unfold recoverPreviousIfNeeded
    refine (Takes.cut (m := 9 + 3 * held.files.length) (calm_op hthere) ?_).count (by omega)
    rw [if_neg (by decide)]
    refine (Takes.cut (m := 8 + 3 * held.files.length) (calm_missing huc) ?_).count (by omega)
    rw [if_neg (by decide)]
    refine (Takes.cut (m := 3) (calm_verifyBare hup hd) ?_).count (by omega)
    rw [if_pos (by decide)]
    exact hdelete
  refine ⟨u.setDir previousName (d.erase path), ?_, ?_, lookup_setDir⟩
  · refine (cut_ensureInstalled (n := 14 + e.keys.length + 3 * held.files.length) h ?_).count (by omega)
    exact (Takes.cut hclean (Cut.first hrecover)).count (by omega)
  · exact (AList.lookup_insert_ne current_ne_previous).trans huc

end

end VibeCoder.Installer
