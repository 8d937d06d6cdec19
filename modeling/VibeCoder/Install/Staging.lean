/-
  What a verification that passes has seen, and what staging builds.

  1. **Rules** — one operation, and one that only looks.

  2. **Verification** (`wp_verifyInstalled`) — whatever goes wrong with its reads, it says "valid"
     only of a tree with the files, the digests, the receipt and nothing else.

  3. **Staging** (`wp_stageBundle`) — it returns only when the staging directory holds a complete
     tree of the packaged bundle.  That no file differs in size comes from the copy loop, which counts
     what it writes (`wp_copyChunks`).
-/
import VibeCoder.Install.CompleteTree
import VibeCoder.Lib.Crash

namespace VibeCoder.Installer

open Resume

variable {platform : Platform} {assets : Dir} {J : Store → Prop}

/-! ## Rules -/

/-- One call, that only performs an operation in a state with `J`. -/
abbrev Watched (assets : Dir) (J : Store → Prop) :
    Setting Op (fun o => Except Throwable o.Val) Unit (Option Fault) Store :=
  Setting.watched (exec assets) (fun _ => True) J

/-- The program, from `s`, returns only with `Q`. -/
abbrev Gives (assets : Dir) {α : Type} (p : Program α) (Q : α → Store → Prop) (s : Store) : Prop :=
  Wp (Watched assets (fun _ => True)) () p Q (fun _ _ => True) s

section

variable {α β : Type} {Q : α → Store → Prop} {E : Throwable → Store → Prop} {s : Store}

theorem wp_op {o : Op} {Q : o.Val → Store → Prop} (hJ : J s)
    (h : ∀ fault, Post Q E (exec assets fault o s).1 (exec assets fault o s).2) :
    Wp (Watched assets J) () (perform o) Q E s := by
  refine wp_attempt hJ (fun fault _ t ht _ => ?_)
  cases ht
  exact h fault

theorem wp_failIf {refused : Bool} {error : Throwable} {Q : Unit → Store → Prop}
    (hok : refused = false → Q () s) (herror : E error s) :
    Wp (Watched assets J) () (failIf refused error) Q E s := by
  unfold failIf
  split
  · exact wp_throw herror
  · rename_i hrefused
    exact wp_pure (hok (Bool.eq_false_of_not_eq_true hrefused))

/-- An operation that leaves everything as it is. -/
def Op.Looks : Op → Prop
  | .openAsset _ | .isDirectory _ | .isFile _ _ | .length _ _ | .readFile _ _ | .walk _ => True
  | _ => False

theorem exec_looks {o : Op} (h : o.Looks) (fault : Option Fault) :
    (exec assets fault o s).2 = s := by
  cases o <;> first | exact h.elim | (cases fault <;> rfl)

theorem gives_look {o : Op} {Q : o.Val → Store → Prop} (h : o.Looks)
    (hok : ∀ fault a, (exec assets fault o s).1 = .ok a → Q a s) :
    Gives assets (perform o) Q s := by
  refine wp_op trivial (fun fault => ?_)
  rw [exec_looks h]
  cases hanswer : (exec assets fault o s).1 with
  | ok a => exact hok fault a hanswer
  | error e => trivial

theorem gives_op {o : Op} {Q : o.Val → Store → Prop}
    (hok : ∀ fault a, (exec assets fault o s).1 = .ok a → Q a (exec assets fault o s).2) :
    Gives assets (perform o) Q s := by
  refine wp_op trivial (fun fault => ?_)
  cases hanswer : (exec assets fault o s).1 with
  | ok a => exact hok fault a hanswer
  | error e => trivial

theorem gives_bind {p : Program β} {f : β → Program α} {R : β → Store → Prop}
    (hp : Gives assets p R s) (hf : ∀ b t, R b t → Gives assets (f b) Q t) :
    Gives assets (p >>= f) Q s :=
  wp_seq trivial hp (fun b t _ hb => hf b t hb) (fun _ _ _ _ => trivial)

theorem gives_resume {r : Except Throwable α} (h : ∀ a, r = .ok a → Q a s) :
    Gives assets (resume r) Q s := by
  refine wp_resume ?_
  cases r with
  | ok a => exact h a rfl
  | error e => trivial

theorem gives_failIf {refused : Bool} {error : Throwable} :
    Gives assets (failIf refused error) (fun _ t => t = s ∧ refused = false) s :=
  wp_failIf (fun h => ⟨rfl, h⟩) trivial

end

/-! ## What looking says -/

section

variable {s : Store} {fault : Option Fault} {name path : String}

theorem readFile_ok {bytes : List UInt8}
    (h : (exec assets fault (.readFile name path) s).1 = .ok bytes) :
    s.root.file name path = some bytes := by
  cases fault with
  | some fault => cases h
  | none =>
    rw [exec] at h
    dsimp only [calm] at h
    split at h
    · cases h
    · rename_i hfile
      cases h
      exact hfile

theorem walk_ok {paths : List String} (h : (exec assets fault (.walk name) s).1 = .ok paths) :
    ∃ dir, s.root.lookup name = some dir ∧ paths = dir.keys := by
  cases fault with
  | some fault => cases h
  | none =>
    rw [exec] at h
    dsimp only [calm] at h
    split at h
    · cases h
    · rename_i dir hdir
      cases h
      exact ⟨dir, hdir, rfl⟩

theorem file_eq {dir : Dir} (h : s.root.lookup name = some dir) :
    s.root.file name path = dir.lookup path := by
  unfold Root.file
  rw [h]
  rfl

end

/-! ## Verification -/

section

variable {s : Store} (name : String)

theorem gives_readFileBounded (path : String) (maxBytes : Nat) :
    Gives assets (readFileBounded name path maxBytes)
      (fun bytes t => t = s ∧ s.root.file name path = some bytes) s := by
  refine gives_bind (gives_look (Q := fun _ t => t = s) trivial (fun _ _ _ => rfl)) ?_
  rintro regular _ rfl
  refine gives_bind gives_failIf ?_
  rintro _ _ ⟨rfl, -⟩
  rename_i t
  refine gives_bind (gives_look (Q := fun _ u => u = t) trivial (fun _ _ _ => rfl)) ?_
  rintro length _ rfl
  refine gives_bind gives_failIf ?_
  rintro _ _ ⟨rfl, -⟩
  rename_i t
  refine gives_bind (gives_look (Q := fun bytes u => u = t ∧ t.root.file name path = some bytes)
    trivial (fun _ bytes h => ⟨rfl, readFile_ok h⟩)) ?_
  rintro bytes _ ⟨rfl, hfile⟩
  refine gives_resume (fun read hread => ?_)
  unfold readBounded at hread
  split at hread
  · cases hread
  · cases hread
    exact ⟨rfl, hfile⟩

/-- A file has the digest of the manifest. -/
def Digested (platform : Platform) (root : Root) (name : String) (item : ManifestFile) : Prop :=
  ∃ content, root.file name item.path = some content ∧
    constantEquals (platform.sha256 content) item.sha256 = true

theorem gives_verifyPayload (files : List ManifestFile) (totalBytes : Int) :
    Gives assets (verifyPayload platform name files totalBytes)
      (fun r t => t = s ∧ ∀ total, r = .ok total →
        ∀ item ∈ files, Digested platform s.root name item) s := by
  induction files generalizing totalBytes with
  | nil => exact wp_pure ⟨rfl, fun _ _ _ hitem => by cases hitem⟩
  | cons item rest ih =>
    have hstops : ∀ reason : String, Gives assets (pure (.error reason))
        (fun (r : Except String Int) t => t = s ∧ ∀ total, r = .ok total →
          ∀ item' ∈ item :: rest, Digested platform s.root name item') s :=
      fun reason => wp_pure ⟨rfl, fun _ h => by cases h⟩
    refine gives_bind (gives_look (Q := fun _ t => t = s) trivial (fun _ _ _ => rfl)) ?_
    rintro regular t rfl
    split
    · exact hstops _
    refine gives_bind (gives_look (Q := fun _ u => u = t) trivial (fun _ _ _ => rfl)) ?_
    rintro size t rfl
    split
    · exact hstops _
    refine gives_bind (gives_look (Q := fun content u => u = t ∧
      t.root.file name item.path = some content) trivial (fun _ _ h => ⟨rfl, readFile_ok h⟩)) ?_
    rintro content t ⟨rfl, hfile⟩
    split
    · exact hstops _
    rename_i hdigest
    refine gives_bind (gives_resume (Q := fun _ u => u = t) (fun _ _ => rfl)) ?_
    rintro total t rfl
    refine Wp.mono trivial (ih total) (fun r u _ h => ⟨h.1, fun total hr other hother => ?_⟩)
      (fun _ _ _ h => h)
    rcases List.mem_cons.mp hother with rfl | hrest
    · exact ⟨content, hfile, by simpa using hdigest⟩
    · exact h.2 total hr other hrest

theorem gives_verifyReceipt (requireReceipt : Bool) (sha : String) (manifest : BundleManifest) :
    Gives assets (verifyReceipt platform name requireReceipt sha manifest)
      (fun receipted t => t = s ∧ (receipted = true → requireReceipt = true →
        ∃ bytes receipt, s.root.file name receiptName = some bytes ∧
          platform.readReceipt bytes = .ok receipt ∧ receipt.matches sha manifest = true)) s := by
  unfold verifyReceipt
  split
  · rename_i hnone
    refine wp_pure ⟨rfl, fun _ hrequired => ?_⟩
    rw [hrequired] at hnone
    cases hnone
  · refine gives_bind (gives_readFileBounded name receiptName maxReceiptBytes) ?_
    rintro bytes t ⟨rfl, hfile⟩
    refine gives_bind (gives_resume (Q := fun receipt u => u = t ∧
      platform.readReceipt bytes = .ok receipt) (fun _ h => ⟨rfl, h⟩)) ?_
    rintro receipt t ⟨rfl, hread⟩
    exact wp_pure ⟨rfl, fun hmatches _ => ⟨bytes, receipt, hfile, hread, hmatches⟩⟩

variable (expected : Option String) (requireReceipt : Bool)

/-- A verification that passes has seen the tree. -/
def Seen (platform : Platform) (name : String) (expected : Option String) (requireReceipt : Bool)
    (root : Root) : Prop :=
  ∃ dir sha manifest, root.lookup name = some dir ∧
    dir.Verified platform expected requireReceipt sha manifest

theorem gives_verifySteps :
    Gives assets (verifySteps platform name expected requireReceipt)
      (fun v t => t = s ∧ (v.valid = true → Seen platform name expected requireReceipt s.root)) s := by
  have hfails : ∀ reason, Gives assets (pure (Verification.fail reason))
      (fun v t => t = s ∧ (v.valid = true → Seen platform name expected requireReceipt s.root)) s :=
    fun reason => wp_pure ⟨rfl, fun h => by cases h⟩
  unfold verifySteps
  refine gives_bind (gives_look (Q := fun _ t => t = s) trivial (fun _ _ _ => rfl)) ?_
  rintro directory t rfl
  split
  · exact hfails _
  refine gives_bind (gives_readFileBounded name manifestName maxManifestBytes) ?_
  rintro bytes t ⟨rfl, hbytes⟩
  dsimp only
  split
  · exact hfails _
  rename_i hexpected
  refine gives_bind (gives_resume (Q := fun manifest u => u = t ∧
    BundleManifest.parse platform bytes = .ok manifest) (fun _ h => ⟨rfl, h⟩)) ?_
  rintro manifest t ⟨rfl, hparsed⟩
  refine gives_bind (gives_verifyReceipt name requireReceipt (platform.sha256 bytes) manifest) ?_
  rintro receipted t ⟨rfl, hreceipt⟩
  split
  · exact hfails _
  rename_i hreceipted
  refine gives_bind (gives_verifyPayload name manifest.files 0) ?_
  rintro payload t ⟨rfl, hpayload⟩
  cases payload with
  | error reason => exact hfails _
  | ok totalBytes =>
    dsimp only
    split
    · exact hfails _
    refine gives_bind (gives_look (Q := fun paths u => u = t ∧
      ∃ dir, t.root.lookup name = some dir ∧ paths = dir.keys) trivial
      (fun _ _ h => ⟨rfl, walk_ok h⟩)) ?_
    rintro paths t ⟨rfl, dir, hdir, rfl⟩
    split
    · exact hfails _
    rename_i hpaths
    -- everything that was read is in this directory
    refine wp_pure ⟨rfl, fun _ => ⟨dir, platform.sha256 bytes, manifest, hdir, ?_⟩⟩
    rw [file_eq hdir] at hbytes
    refine ⟨Dir.manifest_of_read hbytes hparsed, by simpa using hexpected, fun hrequired => ?_,
      fun item hitem => ?_, by simpa using hpaths⟩
    · obtain ⟨receiptBytes, receipt, hfile, hread, hmatches⟩ :=
        hreceipt (by simpa using hreceipted) hrequired
      rw [file_eq hdir] at hfile
      unfold Dir.receipted
      rw [hfile, Option.any_some, hread]
      exact hmatches
    · obtain ⟨content, hfile, hdigest⟩ := hpayload totalBytes rfl item hitem
      rw [file_eq hdir] at hfile
      unfold Dir.digested
      rw [hfile]
      exact hdigest

/-! A verification only looks. -/

theorem only_failIf {P : Op → Prop} {refused : Bool} {error : Throwable} :
    Only P (failIf refused error) := by
  unfold failIf
  split
  · exact only_throw _
  · exact only_pure _

theorem only_readFileBounded (path : String) (maxBytes : Nat) :
    Only Op.Looks (readFileBounded name path maxBytes) := by
  refine only_bind (only_attempt trivial) (fun _ => only_bind only_failIf (fun _ => ?_))
  refine only_bind (only_attempt trivial) (fun _ => only_bind only_failIf (fun _ => ?_))
  exact only_bind (only_attempt trivial) (fun _ => only_resume _)

theorem only_verifyPayload (files : List ManifestFile) (totalBytes : Int) :
    Only Op.Looks (verifyPayload platform name files totalBytes) := by
  induction files generalizing totalBytes with
  | nil => exact only_pure _
  | cons item rest ih =>
    refine only_bind (only_attempt trivial) (fun _ => ?_)
    split
    · exact only_pure _
    refine only_bind (only_attempt trivial) (fun _ => ?_)
    split
    · exact only_pure _
    refine only_bind (only_attempt trivial) (fun _ => ?_)
    split
    · exact only_pure _
    exact only_bind (only_resume _) (fun _ => ih _)

theorem only_verifyReceipt (sha : String) (manifest : BundleManifest) :
    Only Op.Looks (verifyReceipt platform name requireReceipt sha manifest) := by
  unfold verifyReceipt
  split
  · exact only_pure _
  · refine only_bind (only_readFileBounded name _ _) (fun _ => ?_)
    exact only_bind (only_resume _) (fun _ => only_pure _)

theorem only_verifySteps :
    Only Op.Looks (verifySteps platform name expected requireReceipt) := by
  refine only_bind (only_attempt trivial) (fun _ => ?_)
  split
  · exact only_pure _
  refine only_bind (only_readFileBounded name _ _) (fun _ => ?_)
  dsimp only
  split
  · exact only_pure _
  refine only_bind (only_resume _) (fun _ => ?_)
  refine only_bind (only_verifyReceipt name requireReceipt _ _) (fun _ => ?_)
  split
  · exact only_pure _
  refine only_bind (only_verifyPayload name _ _) (fun payload => ?_)
  cases payload with
  | error reason => exact only_pure _
  | ok total =>
    dsimp only
    split
    · exact only_pure _
    refine only_bind (only_attempt trivial) (fun _ => ?_)
    split
    · exact only_pure _
    · exact only_pure _

/-- **Verification is sound**, whatever goes wrong with its reads. -/
theorem wp_verifyInstalled {E : Throwable → Store → Prop} (hJ : J s) :
    Wp (Watched assets J) () (verifyInstalled platform name expected requireReceipt)
      (fun v t => t = s ∧ (v.valid = true → Seen platform name expected requireReceipt s.root)) E s := by
  have hlooks : Wp (Watched assets J) () (verifySteps platform name expected requireReceipt)
      (fun _ t => t = s) (fun _ t => t = s) s := by
    refine wp_only (J := fun t => t = s) (fun o ho t ht => ?_)
      (only_verifySteps name expected requireReceipt) rfl
    subst ht
    refine ⟨hJ, fun fault _ u hu _ => ?_⟩
    rw [← hu]
    exact exec_looks ho fault
  have hsteps := wp_watch (gives_verifySteps name expected requireReceipt) hlooks
  refine wp_bind (wp_settle (Wp.mono trivial hsteps (fun v t _ h => ?_) (fun e t _ h => ?_)))
  · exact wp_pure h.1
  · exact wp_pure ⟨h.2, fun hvalid => by cases hvalid⟩

end

/-! ## Writing -/

section

variable {s : Store} {name : String}

theorem lookup_change (f : Dir → Dir) :
    (s.change name f).root.lookup name = (s.root.lookup name).map f := by
  unfold Store.change
  cases hdir : s.root.lookup name with
  | none => exact hdir
  | some dir => exact AList.lookup_insert _

theorem lookup_change_other {other : String} (hother : other ≠ name) (f : Dir → Dir) :
    (s.change name f).root.lookup other = s.root.lookup other := by
  unfold Store.change
  cases s.root.lookup name with
  | none => rfl
  | some dir => exact AList.lookup_insert_ne hother

theorem file_change {dir : Dir} (h : s.root.lookup name = some dir) (f : Dir → Dir) (path : String) :
    (s.change name f).root.file name path = (f dir).lookup path := by
  refine file_eq ?_
  rw [lookup_change, h]
  rfl

theorem dir_of_file {path : String} {bytes : List UInt8} (h : s.root.file name path = some bytes) :
    ∃ dir, s.root.lookup name = some dir ∧ dir.lookup path = some bytes :=
  Option.bind_eq_some_iff.mp h

/-- Only these files of the directory may differ. -/
def SameBut (name : String) (paths : List String) (s t : Store) : Prop :=
  ∀ path, path ∉ paths → t.root.file name path = s.root.file name path

theorem SameBut.refl {paths : List String} : SameBut name paths s s := fun _ _ => rfl

theorem SameBut.trans {paths : List String} {t u : Store} (h : SameBut name paths s t)
    (h' : SameBut name paths t u) : SameBut name paths s u :=
  fun path hpath => (h' path hpath).trans (h path hpath)

theorem SameBut.mono {paths more : List String} {t : Store} (h : SameBut name paths s t)
    (hmore : ∀ path, path ∈ paths → path ∈ more) : SameBut name more s t :=
  fun path hpath => h path (fun hin => hpath (hmore path hin))

theorem gives_create (path : String) :
    Gives assets (perform (.create name path))
      (fun _ t => t.root.file name path = some [] ∧ SameBut name [path] s t) s := by
  refine gives_op (fun fault a h => ?_)
  cases fault with
  | some fault => cases h
  | none =>
    simp only [exec, calm] at h ⊢
    split at h
    · cases h
    rename_i dir hdir
    split at h
    · cases h
    rename_i hfree
    rw [if_neg hfree]
    have hnow : (s.setDir name (dir.insert path [])).root.lookup name = some (dir.insert path []) :=
      AList.lookup_insert _
    refine ⟨(file_eq hnow).trans (AList.lookup_insert _), fun other hother => ?_⟩
    rw [file_eq hnow, file_eq hdir]
    exact AList.lookup_insert_ne (List.ne_of_not_mem_cons hother)

theorem gives_append {path : String} {old : List UInt8} (hold : s.root.file name path = some old)
    (bytes : List UInt8) :
    Gives assets (perform (.append name path bytes))
      (fun _ t => t.root.file name path = some (old ++ bytes) ∧ SameBut name [path] s t) s := by
  refine gives_op (fun fault a h => ?_)
  cases fault with
  | some fault => cases h
  | none =>
    obtain ⟨dir, hdir, hfile⟩ := dir_of_file hold
    show (s.change name _).root.file name path = _ ∧ SameBut name [path] s (s.change name _)
    refine ⟨?_, fun other hother => ?_⟩
    · rw [file_change hdir, AList.lookup_insert, hfile]
      rfl
    · rw [file_change hdir, file_eq hdir]
      exact AList.lookup_insert_ne (List.ne_of_not_mem_cons hother)

theorem gives_sync (path : String) :
    Gives assets (perform (.sync name path)) (fun _ t => t = s) s := by
  refine gives_op (fun fault a h => ?_)
  cases fault with
  | some fault => cases h
  | none => rfl

theorem gives_replace {source target : String} {bytes : List UInt8} (hne : source ≠ target)
    (hsource : s.root.file name source = some bytes) :
    Gives assets (perform (.replace name source target))
      (fun _ t => t.root.file name target = some bytes ∧ t.root.file name source = none ∧
        SameBut name [source, target] s t) s := by
  refine gives_op (fun fault a h => ?_)
  cases fault with
  | some fault => cases h
  | none =>
    obtain ⟨dir, hdir, -⟩ := dir_of_file hsource
    have hstep : (exec assets none (.replace name source target) s).2 =
        s.change name (fun dir => (dir.erase source).insert target bytes) := by
      simp only [exec, calm, hsource] at h ⊢
      split at h
      · cases h
      · rename_i hfree
        rw [if_neg hfree]
    rw [hstep]
    refine ⟨?_, ?_, fun other hother => ?_⟩
    · rw [file_change hdir, AList.lookup_insert]
    · rw [file_change hdir, AList.lookup_insert_ne hne, AList.lookup_erase]
    · rw [List.mem_cons, List.mem_singleton, not_or] at hother
      rw [file_change hdir, file_eq hdir, AList.lookup_insert_ne hother.2,
        AList.lookup_erase_ne hother.1]

theorem gives_fileExists (other : String) :
    Gives assets (perform (.fileExists other)) (fun _ t => t.root = s.root) s := by
  refine gives_op (fun fault a h => ?_)
  cases fault with
  | some fault => rfl
  | none => rfl

/-- Making a directory that is there already, or an empty one. -/
theorem gives_mkdirs :
    Gives assets (perform (.mkdirs name)) (fun _ t => SameBut name [] s t) s := by
  refine gives_op (fun fault a h => ?_)
  cases fault with
  | some fault => exact SameBut.refl
  | none =>
    simp only [exec, calm]
    split
    · exact SameBut.refl
    · rename_i hnone
      intro path _
      have hnow : (s.setDir name ∅).root.lookup name = some ∅ := AList.lookup_insert _
      show (s.setDir name ∅).root.file name path = _
      rw [file_eq hnow]
      unfold Root.file
      rw [hnone]
      rfl

theorem gives_ensurePrivateDirectory :
    Gives assets (ensurePrivateDirectory name) (fun _ t => SameBut name [] s t) s := by
  refine gives_bind (gives_fileExists name) (fun present t ht => ?_)
  have hsame : SameBut name [] s t := fun path _ => by rw [ht]
  split
  · refine gives_bind (gives_look (Q := fun _ u => u = t) trivial (fun _ _ _ => rfl)) ?_
    rintro directory u rfl
    split
    · exact wp_throw trivial
    · exact wp_pure hsame
  · refine gives_bind gives_mkdirs (fun made u hu => ?_)
    split
    · refine gives_bind (gives_look (Q := fun _ v => v = u) trivial (fun _ _ _ => rfl)) ?_
      rintro directory v rfl
      split
      · exact wp_throw trivial
      · exact wp_pure (hsame.trans hu)
    · exact wp_pure (hsame.trans hu)

/-! ## The copy loop -/

theorem checkedAdd_ok {left right sum : Int} (h : checkedAdd left right = .ok sum) :
    sum = left + right := by
  unfold checkedAdd at h
  split at h
  · cases h
  · cases h
    rfl

/-- The loop counts what it writes. -/
theorem gives_copyChunks (expected : ManifestFile) (chunks : List (List UInt8)) {written : Int}
    {content : List UInt8} (hfile : s.root.file name expected.path = some content)
    (hwritten : (content.length : Int) = written) :
    Gives assets (copyChunks name expected chunks written)
      (fun total t => (∃ content, t.root.file name expected.path = some content ∧
        (content.length : Int) = total) ∧ SameBut name [expected.path] s t) s := by
  induction chunks generalizing s written content with
  | nil => exact wp_pure ⟨⟨content, hfile, hwritten⟩, SameBut.refl⟩
  | cons chunk rest ih =>
    refine gives_bind (gives_resume (Q := fun sum t => t = s ∧ sum = written + chunk.length)
      (fun sum h => ⟨rfl, checkedAdd_ok h⟩)) ?_
    rintro sum t ⟨rfl, rfl⟩
    refine gives_bind gives_failIf ?_
    rintro _ t ⟨rfl, -⟩
    refine gives_bind (gives_append hfile chunk) ?_
    rintro _ u ⟨hnow, hsame⟩
    have hlonger : ((content ++ chunk).length : Int) = written + chunk.length := by
      rw [List.length_append]
      omega
    exact Wp.mono trivial (ih hnow hlonger) (fun total v _ h => ⟨h.1, hsame.trans h.2⟩)
      (fun _ _ _ h => h)

/-- A file of the size of the manifest. -/
def Fits (root : Root) (name : String) (item : ManifestFile) : Prop :=
  ∀ content, root.file name item.path = some content → (content.length : Int) = item.size

theorem gives_copyAndVerifyAsset (item : ManifestFile) :
    Gives assets (copyAndVerifyAsset platform name item)
      (fun _ t => Fits t.root name item ∧ SameBut name [item.path] s t) s := by
  refine gives_bind (gives_look (Q := fun _ t => t = s) trivial (fun _ _ _ => rfl)) ?_
  rintro bytes t rfl
  refine gives_bind (gives_create item.path) ?_
  rintro _ u ⟨hcreated, hsame⟩
  refine gives_bind (gives_copyChunks item _ hcreated rfl) ?_
  rintro written v ⟨⟨content, hfile, hlength⟩, hcopied⟩
  refine gives_bind (gives_sync item.path) ?_
  rintro _ v rfl
  refine gives_bind gives_failIf ?_
  rintro _ v ⟨rfl, hsize⟩
  refine Wp.mono trivial gives_failIf (fun _ v _ h => ?_) (fun _ _ _ h => h)
  obtain ⟨rfl, -⟩ := h
  refine ⟨fun other hother => ?_, hsame.trans hcopied⟩
  rw [hfile] at hother
  cases hother
  rw [hlength]
  simpa using hsize

theorem gives_copyAssets (files : List ManifestFile)
    (hnodup : (files.map ManifestFile.path).Nodup) :
    Gives assets (copyAssets platform name files)
      (fun _ t => (∀ item ∈ files, Fits t.root name item) ∧
        SameBut name (files.map ManifestFile.path) s t) s := by
  induction files generalizing s with
  | nil => exact wp_pure ⟨fun _ hitem => (by cases hitem), SameBut.refl⟩
  | cons item rest ih =>
    rw [List.map_cons, List.nodup_cons] at hnodup
    refine gives_bind (gives_op (Q := fun _ t => t = s) (fun fault a h => ?_)) ?_
    · cases fault with
      | some fault => rfl
      | none =>
        simp only [exec, calm] at h ⊢
        split
        · rfl
        · split
          · rfl
          · rfl
    rintro _ t rfl
    refine gives_bind (gives_copyAndVerifyAsset item) ?_
    rintro _ u ⟨hfits, hsame⟩
    refine Wp.mono trivial (ih hnodup.2) (fun _ v _ h => ⟨fun other hother => ?_, ?_⟩)
      (fun _ _ _ h => h)
    · rcases List.mem_cons.mp hother with rfl | hrest
      · -- the rest of the loop does not write this file again
        intro content hcontent
        rw [h.2 other.path hnodup.1] at hcontent
        exact hfits content hcontent
      · exact h.1 other hrest
    · refine (hsame.mono (fun path hpath => ?_)).trans (h.2.mono (fun path hpath => ?_))
      · rw [List.mem_singleton.mp hpath]
        exact List.mem_cons_self
      · exact List.mem_cons_of_mem _ hpath

/-! ## The staging directory -/

/-- The temporary name of `writeAtomic`. -/
def tempName (target : String) : String := "." ++ target ++ ".tmp"

theorem gives_writeAtomic {target : String} (hne : tempName target ≠ target) (bytes : List UInt8)
    (maxBytes : Nat) :
    Gives assets (writeAtomic name target bytes maxBytes)
      (fun _ t => t.root.file name target = some bytes ∧ t.root.file name (tempName target) = none ∧
        SameBut name [tempName target, target] s t) s := by
  refine gives_bind gives_failIf ?_
  rintro _ t ⟨rfl, -⟩
  refine gives_bind gives_ensurePrivateDirectory (fun _ u hmade => ?_)
  dsimp only
  refine gives_bind (gives_create (tempName target)) ?_
  rintro _ v ⟨hcreated, hsame⟩
  refine gives_bind (gives_append hcreated bytes) ?_
  rintro _ w ⟨hwritten, hsame'⟩
  refine gives_bind (gives_sync _) ?_
  rintro _ w rfl
  refine Wp.mono trivial (gives_replace hne hwritten) (fun _ x _ h => ?_) (fun _ _ _ h => h)
  refine ⟨h.1, h.2.1, ?_⟩
  have hbefore : SameBut name [tempName target] t v :=
    (hmade.mono (fun _ hpath => by cases hpath)).trans hsame
  have hlater : SameBut name [tempName target, target] t w := by
    refine (hbefore.trans hsame').mono (fun path hpath => ?_)
    rw [List.mem_singleton.mp hpath]
    exact List.mem_cons_self
  exact hlater.trans h.2.2

/-- What a call has read of the packaged bundle. -/
structure Packaged.Read (platform : Platform) (packaged : Packaged) : Prop where
  parsed : BundleManifest.parse platform packaged.bytes = .ok packaged.manifest
  digest : packaged.sha = platform.sha256 packaged.bytes

/-- The directory holds a complete tree of the bundle with this digest. -/
def Holds (platform : Platform) (root : Root) (name : String) (expected : Option String) : Prop :=
  ∃ dir, root.lookup name = some dir ∧ dir.complete platform expected = true

theorem Fits.same {t : Store} {paths : List String} {item : ManifestFile} (h : Fits s.root name item)
    (hsame : SameBut name paths s t) (hpath : item.path ∉ paths) : Fits t.root name item := by
  intro content hcontent
  rw [hsame _ hpath] at hcontent
  exact h content hcontent

/-- A file written beside the payload leaves the sizes right: its temporary name is gone. -/
theorem Fits.written {t : Store} {target : String} {item : ManifestFile} (h : Fits s.root name item)
    (htemp : t.root.file name (tempName target) = none)
    (hsame : SameBut name [tempName target, target] s t) (hpath : item.path ≠ target) :
    Fits t.root name item := by
  by_cases heq : item.path = tempName target
  · intro content hcontent
    rw [heq, htemp] at hcontent
    cases hcontent
  · exact h.same hsame (by simp [heq, hpath])

/-- **Staging.**  It returns only with a complete tree of the bundle in the staging directory. -/
theorem gives_stageBundle {packaged : Packaged} (hread : packaged.Read platform) :
    Gives assets (stageBundle platform packaged name)
      (fun _ t => Holds platform t.root name (some packaged.sha)) s := by
  have hwell := parse_wellFormed hread.parsed
  refine gives_bind (gives_copyAssets packaged.manifest.files hwell.nodup) ?_
  rintro _ t ⟨hfits, -⟩
  refine gives_bind (gives_writeAtomic (show tempName manifestName ≠ manifestName by decide) _ _) ?_
  rintro _ u ⟨hmanifest, htemp, hsame⟩
  have hfits₁ : ∀ item ∈ packaged.manifest.files, Fits u.root name item :=
    fun item hitem => (hfits item hitem).written htemp hsame (hwell.unreserved item hitem).1
  refine gives_bind (gives_writeAtomic (show tempName receiptName ≠ receiptName by decide) _ _) ?_
  rintro _ v ⟨-, htemp', hsame'⟩
  have hfits₂ : ∀ item ∈ packaged.manifest.files, Fits v.root name item :=
    fun item hitem => (hfits₁ item hitem).written htemp' hsame' (hwell.unreserved item hitem).2
  have hmanifest' : v.root.file name manifestName = some packaged.bytes :=
    (hsame' manifestName (by decide)).trans hmanifest
  refine gives_bind (wp_verifyInstalled name (some packaged.sha) true trivial) ?_
  rintro staged w ⟨rfl, hseen⟩
  refine Wp.mono trivial gives_failIf (fun _ w _ h => ?_) (fun _ _ _ h => h)
  obtain ⟨rfl, hvalid⟩ := h
  obtain ⟨dir, sha, manifest, hdir, hverified⟩ := hseen (by simpa using hvalid)
  -- the manifest that was verified is the one that was written
  have hsame : dir.manifest platform = some (platform.sha256 packaged.bytes, packaged.manifest) := by
    rw [file_eq hdir] at hmanifest'
    exact Dir.manifest_of_read hmanifest' hread.parsed
  rw [hverified.read] at hsame
  cases hsame
  refine ⟨dir, hdir, Dir.complete_iff.mpr ⟨_, _, hverified, fun item hitem content hcontent => ?_⟩⟩
  rw [← file_eq hdir] at hcontent
  exact hfits₂ item hitem content hcontent

end

end VibeCoder.Installer
