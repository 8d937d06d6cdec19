/-
  The two dot files of a tree are the installer's own.

  1. **Operations that spare a name** (`Op.Spares`) — they write no file of that name, and one that is
     there afterwards was there before.
  2. **Writing one** (`wp_writeAtomic_own`) — the only place that puts a dot file somewhere, within its
     bound.
  3. **A call** (`wp_ensureInstalled_own`) — so a call leaves only manifests within the bound and
     receipts that `buildReceipt` has put together.
-/
import VibeCoder.Install.CrashSafety
import VibeCoder.Install.ParsedManifest

namespace VibeCoder.Installer

open Resume

variable {platform : Platform} {assets : Dir} {s t : Store} {name : String}

/-! ## Operations that spare a name -/

/-- Every file of this name is as it should be. -/
def Owned (dot : String) (own : List UInt8 → Prop) (root : Root) : Prop :=
  ∀ name bytes, root.file name dot = some bytes → own bytes

/-- An operation that writes no file of this name. -/
def Op.Spares (dot : String) : Op → Prop
  | .create _ path | .append _ path _ => path ≠ dot
  | .replace _ _ target => target ≠ dot
  | _ => True

/-- Every file of this name was there before. -/
def Inherits (dot : String) (s t : Store) : Prop :=
  ∀ name bytes, t.root.file name dot = some bytes → ∃ other, s.root.file other dot = some bytes

variable {dot : String} {own : List UInt8 → Prop}

theorem Inherits.refl : Inherits dot s s := fun name _ h => ⟨name, h⟩

theorem Inherits.owned (h : Inherits dot s t) (howned : Owned dot own s.root) :
    Owned dot own t.root := by
  intro name bytes hfile
  obtain ⟨other, hother⟩ := h name bytes hfile
  exact howned other bytes hother

/-- A change to one directory that brings no file of this name. -/
theorem inherits_change {f : Dir → Dir}
    (h : ∀ dir bytes, (f dir).lookup dot = some bytes → dir.lookup dot = some bytes) :
    Inherits dot s (s.change name f) := by
  intro other bytes hfile
  refine ⟨other, ?_⟩
  unfold Root.file at hfile ⊢
  by_cases hother : other = name
  · subst hother
    rw [lookup_change] at hfile
    cases hdir : s.root.lookup other with
    | none =>
      rw [hdir] at hfile
      cases hfile
    | some dir =>
      rw [hdir] at hfile
      exact h dir bytes hfile
  · rw [lookup_change_other hother] at hfile
    exact hfile

/-- A directory with the file of one that is there. -/
theorem inherits_insert {dir : Dir}
    (h : ∀ bytes, dir.lookup dot = some bytes → ∃ other, s.root.file other dot = some bytes)
    {root : Root}
    (hroot : ∀ other held, root.lookup other = some held → s.root.lookup other = some held) :
    Inherits dot s { s with root := root.insert name dir } := by
  intro other bytes hfile
  unfold Root.file at hfile
  by_cases hother : other = name
  · subst hother
    rw [AList.lookup_insert] at hfile
    exact h bytes hfile
  · rw [AList.lookup_insert_ne hother] at hfile
    refine ⟨other, ?_⟩
    cases hheld : root.lookup other with
    | none =>
      rw [hheld] at hfile
      cases hfile
    | some held =>
      rw [hheld] at hfile
      unfold Root.file
      rw [hroot other held hheld]
      exact hfile

theorem lookup_of_erase {root : Root} {name other : String} {held : Dir}
    (h : (root.erase name).lookup other = some held) : root.lookup other = some held := by
  by_cases hother : other = name
  · subst hother
    rw [AList.lookup_erase] at h
    cases h
  · rw [AList.lookup_erase_ne hother] at h
    exact h

/-- **An operation that spares a name brings no file of it.** -/
theorem exec_spares {o : Op} (h : o.Spares dot) (fault : Option Fault) :
    Inherits dot s (exec assets fault o s).2 := by
  have hinsert : ∀ {name path : String} {content : Dir → List UInt8}, path ≠ dot →
      Inherits dot s (s.change name (fun dir => dir.insert path (content dir))) := by
    intro name path content hpath
    refine inherits_change (fun dir bytes hlookup => ?_)
    rw [AList.lookup_insert_ne hpath.symm] at hlookup
    exact hlookup
  cases fault with
  | some fault =>
    cases o with
    | append name path bytes => exact hinsert h
    | _ => exact Inherits.refl
  | none =>
    cases o with
    | mkdirs name =>
      simp only [exec, calm]
      split
      · exact Inherits.refl
      · refine inherits_insert (fun bytes hlookup => ?_) (fun _ _ hheld => hheld)
        rw [AList.lookup_empty] at hlookup
        cases hlookup
    | mkParents name path =>
      simp only [exec, calm]
      split
      · exact Inherits.refl
      · split
        · exact Inherits.refl
        · exact Inherits.refl
    | create name path =>
      simp only [exec, calm]
      split
      · exact Inherits.refl
      · rename_i dir hdir
        split
        · exact Inherits.refl
        · refine inherits_insert (fun bytes hlookup => ⟨name, ?_⟩) (fun _ _ hheld => hheld)
          rw [AList.lookup_insert_ne (Ne.symm h)] at hlookup
          rw [file_eq hdir]
          exact hlookup
    | append name path bytes => exact hinsert h
    | replace name source target =>
      simp only [exec, calm]
      split
      · exact Inherits.refl
      · split
        · exact Inherits.refl
        · refine inherits_change (fun dir bytes hlookup => ?_)
          rw [AList.lookup_insert_ne (Ne.symm h)] at hlookup
          by_cases hsource : source = dot
          · rw [hsource, AList.lookup_erase] at hlookup
            cases hlookup
          · rw [AList.lookup_erase_ne (Ne.symm hsource)] at hlookup
            exact hlookup
    | rename source target =>
      simp only [exec, calm]
      split
      · exact Inherits.refl
      · rename_i dir hdir
        split
        · refine inherits_insert (fun bytes hlookup => ⟨source, ?_⟩)
            (fun other held hheld => lookup_of_erase hheld)
          rw [file_eq hdir]
          exact hlookup
        · exact Inherits.refl
    | deleteFile name path =>
      refine inherits_change (fun dir bytes hlookup => ?_)
      by_cases hpath : path = dot
      · rw [hpath, AList.lookup_erase] at hlookup
        cases hlookup
      · rw [AList.lookup_erase_ne (Ne.symm hpath)] at hlookup
        exact hlookup
    | deleteDirectory name =>
      simp only [exec, calm]
      split
      · intro other bytes hfile
        refine ⟨other, ?_⟩
        unfold Root.file at hfile ⊢
        cases hheld : (s.root.erase name).lookup other with
        | none =>
          rw [hheld] at hfile
          cases hfile
        | some held =>
          rw [hheld] at hfile
          rw [lookup_of_erase hheld]
          exact hfile
      · exact Inherits.refl
    | _ => exact Inherits.refl

/-- A program that spares a name. -/
theorem wp_spares {α : Type} {p : Program α} (hp : Only (Op.Spares dot) p) (h : Owned dot own s.root) :
    Wp (Watched assets (fun t => Owned dot own t.root)) () p (fun _ t => Owned dot own t.root)
      (fun _ t => Owned dot own t.root) s := by
  refine wp_only (J := fun t : Store => Owned dot own t.root) (fun o ho t ht => ?_) hp h
  refine ⟨ht, fun fault _ u hu _ => ?_⟩
  rw [← hu]
  exact (exec_spares ho fault).owned ht

/-- An operation that spares a name, and what it gives. -/
theorem wp_spared {o : Op} {Q : o.Val → Store → Prop} (ho : o.Spares dot)
    (h : Owned dot own s.root) (hgives : Gives assets (perform o) Q s) :
    Wp (Watched assets (fun t => Owned dot own t.root)) () (perform o)
      (fun a t => Q a t ∧ Owned dot own t.root) (fun _ t => Owned dot own t.root) s := by
  refine wp_op h (fun fault => ?_)
  have hpost : Post Q (fun _ _ => True) (exec assets fault o s).1 (exec assets fault o s).2 :=
    hgives.2 fault trivial _ rfl trivial
  have hspares : Inherits dot s (exec assets fault o s).2 := exec_spares ho fault
  have hnext := hspares.owned h
  cases hanswer : (exec assets fault o s).1 with
  | error e => exact hnext
  | ok a =>
    rw [hanswer] at hpost
    exact ⟨hpost, hnext⟩

/-! ## Writing one -/

/-- Writing a file of another name. -/
theorem only_spares_writeAtomic {target : String} (htarget : target ≠ dot)
    (htemp : tempName target ≠ dot) (bytes : List UInt8) (maxBytes : Nat) :
    Only (Op.Spares dot) (writeAtomic name target bytes maxBytes) := by
  refine only_bind only_failIf (fun _ => ?_)
  refine only_bind (only_ensurePrivateDirectory trivial trivial trivial) (fun _ => ?_)
  refine only_bind (only_attempt htemp) (fun _ => only_bind (only_attempt htemp) (fun _ => ?_))
  exact only_bind (only_attempt trivial) (fun _ => only_attempt htarget)

/-- **The installer writes its own file**, within the bound. -/
theorem wp_writeAtomic_own {bytes : List UInt8} {maxBytes : Nat}
    (hown : bytes.length ≤ maxBytes → own bytes) (htemp : tempName dot ≠ dot)
    (h : Owned dot own s.root) :
    Wp (Watched assets (fun t => Owned dot own t.root)) () (writeAtomic name dot bytes maxBytes)
      (fun _ t => Owned dot own t.root) (fun _ t => Owned dot own t.root) s := by
  refine wp_bind (wp_failIf (fun hsize => ?_) h)
  rw [decide_eq_false_iff_not, Nat.not_lt] at hsize
  refine wp_seq trivial (wp_spares (only_ensurePrivateDirectory trivial trivial trivial) h)
    (fun _ t _ ht => ?_) (fun _ _ _ ht => ht)
  refine wp_seq trivial (wp_spared htemp ht (gives_create (tempName dot))) (fun _ u _ hu => ?_)
    (fun _ _ _ hu => hu)
  obtain ⟨⟨hcreated, -⟩, hu⟩ := hu
  refine wp_seq trivial (wp_spared htemp hu (gives_append hcreated bytes)) (fun _ v _ hv => ?_)
    (fun _ _ _ hv => hv)
  obtain ⟨⟨hwritten, -⟩, hv⟩ := hv
  refine wp_seq trivial (wp_spared (o := .sync name (tempName dot)) trivial hv (gives_sync _))
    (fun _ w _ hw => ?_) (fun _ _ _ hw => hw)
  obtain ⟨rfl, hw⟩ := hw
  -- the file that takes the name is the one that has just been written
  refine wp_op hw (fun fault => ?_)
  cases fault with
  | some fault => exact hw
  | none =>
    simp only [exec, calm]
    split
    · exact hw
    · rename_i content hcontent
      have hsame : content = bytes := by
        have hboth : some content = some ([] ++ bytes) := hcontent.symm.trans hwritten
        simpa using hboth
      split
      · exact hw
      · intro other found hfile
        unfold Root.file at hfile
        by_cases hother : other = name
        · subst hother
          obtain ⟨dir, hdir, -⟩ := dir_of_file hwritten
          rw [lookup_change, hdir, Option.map_some, Option.bind_some, AList.lookup_insert] at hfile
          cases hfile
          rw [hsame]
          exact hown hsize
        · rw [lookup_change_other hother] at hfile
          exact hw other found hfile

/-! ## A call -/

theorem Op.Looks.spares {o : Op} (h : o.Looks) : o.Spares dot := by
  cases o <;> first | exact h.elim | trivial

theorem only_spares_verifyInstalled {expected : Option String} {requireReceipt : Bool} :
    Only (Op.Spares dot) (verifyInstalled platform name expected requireReceipt) := by
  refine only_bind (only_settle ?_) (fun verified => ?_)
  · exact (only_verifySteps name _ _).mono (fun _ ho => ho.spares)
  · cases verified with
    | ok v => exact only_pure _
    | error e => exact only_pure _

theorem only_spares_deleteFiles (paths : List String) : Only (Op.Spares dot) (deleteFiles name paths) := by
  induction paths with
  | nil => exact only_pure _
  | cons path rest ih => exact only_bind (only_attempt trivial) (fun _ => ih)

theorem only_spares_deleteTree : Only (Op.Spares dot) (deleteTree name) := by
  refine only_bind (only_attempt trivial) (fun present => ?_)
  split
  · exact only_pure _
  · refine only_bind (only_attempt trivial) (fun paths => ?_)
    exact only_bind (only_spares_deleteFiles _) (fun _ => only_attempt trivial)

theorem only_spares_deleteTrees (names : List String) : Only (Op.Spares dot) (deleteTrees names) := by
  induction names with
  | nil => exact only_pure _
  | cons child rest ih => exact only_bind only_spares_deleteTree (fun _ => ih)

theorem only_spares_cleanupStaleStages : Only (Op.Spares dot) cleanupStaleStages := by
  refine only_bind (only_attempt trivial) (fun children => ?_)
  cases children with
  | none => exact only_pure _
  | some children => exact only_spares_deleteTrees _

theorem only_spares_move (source target : String) :
    Only (Op.Spares dot) (moveSameFilesystem source target) := by
  refine only_bind (only_attempt trivial) (fun _ => only_bind only_failIf (fun _ => ?_))
  refine only_bind (only_attempt trivial) (fun _ => only_bind only_failIf (fun _ => ?_))
  exact only_attempt trivial

theorem only_spares_recoverPreviousIfNeeded :
    Only (Op.Spares dot) (recoverPreviousIfNeeded platform) := by
  refine only_bind (only_attempt trivial) (fun present => ?_)
  split
  · exact only_pure _
  refine only_bind only_spares_verifyInstalled (fun currentAny => ?_)
  split
  · exact only_spares_deleteTree
  refine only_bind only_spares_verifyInstalled (fun previousAny => ?_)
  split
  · exact only_spares_deleteTree
  · exact only_bind only_spares_deleteTree (fun _ => only_spares_move _ _)

theorem only_spares_restorePrevious : Only (Op.Spares dot) restorePrevious := by
  refine only_bind (only_attempt trivial) (fun previous => ?_)
  split
  · exact only_spares_move _ _
  · exact only_pure _

theorem only_spares_commitStage (stage : String) : Only (Op.Spares dot) (commitStage stage) := by
  have hroom : Only (Op.Spares dot) makeRoom := by
    refine only_bind only_spares_deleteTree (fun _ => only_bind (only_attempt trivial) (fun present => ?_))
    split
    · exact only_spares_move _ _
    · exact only_pure _
  refine only_bind hroom (fun _ => only_bind (only_settle (only_spares_move _ _)) (fun moved => ?_))
  cases moved with
  | ok done => exact only_pure _
  | error commitError =>
    refine only_bind (only_bind (only_attempt trivial) (fun present => ?_)) (fun _ => only_throw _)
    split
    · exact only_spares_restorePrevious
    · exact only_pure _

theorem only_spares_finishInstall (packaged : Packaged) :
    Only (Op.Spares dot) (finishInstall platform packaged) := by
  refine only_bind only_spares_verifyInstalled (fun installed => ?_)
  split
  · exact only_bind only_spares_deleteTree (fun _ => only_pure _)
  · refine only_bind only_spares_deleteTree (fun _ => ?_)
    exact only_bind only_spares_restorePrevious (fun _ => only_throw _)

/-- What has been parsed states a digest of its tree. -/
theorem treeSha256_of_parse {bytes : List UInt8} {manifest : BundleManifest}
    (h : BundleManifest.parse platform bytes = .ok manifest) :
    isSha256 manifest.treeSha256 = true := by
  obtain ⟨root, items, -, hchecked, -, -, -, -, rfl⟩ := parse_ok h
  exact hchecked.treeSha256

/-- A receipt that `buildReceipt` has put together. -/
def OwnReceipt (platform : Platform) (bytes : List UInt8) : Prop :=
  bytes.length ≤ maxReceiptBytes ∧ ∃ manifest content, isSha256 manifest.treeSha256 = true ∧
    bytes = buildReceipt platform manifest (platform.sha256 content)

/-- A manifest within its bound. -/
def OwnManifest (bytes : List UInt8) : Prop := bytes.length ≤ maxManifestBytes

/-- What the two dot files are. -/
inductive Dot (platform : Platform) : String → (List UInt8 → Prop) → Prop where
  | manifest : Dot platform manifestName OwnManifest
  | receipt : Dot platform receiptName (OwnReceipt platform)

/-- A call up to its recovery step. -/
theorem wp_approach_own (h : Owned dot own s.root) :
    Wp (Watched assets (fun t => Owned dot own t.root)) () (approach platform)
      (fun r t => Owned dot own t.root ∧ ∀ packaged, r = some packaged → packaged.Read platform)
      (fun _ t => Owned dot own t.root) s := by
  have hread : Only (Op.Spares dot) (readAssetBounded manifestName maxManifestBytes) :=
    only_bind (only_attempt trivial) (fun _ => only_resume _)
  refine wp_bind (wp_settle (Wp.mono trivial (wp_spares hread h) (fun bytes t _ ht => ?_)
    (fun missing t _ ht => ?_)))
  · refine wp_bind (wp_resume ?_)
    cases hparsed : BundleManifest.parse platform bytes with
    | error e => exact ht
    | ok manifest =>
      have hopen : Only (Op.Spares dot) (perform .openRuntimeRoot) := only_attempt trivial
      refine wp_seq trivial (wp_spares hopen ht) (fun _ v _ hv => ?_) (fun _ _ _ hv => hv)
      refine wp_seq trivial (wp_spares only_spares_cleanupStaleStages hv) (fun _ u _ hu => ?_)
        (fun _ _ _ hu => hu)
      refine wp_pure ⟨hu, fun packaged hpackaged => ?_⟩
      cases hpackaged
      exact ⟨hparsed, rfl⟩
  · dsimp only
    split
    · exact wp_pure ⟨ht, fun _ hnone => by cases hnone⟩
    · exact wp_throw ht

section

variable (hdot : Dot platform dot own)

include hdot

theorem wp_stageBundle_own {packaged : Packaged} (hread : packaged.Read platform)
    (h : Owned dot own s.root) :
    Wp (Watched assets (fun t => Owned dot own t.root)) () (stageBundle platform packaged name)
      (fun _ t => Owned dot own t.root) (fun _ t => Owned dot own t.root) s := by
  have hwell := parse_wellFormed hread.parsed
  have hcopies : Only (Op.Spares dot) (copyAssets platform name packaged.manifest.files) := by
    refine only_copyAssets (fun item hitem => ?_)
    have hne : item.path ≠ dot := by
      cases hdot with
      | manifest => exact (hwell.unreserved item hitem).1
      | receipt => exact (hwell.unreserved item hitem).2
    exact ⟨trivial, trivial, hne, fun _ => hne, trivial⟩
  refine wp_seq trivial (wp_spares hcopies h) (fun _ t _ ht => ?_) (fun _ _ _ ht => ht)
  have hmanifest : Wp (Watched assets (fun t => Owned dot own t.root)) ()
      (writeAtomic name manifestName packaged.bytes maxManifestBytes)
      (fun _ t => Owned dot own t.root) (fun _ t => Owned dot own t.root) t := by
    cases hdot with
    | manifest => exact wp_writeAtomic_own (fun hsize => hsize) (by decide) ht
    | receipt => exact wp_spares (only_spares_writeAtomic (by decide) (by decide) _ _) ht
  refine wp_seq trivial hmanifest (fun _ u _ hu => ?_) (fun _ _ _ hu => hu)
  have hreceipt : Wp (Watched assets (fun t => Owned dot own t.root)) ()
      (writeAtomic name receiptName (buildReceipt platform packaged.manifest packaged.sha)
        maxReceiptBytes)
      (fun _ t => Owned dot own t.root) (fun _ t => Owned dot own t.root) u := by
    cases hdot with
    | manifest => exact wp_spares (only_spares_writeAtomic (by decide) (by decide) _ _) hu
    | receipt =>
      refine wp_writeAtomic_own (fun hsize => ⟨hsize, packaged.manifest, packaged.bytes,
        treeSha256_of_parse hread.parsed, ?_⟩) (by decide) hu
      rw [hread.digest]
  refine wp_seq trivial hreceipt (fun _ v _ hv => ?_) (fun _ _ _ hv => hv)
  exact wp_spares (only_bind only_spares_verifyInstalled (fun _ => only_failIf)) hv

/-- A call from its recovery step on. -/
theorem wp_proceed_own {packaged : Packaged} (hread : packaged.Read platform)
    (h : Owned dot own s.root) :
    Wp (Watched assets (fun t => Owned dot own t.root)) () (proceed platform (some packaged))
      (fun _ t => Owned dot own t.root) (fun _ t => Owned dot own t.root) s := by
  refine wp_seq trivial (wp_spares only_spares_recoverPreviousIfNeeded h) (fun _ t _ ht => ?_)
    (fun _ _ _ ht => ht)
  refine wp_seq trivial (wp_spares only_spares_verifyInstalled ht) (fun verification u _ hu => ?_)
    (fun _ _ _ hu => hu)
  split
  · exact wp_spares (only_bind only_spares_deleteTree (fun _ => only_pure _)) hu
  dsimp only
  refine wp_seq trivial (wp_spares only_spares_deleteTree hu) (fun _ v _ hv => ?_) (fun _ _ _ hv => hv)
  refine wp_seq trivial (wp_spares (only_ensurePrivateDirectory trivial trivial trivial) hv)
    (fun _ w _ hw => ?_) (fun _ _ _ hw => hw)
  refine wp_bind (wp_settle (wp_seq trivial (wp_stageBundle_own hdot hread hw) (fun _ x _ hx => ?_)
    (fun _ x _ hx => ?_)))
  · refine Wp.mono trivial (wp_spares (only_spares_commitStage _) hx) (fun _ y _ hy => ?_)
      (fun _ y _ hy => ?_)
    · exact wp_spares (only_spares_finishInstall packaged) hy
    · exact wp_spares (only_bind only_spares_deleteTree (fun _ => only_throw _)) hy
  · exact wp_spares (only_bind only_spares_deleteTree (fun _ => only_throw _)) hx

/-- **A call leaves only its own dot files.** -/
theorem wp_ensureInstalled_own (h : Owned dot own s.root) :
    Wp (Watched assets (fun t => Owned dot own t.root)) () (ensureInstalled platform)
      (fun _ t => Owned dot own t.root) (fun _ t => Owned dot own t.root) s := by
  rw [ensureInstalled_eq]
  refine wp_seq trivial (wp_approach_own h) (fun r t _ ht => ?_) (fun _ _ _ ht => ht)
  cases r with
  | none => exact wp_pure ht.1
  | some packaged => exact wp_proceed_own hdot (ht.2 packaged rfl) ht.1

end

end VibeCoder.Installer
