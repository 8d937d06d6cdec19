/-
  Calls of the installer that crash or fail anywhere, one after another.

  1. **Deletion** (`wp_deleteTree`) — wherever a deletion stops, the tree is untouched or has a gap.

  2. **The two directories** (`Kept`) — the current and the previous directory each hold a complete
     tree or one with a gap, and if a complete tree was there it is still in one of them.  Renames
     between the two keep this, for they do not replace a directory that holds anything.

  3. **A call** (`wp_installRecovered`) — a watched call from the recovery step on, when the complete
     tree is the current one: `Kept` holds before each operation, and a result it returns is true.

  The recovery step verifies without a receipt, and every installed tree has one, so it never restores
  a previous tree (`wp_recoverPreviousIfNeeded`).
-/
import VibeCoder.Install.Staging

namespace VibeCoder.Installer

open Resume

variable {platform : Platform} {assets : Dir} {J : Store → Prop}
variable {s t u : Store} {name : String}

/-! ## Deletion -/

/-- A directory that is absent, complete, or has a gap. -/
def Slot (platform : Platform) (held : Option Dir) : Prop :=
  ∀ dir, held = some dir → dir.complete platform none = true ∨ dir.Gappy platform

def Gapped (platform : Platform) (held : Option Dir) : Prop :=
  ∀ dir, held = some dir → dir.Gappy platform

theorem Gapped.slot {held : Option Dir} (h : Gapped platform held) : Slot platform held :=
  fun dir hdir => .inr (h dir hdir)

/-- What the deletion of a directory may have done so far. -/
structure Shed (platform : Platform) (name : String) (s t : Store) : Prop where
  elsewhere : ∀ other, other ≠ name → t.root.lookup other = s.root.lookup other
  here : Slot platform (s.root.lookup name) →
    t.root.lookup name = s.root.lookup name ∨ Gapped platform (t.root.lookup name)
  gone : s.root.lookup name = none → t.root.lookup name = none
  hidden : s.hidden = true → t.hidden = true

theorem Shed.refl : Shed platform name s s := ⟨fun _ _ => rfl, fun _ => .inl rfl, id, id⟩

/-- A test for a directory changes nothing but what has been hidden. -/
theorem Shed.present (h : Shed platform name s t) (hroot : u.root = t.root)
    (hhidden : t.hidden = true → u.hidden = true) : Shed platform name s u := by
  refine ⟨fun other hother => ?_, fun hslot => ?_, fun hgone => ?_, fun hs => hhidden (h.hidden hs)⟩
  · rw [hroot]
    exact h.elsewhere other hother
  · rw [hroot]
    exact h.here hslot
  · rw [hroot]
    exact h.gone hgone

theorem Shed.slot (h : Shed platform name s t) (hslot : Slot platform (s.root.lookup name)) :
    Slot platform (t.root.lookup name) := by
  rcases h.here hslot with hsame | hgapped
  · rw [hsame]
    exact hslot
  · exact hgapped.slot

/-- A file goes, which leaves a gap. -/
theorem Shed.erase {path : String} (h : Shed platform name s t)
    (hgapped : Slot platform (s.root.lookup name) →
      Gapped platform ((t.root.lookup name).map (fun dir => dir.erase path))) :
    Shed platform name s (t.change name (fun dir => dir.erase path)) := by
  refine ⟨fun other hother => ?_, fun hslot => .inr ?_, fun hgone => ?_, fun hs => ?_⟩
  · rw [lookup_change_other hother]
    exact h.elsewhere other hother
  · rw [lookup_change]
    exact hgapped hslot
  · rw [lookup_change, h.gone hgone]
    rfl
  · unfold Store.change
    split
    · exact h.hidden hs
    · exact h.hidden hs

theorem Gapped.erase {held : Option Dir} (h : Gapped platform held) (path : String) :
    Gapped platform (held.map (fun dir => dir.erase path)) := by
  intro dir hdir
  obtain ⟨before, hbefore, rfl⟩ := Option.map_eq_some_iff.mp hdir
  exact (h before hbefore).erase path

theorem wp_deleteFiles (hJ : ∀ t, Shed platform name s t → J t) (paths : List String)
    (h : Shed platform name s t)
    (htorn : Slot platform (s.root.lookup name) → Gapped platform (t.root.lookup name)) :
    Wp (Watched assets J) () (deleteFiles name paths) (fun _ u => Shed platform name s u)
      (fun _ u => Shed platform name s u) t := by
  induction paths generalizing t with
  | nil => exact wp_pure h
  | cons path rest ih =>
    refine wp_bind (wp_op (hJ t h) (fun fault => ?_))
    cases fault with
    | some fault => exact h
    | none =>
      refine ih (h.erase (fun hslot => (htorn hslot).erase path)) (fun hslot => ?_)
      show Gapped platform ((t.change name _).root.lookup name)
      rw [lookup_change]
      exact (htorn hslot).erase path

/-- The first file that goes makes the gap. -/
theorem wp_deleteFiles_all (hJ : ∀ t, Shed platform name s t → J t) {dir : Dir}
    (h : Shed platform name s t) (hs : s.root.lookup name = some dir)
    (ht : t.root.lookup name = some dir) :
    Wp (Watched assets J) () (deleteFiles name (deletionOrder dir.keys))
      (fun _ u => Shed platform name s u) (fun _ u => Shed platform name s u) t := by
  cases horder : deletionOrder dir.keys with
  | nil => exact wp_pure h
  | cons path rest =>
    refine wp_bind (wp_op (hJ t h) (fun fault => ?_))
    cases fault with
    | some fault => exact h
    | none =>
      have hgapped : Slot platform (s.root.lookup name) →
          Gapped platform ((t.root.lookup name).map (fun dir => dir.erase path)) := by
        intro hslot torn htorn
        rw [ht] at htorn
        cases htorn
        exact Dir.gappy_of_first (hslot dir hs) horder
      refine wp_deleteFiles hJ rest (h.erase hgapped) (fun hslot => ?_)
      show Gapped platform ((t.change name _).root.lookup name)
      rw [lookup_change]
      exact hgapped hslot

/-- A test for a directory that says "no" may be wrong, but then something has been hidden. -/
theorem wp_present {Q : Bool → Store → Prop} {E : Throwable → Store → Prop} (hJ : J s)
    (h : ∀ present t, t.root = s.root → (s.hidden = true → t.hidden = true) →
      (present = true → (s.root.lookup name).isSome = true) →
      (present = false → t.hidden = true ∨ s.root.lookup name = none) → Q present t) :
    Wp (Watched assets J) () (perform (.fileExists name)) Q E s := by
  refine wp_op hJ (fun fault => ?_)
  cases fault with
  | some fault =>
    refine h false _ rfl (fun hs => ?_) nofun (fun _ => ?_)
    · show (s.hidden || _) = true
      rw [hs]
      rfl
    · cases hdir : s.root.lookup name with
      | none => exact .inr rfl
      | some dir =>
        refine .inl ?_
        show (s.hidden || (s.root.lookup name).isSome) = true
        rw [hdir]
        exact Bool.or_true _
  | none =>
    refine h _ _ rfl id id (fun habsent => ?_)
    cases hdir : s.root.lookup name with
    | none => exact .inr rfl
    | some dir =>
      rw [hdir] at habsent
      cases habsent

/-- **Deletion.**  Wherever it stops the tree is untouched or has a gap; where it ends without an
    error the tree is gone, or has not been seen. -/
theorem wp_deleteTree (hJ : ∀ t, Shed platform name s t → J t) :
    Wp (Watched assets J) () (deleteTree name)
      (fun _ t => Shed platform name s t ∧ (t.hidden = true ∨ t.root.lookup name = none))
      (fun _ t => Shed platform name s t) s := by
  refine wp_bind (wp_present (hJ s Shed.refl) (fun present t hroot hhidden hyes hno => ?_))
  have ht : Shed platform name s t := Shed.refl.present hroot hhidden
  split
  · rename_i habsent
    refine wp_pure ⟨ht, ?_⟩
    rw [hroot]
    exact hno (by simpa using habsent)
  · refine wp_bind (wp_op (hJ t ht) (fun fault => ?_))
    rw [exec_looks (by trivial)]
    cases hanswer : (exec assets fault (.walk name) t).1 with
    | error e => exact ht
    | ok paths =>
      obtain ⟨dir, hdir, rfl⟩ := walk_ok hanswer
      refine wp_seq trivial (wp_deleteFiles_all hJ ht (hroot ▸ hdir) hdir) (fun _ u _ hu => ?_)
        (fun _ _ _ hu => hu)
      refine wp_op (hJ u hu) (fun fault => ?_)
      cases fault with
      | some fault => exact hu
      | none =>
        simp only [exec, calm]
        split
        · refine ⟨⟨fun other hother => ?_, fun _ => .inr (fun _ hgone => ?_), fun _ => ?_, hu.hidden⟩,
            .inr (AList.lookup_erase _ _)⟩
          · exact (AList.lookup_erase_ne hother).trans (hu.elsewhere other hother)
          · rw [AList.lookup_erase] at hgone
            cases hgone
          · exact AList.lookup_erase _ _
        · exact hu

/-! ## The current and the previous directory -/

/-- There is a complete tree. -/
def Root.whole (platform : Platform) (root : Root) (name : String) : Bool :=
  (root.lookup name).any (Dir.complete platform none)

/-- **The invariant of two directories**: each is absent, complete or has a gap, and the complete tree
    that was there before is in one of them. -/
structure Kept (platform : Platform) (before : Prop) (root : Root) (a b : String) : Prop where
  left : Slot platform (root.lookup a)
  right : Slot platform (root.lookup b)
  kept : before → root.whole platform a = true ∨ root.whole platform b = true

section

variable {before : Prop} {root later : Root} {a b : String}

theorem Kept.symm (h : Kept platform before root a b) : Kept platform before root b a :=
  ⟨h.right, h.left, fun hbefore => (h.kept hbefore).symm⟩

theorem whole_congr (h : later.lookup name = root.lookup name) :
    later.whole platform name = root.whole platform name := by
  unfold Root.whole
  rw [h]

theorem Kept.congr (h : Kept platform before root a b) (ha : later.lookup a = root.lookup a)
    (hb : later.lookup b = root.lookup b) : Kept platform before later a b := by
  refine ⟨?_, ?_, fun hbefore => ?_⟩
  · rw [ha]
    exact h.left
  · rw [hb]
    exact h.right
  · rw [whole_congr ha, whole_congr hb]
    exact h.kept hbefore

/-- Deleting one of them keeps the complete tree in the other. -/
theorem Kept.shed (h : Kept platform before s.root a b) (hab : a ≠ b)
    (hwhole : before → s.root.whole platform a = true) (hshed : Shed platform b s t) :
    Kept platform before t.root a b ∧ (before → t.root.whole platform a = true) := by
  have ha : t.root.lookup a = s.root.lookup a := hshed.elsewhere a hab
  have hstill : before → t.root.whole platform a = true := by
    intro hbefore
    rw [whole_congr ha]
    exact hwhole hbefore
  refine ⟨⟨?_, hshed.slot h.right, fun hbefore => .inl (hstill hbefore)⟩, hstill⟩
  rw [ha]
  exact h.left

/-- A directory has been renamed, to a name that was free or held nothing. -/
structure Moved (source target : String) (root later : Root) : Prop where
  here : ∃ dir, root.lookup source = some dir ∧ later.lookup target = some dir
  free : ((root.lookup target).getD ∅).keys = []
  left : later.lookup source = none
  elsewhere : ∀ other, other ≠ source → other ≠ target → later.lookup other = root.lookup other

/-- A directory that holds nothing is no complete tree. -/
theorem not_whole_of_free (h : ((root.lookup name).getD ∅).keys = []) :
    ¬ root.whole platform name = true := by
  intro hwhole
  unfold Root.whole at hwhole
  cases hdir : root.lookup name with
  | none =>
    rw [hdir] at hwhole
    cases hwhole
  | some dir =>
    rw [hdir] at hwhole h
    exact Dir.keys_ne_nil_of_complete hwhole h

theorem Moved.lookup (h : Moved a b root later) : later.lookup b = root.lookup a := by
  obtain ⟨dir, hsource, htarget⟩ := h.here
  rw [hsource, htarget]

/-- A rename between the two directories loses nothing. -/
theorem Kept.move (h : Kept platform before root a b) (hmoved : Moved a b root later) :
    Kept platform before later a b ∧ (before → later.whole platform b = true) := by
  have hwhole : before → later.whole platform b = true := by
    intro hbefore
    rcases h.kept hbefore with hsource | htarget
    · unfold Root.whole
      rw [hmoved.lookup]
      exact hsource
    · exact absurd htarget (not_whole_of_free hmoved.free)
  refine ⟨⟨fun dir hdir => ?_, ?_, fun hbefore => .inr (hwhole hbefore)⟩, hwhole⟩
  · rw [hmoved.left] at hdir
    cases hdir
  · rw [hmoved.lookup]
    exact h.left

/-- A complete tree takes the place of a directory that holds nothing. -/
theorem Kept.replace (h : Kept platform before root a b) {stage : String} (hstage : b ≠ stage)
    (hab : b ≠ a) {expected : Option String} (hholds : Holds platform root stage expected)
    (hmoved : Moved stage a root later) :
    Kept platform before later a b ∧ Holds platform later a expected ∧
      (before → later.whole platform b = true) := by
  obtain ⟨dir, hdir, hcomplete⟩ := hholds
  have ha : later.lookup a = some dir := hmoved.lookup.trans hdir
  have hb : later.lookup b = root.lookup b := hmoved.elsewhere b hstage hab
  have hwhole : before → later.whole platform b = true := by
    intro hbefore
    rw [whole_congr hb]
    exact (h.kept hbefore).resolve_left (not_whole_of_free hmoved.free)
  refine ⟨⟨?_, ?_, fun hbefore => .inr (hwhole hbefore)⟩, ⟨dir, ha, hcomplete⟩, hwhole⟩
  · intro other hother
    rw [ha] at hother
    cases hother
    exact .inl (Dir.complete_none hcomplete)
  · rw [hb]
    exact h.right

end

/-- **Renames.**  Nothing changes but by the rename itself. -/
theorem wp_moveSameFilesystem {source target : String} (hne : source ≠ target)
    (hJ : ∀ t, t.root = s.root → J t) :
    Wp (Watched assets J) () (moveSameFilesystem source target)
      (fun _ t => Moved source target s.root t.root) (fun _ t => t.root = s.root) s := by
  refine wp_bind (wp_present (hJ s rfl) (fun here t ht _ _ _ => ?_))
  refine wp_bind (wp_failIf (fun _ => ?_) ht)
  refine wp_bind (wp_present (hJ t ht) (fun there u hu _ _ _ => ?_))
  have hroot : u.root = s.root := hu.trans ht
  refine wp_bind (wp_failIf (fun _ => ?_) hroot)
  refine wp_op (hJ u hroot) (fun fault => ?_)
  cases fault with
  | some fault => exact hroot
  | none =>
    simp only [exec, calm]
    split
    · exact hroot
    rename_i dir hdir
    split
    · rename_i hfree
      rw [hroot] at hdir hfree
      refine ⟨⟨dir, hdir, AList.lookup_insert _⟩, hfree, ?_, fun other hsource htarget => ?_⟩
      · exact (AList.lookup_insert_ne hne).trans (AList.lookup_erase _ _)
      · refine (AList.lookup_insert_ne htarget).trans ?_
        rw [AList.lookup_erase_ne hsource, hroot]
    · exact hroot

/-! ## The recovery step -/

/-- No staging directory is there. -/
def Root.Clean (root : Root) : Prop := ∀ name, isStage name = true → root.lookup name = none

/-- No staging directory but this one is there. -/
def Root.CleanBut (stage : String) (root : Root) : Prop :=
  ∀ name, isStage name = true → name ≠ stage → root.lookup name = none

/-- The two directories, where the complete tree is the current one; `clean` says that no staging
    directory is left. -/
structure Held (platform : Platform) (before clean : Prop) (root : Root) : Prop where
  kept : Kept platform before root currentName previousName
  whole : before → root.whole platform currentName = true
  clean : clean → root.Clean

/-- What is watched over a call. -/
def Intact (platform : Platform) (before : Prop) (s : Store) : Prop :=
  Kept platform before s.root currentName previousName

theorem current_ne_previous : currentName ≠ previousName := by decide

section

variable {before clean : Prop}

theorem Clean.shed (h : s.root.Clean) (hname : isStage name = false)
    (hshed : Shed platform name s t) : t.root.Clean := by
  intro other hother
  have hne : other ≠ name := by
    rintro rfl
    rw [hname] at hother
    cases hother
  rw [hshed.elsewhere other hne]
  exact h other hother

/-- The previous directory goes, and the complete tree stays where it is. -/
theorem wp_deletePrevious (h : Held platform before clean s.root) :
    Wp (Watched assets (Intact platform before)) () (deleteTree previousName)
      (fun _ t => Held platform before clean t.root ∧
        t.root.lookup currentName = s.root.lookup currentName)
      (fun _ => Intact platform before) s := by
  have hkept : ∀ t, Shed platform previousName s t → Intact platform before t :=
    fun t hshed => (h.kept.shed current_ne_previous h.whole hshed).1
  refine Wp.mono trivial (wp_deleteTree hkept) (fun _ t _ hend => ?_) (fun _ t _ hshed => hkept t hshed)
  obtain ⟨hshed, -⟩ := hend
  obtain ⟨hstill, hwhole⟩ := h.kept.shed current_ne_previous h.whole hshed
  exact ⟨⟨hstill, hwhole, fun hclean => Clean.shed (h.clean hclean) (by decide) hshed⟩,
    hshed.elsewhere currentName current_ne_previous⟩

/-- Nothing that is complete or has a gap passes without a receipt. -/
theorem not_seen_without_receipt {expected : Option String} {root : Root}
    (h : Slot platform (root.lookup name)) : ¬ Seen platform name expected false root := by
  rintro ⟨dir, sha, manifest, hdir, hverified⟩
  rcases h dir hdir with hcomplete | hgappy
  · exact Dir.not_verified_of_complete hcomplete hverified
  · exact hgappy.not_verified hverified

/-- **Recovery.**  It keeps the complete tree when that is the current one.  It never restores a
    previous tree, for none passes without a receipt. -/
theorem wp_recoverPreviousIfNeeded (h : Held platform before clean s.root) :
    Wp (Watched assets (Intact platform before)) () (recoverPreviousIfNeeded platform)
      (fun _ t => Held platform before clean t.root) (fun _ => Intact platform before) s := by
  have hdelete : ∀ u : Store, u.root = s.root →
      Wp (Watched assets (Intact platform before)) () (deleteTree previousName)
        (fun _ t => Held platform before clean t.root) (fun _ => Intact platform before) u := by
    intro u hu
    have hheld : Held platform before clean u.root := by
      rw [hu]
      exact h
    exact Wp.mono trivial (wp_deletePrevious hheld) (fun _ _ _ hend => hend.1) (fun _ _ _ hsafe => hsafe)
  refine wp_bind (wp_present h.kept (fun present t ht _ _ _ => ?_))
  have hsafe : Intact platform before t := by
    unfold Intact
    rw [ht]
    exact h.kept
  split
  · refine wp_pure ?_
    rw [ht]
    exact h
  refine wp_bind (wp_verifyInstalled currentName none false hsafe |>.mono trivial ?_ (fun _ _ _ he => he))
  rintro currentAny u - ⟨rfl, -⟩
  split
  · exact hdelete u ht
  refine wp_bind (wp_verifyInstalled previousName none false hsafe |>.mono trivial ?_ (fun _ _ _ he => he))
  rintro previousAny u - ⟨rfl, hseen⟩
  split
  · exact hdelete u ht
  · rename_i hvalid
    refine absurd (hseen (by simpa using hvalid)) (not_seen_without_receipt ?_)
    exact hsafe.right

/-! ## Staging and commit -/

/-- Everything but one directory is as it was. -/
def Elsewhere (name : String) (root later : Root) : Prop :=
  ∀ other, other ≠ name → later.lookup other = root.lookup other

/-- An operation that changes one directory at most. -/
def Op.Within (name : String) : Op → Prop
  | .mkdirs n | .mkParents n _ | .create n _ | .append n _ _ | .sync n _ | .replace n _ _ => n = name
  | .rename _ _ | .deleteFile _ _ | .deleteDirectory _ => False
  | _ => True

theorem exec_within {o : Op} (h : o.Within name) (fault : Option Fault) :
    Elsewhere name s.root (exec assets fault o s).2.root := by
  intro other hother
  cases fault with
  | some fault =>
    cases o with
    | append n path bytes =>
      rw [← (show n = name from h)] at hother
      exact lookup_change_other hother _
    | _ => rfl
  | none =>
    cases o with
    | mkdirs n =>
      simp only [exec, calm]
      split
      · rfl
      · rw [← (show n = name from h)] at hother
        exact AList.lookup_insert_ne hother
    | mkParents n path =>
      simp only [exec, calm]
      split
      · rfl
      · split
        · rfl
        · rfl
    | create n path =>
      simp only [exec, calm]
      split
      · rfl
      · split
        · rfl
        · rw [← (show n = name from h)] at hother
          exact AList.lookup_insert_ne hother
    | append n path bytes =>
      rw [← (show n = name from h)] at hother
      exact lookup_change_other hother _
    | replace n source target =>
      simp only [exec, calm]
      split
      · rfl
      · split
        · rfl
        · rw [← (show n = name from h)] at hother
          exact lookup_change_other hother _
    | rename source target => exact h.elim
    | deleteFile n path => exact h.elim
    | deleteDirectory n => exact h.elim
    | _ => rfl

theorem wp_within {α : Type} {p : Program α} (hp : Only (Op.Within name) p)
    (hJ : ∀ t, Elsewhere name s.root t.root → J t) :
    Wp (Watched assets J) () p (fun _ t => Elsewhere name s.root t.root)
      (fun _ t => Elsewhere name s.root t.root) s := by
  refine wp_only (J := fun t : Store => Elsewhere name s.root t.root) (fun o ho t ht => ?_) hp (fun _ _ => rfl)
  refine ⟨hJ t ht, fun fault _ u hu _ => ?_⟩
  rw [← hu]
  exact fun other hother => (exec_within ho fault other hother).trans (ht other hother)

theorem Op.Looks.within {o : Op} (h : o.Looks) : o.Within name := by
  cases o <;> first | exact h.elim | trivial

section

variable {P : Op → Prop}

theorem only_ensurePrivateDirectory (hpresent : P (.fileExists name))
    (hdirectory : P (.isDirectory name)) (hmade : P (.mkdirs name)) :
    Only P (ensurePrivateDirectory name) := by
  refine only_bind (only_attempt hpresent) (fun present => ?_)
  split
  · refine only_bind (only_attempt hdirectory) (fun directory => ?_)
    split
    · exact only_throw _
    · exact only_pure _
  · refine only_bind (only_attempt hmade) (fun made => ?_)
    split
    · refine only_bind (only_attempt hdirectory) (fun directory => ?_)
      split
      · exact only_throw _
      · exact only_pure _
    · exact only_pure _

theorem only_copyChunks (expected : ManifestFile)
    (happend : ∀ bytes, P (.append name expected.path bytes)) (chunks : List (List UInt8))
    (written : Int) : Only P (copyChunks name expected chunks written) := by
  induction chunks generalizing written with
  | nil => exact only_pure _
  | cons chunk rest ih =>
    refine only_bind (only_resume _) (fun _ => only_bind only_failIf (fun _ => ?_))
    exact only_bind (only_attempt (happend chunk)) (fun _ => ih _)

/-- The operations that copy one file of the payload. -/
structure Copies (P : Op → Prop) (name path : String) : Prop where
  mkParents : P (.mkParents name path)
  openAsset : P (.openAsset path)
  create : P (.create name path)
  append : ∀ bytes, P (.append name path bytes)
  sync : P (.sync name path)

theorem only_copyAssets {files : List ManifestFile} (h : ∀ item ∈ files, Copies P name item.path) :
    Only P (copyAssets platform name files) := by
  induction files with
  | nil => exact only_pure _
  | cons item rest ih =>
    have hitem := h item List.mem_cons_self
    refine only_bind (only_attempt hitem.mkParents) (fun _ => only_bind ?_
      (fun _ => ih (fun other hother => h other (List.mem_cons_of_mem _ hother))))
    refine only_bind (only_attempt hitem.openAsset) (fun _ => ?_)
    refine only_bind (only_attempt hitem.create) (fun _ => ?_)
    refine only_bind (only_copyChunks item hitem.append _ _) (fun _ => ?_)
    refine only_bind (only_attempt hitem.sync) (fun _ => ?_)
    exact only_bind only_failIf (fun _ => only_failIf)

end

theorem only_writeAtomic (target : String) (bytes : List UInt8) (maxBytes : Nat) :
    Only (Op.Within name) (writeAtomic name target bytes maxBytes) := by
  refine only_bind only_failIf (fun _ => ?_)
  refine only_bind (only_ensurePrivateDirectory trivial trivial rfl) (fun _ => ?_)
  refine only_bind (only_attempt rfl) (fun _ => only_bind (only_attempt rfl) (fun _ => ?_))
  exact only_bind (only_attempt rfl) (fun _ => only_attempt rfl)

theorem only_stageBundle (packaged : Packaged) :
    Only (Op.Within name) (stageBundle platform packaged name) := by
  refine only_bind (only_copyAssets (fun _ _ => ⟨rfl, trivial, rfl, fun _ => rfl, rfl⟩)) (fun _ => ?_)
  refine only_bind (only_writeAtomic _ _ _) (fun _ => ?_)
  refine only_bind (only_writeAtomic _ _ _) (fun _ => only_bind ?_ (fun _ => only_failIf))
  refine only_bind (only_settle ?_) (fun verified => ?_)
  · exact (only_verifySteps name _ _).mono (fun _ ho => ho.within)
  · cases verified with
    | ok v => exact only_pure _
    | error e => exact only_pure _

theorem wp_stageBundle {packaged : Packaged} (hread : packaged.Read platform)
    (hJ : ∀ t, Elsewhere name s.root t.root → J t) :
    Wp (Watched assets J) () (stageBundle platform packaged name)
      (fun _ t => Holds platform t.root name (some packaged.sha) ∧ Elsewhere name s.root t.root)
      (fun _ t => Elsewhere name s.root t.root) s :=
  Wp.mono trivial (wp_watch (gives_stageBundle hread) (wp_within (only_stageBundle packaged) hJ))
    (fun _ _ _ h => h) (fun _ _ _ h => h.2)

/-- What staging leaves alone: everything but the staging directory. -/
structure Beside (platform : Platform) (before clean : Prop) (stage : String) (root : Root) : Prop where
  kept : Kept platform before root currentName previousName
  clean : clean → root.CleanBut stage

theorem stage_ne {stage : String} (hstage : isStage stage = true) :
    currentName ≠ stage ∧ previousName ≠ stage := by
  constructor
  · rintro rfl
    exact absurd hstage (by decide)
  · rintro rfl
    exact absurd hstage (by decide)

theorem Beside.elsewhere {stage : String} {root later : Root} (hstage : isStage stage = true)
    (h : Beside platform before clean stage root) (helse : Elsewhere stage root later) :
    Beside platform before clean stage later := by
  obtain ⟨hcurrent, hprevious⟩ := stage_ne hstage
  refine ⟨h.kept.congr (helse _ hcurrent) (helse _ hprevious), fun hclean name hname hne => ?_⟩
  rw [helse name hne]
  exact h.clean hclean name hname hne

/-- The stage stays as it is while the other directories are moved. -/
theorem Beside.holds {stage : String} {expected : Option String} {root later : Root}
    (h : Holds platform root stage expected) (hsame : later.lookup stage = root.lookup stage) :
    Holds platform later stage expected := by
  obtain ⟨dir, hdir, hcomplete⟩ := h
  exact ⟨dir, hsame.trans hdir, hcomplete⟩

section Commit

variable {stage : String} {expected : Option String}

theorem wp_makeRoom (hstage : isStage stage = true) (h : Beside platform before clean stage s.root)
    (hwhole : before → s.root.whole platform currentName = true)
    (hholds : Holds platform s.root stage expected) :
    Wp (Watched assets (Intact platform before)) () makeRoom
      (fun _ t => Beside platform before clean stage t.root ∧ Holds platform t.root stage expected)
      (fun _ => Intact platform before) s := by
  obtain ⟨hcurrent, hprevious⟩ := stage_ne hstage
  have hkept : ∀ t, Shed platform previousName s t → Intact platform before t :=
    fun t hshed => (h.kept.shed current_ne_previous hwhole hshed).1
  refine wp_seq trivial (wp_deleteTree hkept) (fun _ t _ hend => ?_) (fun _ t _ hshed => hkept t hshed)
  have hbeside : Beside platform before clean stage t.root := by
    refine ⟨hkept t hend.1, fun hclean name hname hne => ?_⟩
    have hother : name ≠ previousName := by
      rintro rfl
      exact absurd hname (by decide)
    rw [hend.1.elsewhere name hother]
    exact h.clean hclean name hname hne
  have hstaged : Holds platform t.root stage expected :=
    Beside.holds hholds (hend.1.elsewhere stage hprevious.symm)
  refine wp_bind (wp_present hbeside.kept (fun present u hu _ _ _ => ?_))
  have hintact : ∀ v : Store, v.root = u.root → Intact platform before v := by
    intro v hv
    unfold Intact
    rw [hv, hu]
    exact hbeside.kept
  rw [← hu] at hbeside hstaged
  split
  · refine Wp.mono trivial (wp_moveSameFilesystem current_ne_previous hintact)
      (fun _ v _ hmoved => ?_) (fun _ v _ hroot => hintact v hroot)
    refine ⟨⟨(hbeside.kept.move hmoved).1, fun hclean name hname hne => ?_⟩,
      Beside.holds hstaged (hmoved.elsewhere stage hcurrent.symm hprevious.symm)⟩
    have hnotCurrent : name ≠ currentName := by
      rintro rfl
      exact absurd hname (by decide)
    have hnotPrevious : name ≠ previousName := by
      rintro rfl
      exact absurd hname (by decide)
    rw [hmoved.elsewhere name hnotCurrent hnotPrevious]
    exact hbeside.clean hclean name hname hne
  · exact wp_pure ⟨hbeside, hstaged⟩

theorem wp_restorePrevious (h : Intact platform before s) :
    Wp (Watched assets (Intact platform before)) () restorePrevious
      (fun _ => Intact platform before) (fun _ => Intact platform before) s := by
  refine wp_bind (wp_present h (fun present t ht _ _ _ => ?_))
  have hintact : ∀ u : Store, u.root = t.root → Intact platform before u := by
    intro u hu
    unfold Intact
    rw [hu, ht]
    exact h
  split
  · refine Wp.mono trivial (wp_moveSameFilesystem current_ne_previous.symm hintact)
      (fun _ u _ hmoved => ?_) (fun _ u _ hroot => hintact u hroot)
    exact ((Kept.symm (hintact t rfl)).move hmoved).1.symm
  · exact wp_pure (hintact t rfl)

theorem wp_undoCommit (h : Intact platform before s) :
    Wp (Watched assets (Intact platform before)) () undoCommit
      (fun _ => Intact platform before) (fun _ => Intact platform before) s := by
  refine wp_bind (wp_present h (fun present t ht _ _ _ => ?_))
  have hintact : Intact platform before t := by
    unfold Intact
    rw [ht]
    exact h
  split
  · exact wp_restorePrevious hintact
  · exact wp_pure hintact

/-- The tree has been committed, and the tree it replaced is the previous one. -/
structure Committed (platform : Platform) (before clean : Prop) (expected : Option String)
    (root : Root) : Prop where
  kept : Kept platform before root currentName previousName
  holds : Holds platform root currentName expected
  previous : before → root.whole platform previousName = true
  clean : clean → root.Clean

theorem wp_commitStage (hstage : isStage stage = true) (h : Beside platform before clean stage s.root)
    (hwhole : before → s.root.whole platform currentName = true)
    (hholds : Holds platform s.root stage expected) :
    Wp (Watched assets (Intact platform before)) () (commitStage stage)
      (fun _ t => Committed platform before clean expected t.root) (fun _ => Intact platform before)
      s := by
  obtain ⟨hcurrent, hprevious⟩ := stage_ne hstage
  refine wp_seq trivial (wp_makeRoom hstage h hwhole hholds) (fun _ t _ hroom => ?_)
    (fun _ _ _ hintact => hintact)
  obtain ⟨hbeside, hstaged⟩ := hroom
  have hintact : ∀ u : Store, u.root = t.root → Intact platform before u := by
    intro u hu
    unfold Intact
    rw [hu]
    exact hbeside.kept
  refine wp_bind (wp_settle (Wp.mono trivial (wp_moveSameFilesystem hcurrent.symm hintact)
    (fun _ u _ hmoved => ?_) (fun _ u _ hroot => ?_)))
  · obtain ⟨hkept, hnow, hold⟩ :=
      hbeside.kept.replace hprevious current_ne_previous.symm hstaged hmoved
    refine wp_pure ⟨hkept, hnow, hold, fun hclean name hname => ?_⟩
    by_cases hsame : name = stage
    · rw [hsame]
      exact hmoved.left
    · have hnotCurrent : name ≠ currentName := by
        rintro rfl
        exact absurd hname (by decide)
      rw [hmoved.elsewhere name hsame hnotCurrent]
      exact hbeside.clean hclean name hname hsame
  · exact wp_seq trivial (wp_undoCommit (hintact u hroot)) (fun _ _ _ hundone => wp_throw hundone)
      (fun _ _ _ hundone => hundone)

end Commit

/-! ## A call after recovery -/

/-- What a call that returns a verified result has established. -/
structure Installed (platform : Platform) (before clean : Prop) (expected : String) (root : Root) :
    Prop where
  kept : Kept platform before root currentName previousName
  holds : Holds platform root currentName (some expected)
  clean : clean → root.Clean

theorem whole_of_holds {expected : Option String} {root : Root}
    (h : Holds platform root name expected) : root.whole platform name = true := by
  obtain ⟨dir, hdir, hcomplete⟩ := h
  unfold Root.whole
  rw [hdir]
  exact Dir.complete_none hcomplete

theorem wp_deletePrevious_installed {expected : String} (h : Held platform before clean s.root)
    (hholds : Holds platform s.root currentName (some expected)) :
    Wp (Watched assets (Intact platform before)) () (deleteTree previousName)
      (fun _ t => Installed platform before clean expected t.root) (fun _ => Intact platform before)
      s := by
  refine Wp.mono trivial (wp_deletePrevious h) (fun _ t _ hend => ?_) (fun _ _ _ hintact => hintact)
  exact ⟨hend.1.kept, Beside.holds hholds hend.2, hend.1.clean⟩

theorem wp_finishInstall {packaged : Packaged}
    (h : Committed platform before clean (some packaged.sha) s.root) :
    Wp (Watched assets (Intact platform before)) () (finishInstall platform packaged)
      (fun _ t => Installed platform before clean packaged.sha t.root)
      (fun _ => Intact platform before) s := by
  refine wp_bind (wp_verifyInstalled currentName (some packaged.sha) true h.kept |>.mono trivial ?_
    (fun _ _ _ he => he))
  rintro installed t - ⟨rfl, -⟩
  split
  · have hheld : Held platform before clean t.root :=
      ⟨h.kept, fun _ => whole_of_holds h.holds, h.clean⟩
    exact wp_seq trivial (wp_deletePrevious_installed hheld h.holds) (fun _ _ _ hdone => wp_pure hdone)
      (fun _ _ _ hintact => hintact)
  · -- withdrawing the new tree keeps the previous one
    have hkept : ∀ u, Shed platform currentName t u → Intact platform before u :=
      fun u hshed => (h.kept.symm.shed current_ne_previous.symm h.previous hshed).1.symm
    refine wp_seq trivial (wp_deleteTree hkept) (fun _ u _ hend => ?_) (fun _ u _ hshed => hkept u hshed)
    exact wp_seq trivial (wp_restorePrevious (hkept u hend.1)) (fun _ _ _ hintact => wp_throw hintact)
      (fun _ _ _ hintact => hintact)

theorem isStage_stageName (tree : String) : isStage (stageName tree) = true := by
  unfold isStage stageName
  rw [String.toList_append, List.isPrefixOf_iff_prefix]
  exact List.prefix_append _ _

/-- **A call after its recovery step.**  The complete tree is never lost, and what is returned is
    true. -/
theorem wp_installRecovered {packaged : Packaged} (hread : packaged.Read platform)
    (h : Held platform before clean s.root) :
    Wp (Watched assets (Intact platform before)) () (installRecovered platform packaged)
      (fun _ t => Installed platform before clean packaged.sha t.root)
      (fun _ => Intact platform before) s := by
  refine wp_bind (wp_verifyInstalled currentName (some packaged.sha) true h.kept |>.mono trivial ?_
    (fun _ _ _ he => he))
  rintro verification t - ⟨rfl, hseen⟩
  split
  · rename_i hvalid
    obtain ⟨dir, sha, manifest, hdir, hverified⟩ := hseen hvalid
    have hcomplete : dir.complete platform none = true :=
      (h.kept.left dir hdir).resolve_right (fun hgappy => hgappy.not_verified hverified)
    have hholds : Holds platform t.root currentName (some packaged.sha) :=
      ⟨dir, hdir, Dir.complete_expected hcomplete hverified⟩
    exact wp_seq trivial (wp_deletePrevious_installed h hholds) (fun _ _ _ hdone => wp_pure hdone)
      (fun _ _ _ hintact => hintact)
  -- what follows up to the commit only touches the staging directory
  dsimp only
  have hstage := isStage_stageName packaged.manifest.treeSha256
  generalize stageName packaged.manifest.treeSha256 = stage at hstage ⊢
  have hbeside : Beside platform before clean stage t.root :=
    ⟨h.kept, fun hclean name hname _ => h.clean hclean name hname⟩
  have hgoes : ∀ {u v : Store}, Intact platform before u → Shed platform stage u v →
      Intact platform before v := by
    intro u v hintact hshed
    exact hintact.congr (hshed.elsewhere _ (stage_ne hstage).1) (hshed.elsewhere _ (stage_ne hstage).2)
  have hwithin : ∀ {u v : Store}, Elsewhere stage u.root v.root → Intact platform before u →
      Intact platform before v := by
    intro u v helse hintact
    exact hintact.congr (helse _ (stage_ne hstage).1) (helse _ (stage_ne hstage).2)
  refine wp_seq trivial (wp_deleteTree (fun u hshed => hgoes h.kept hshed)) (fun _ u _ hend => ?_)
    (fun _ u _ hshed => hgoes h.kept hshed)
  have hu : Elsewhere stage t.root u.root := hend.1.elsewhere
  refine wp_seq trivial (wp_within (only_ensurePrivateDirectory trivial trivial rfl) (fun v hv => hwithin hv (hwithin hu h.kept)))
    (fun _ v _ hv => ?_) (fun _ v _ hv => hwithin hv (hwithin hu h.kept))
  have hv' : Elsewhere stage t.root v.root := fun other hother => (hv other hother).trans (hu other hother)
  have hintact : Intact platform before v := hwithin hv' h.kept
  refine wp_bind (wp_settle (wp_bind (Wp.mono trivial
    (wp_stageBundle hread (fun w hw => hwithin hw hintact)) (fun _ w _ hw => ?_) (fun _ w _ hw => ?_))))
  · -- the stage holds the bundle, and is committed
    have hw' : Elsewhere stage t.root w.root :=
      fun other hother => (hw.2 other hother).trans (hv' other hother)
    have hwhole : before → w.root.whole platform currentName = true := by
      intro hbefore
      rw [whole_congr (hw' _ (stage_ne hstage).1)]
      exact h.whole hbefore
    refine Wp.mono trivial (wp_commitStage hstage (hbeside.elsewhere hstage hw') hwhole hw.1)
      (fun _ x _ hcommitted => wp_finishInstall hcommitted) (fun _ x _ hintact => ?_)
    exact wp_seq trivial (wp_deleteTree (fun y hshed => hgoes hintact hshed))
      (fun _ y _ hend => wp_throw (hgoes hintact hend.1)) (fun _ y _ hshed => hgoes hintact hshed)
  · have hintact' : Intact platform before w := hwithin hw hintact
    exact wp_seq trivial (wp_deleteTree (fun y hshed => hgoes hintact' hshed))
      (fun _ y _ hend => wp_throw (hgoes hintact' hend.1)) (fun _ y _ hshed => hgoes hintact' hshed)

/-! ## A call up to recovery -/

/-- What cleaning up stages may have done so far. -/
structure Swept (s t : Store) : Prop where
  stays : ∀ name, isStage name = false → t.root.lookup name = s.root.lookup name
  gone : ∀ name, s.root.lookup name = none → t.root.lookup name = none
  hidden : s.hidden = true → t.hidden = true

theorem Swept.refl : Swept s s := ⟨fun _ _ => rfl, fun _ h => h, id⟩

theorem Swept.shed (h : Swept s t) (hname : isStage name = true) (hshed : Shed platform name t u) :
    Swept s u := by
  refine ⟨fun other hother => ?_, fun other hother => ?_, fun hs => hshed.hidden (h.hidden hs)⟩
  · have hne : other ≠ name := by
      rintro rfl
      rw [hname] at hother
      cases hother
    rw [hshed.elsewhere other hne]
    exact h.stays other hother
  · by_cases hsame : other = name
    · rw [hsame] at hother ⊢
      exact hshed.gone (h.gone name hother)
    · rw [hshed.elsewhere other hsame]
      exact h.gone other hother

theorem Swept.trans (h : Swept s t) (h' : Swept t u) : Swept s u :=
  ⟨fun name hname => (h'.stays name hname).trans (h.stays name hname),
    fun name hname => h'.gone name (h.gone name hname), fun hs => h'.hidden (h.hidden hs)⟩

theorem Swept.intact (h : Swept s t) (hintact : Intact platform before s) : Intact platform before t :=
  Kept.congr hintact (h.stays _ (by decide)) (h.stays _ (by decide))

theorem wp_deleteTrees (names : List String) (hnames : ∀ name ∈ names, isStage name = true)
    (h : Intact platform before s) :
    Wp (Watched assets (Intact platform before)) () (deleteTrees names)
      (fun _ t => Swept s t ∧ (t.hidden = true ∨ ∀ name ∈ names, t.root.lookup name = none))
      (fun _ t => Swept s t) s := by
  induction names generalizing s with
  | nil => exact wp_pure ⟨Swept.refl, .inr (fun _ hname => by cases hname)⟩
  | cons child rest ih =>
    have hchild := hnames child List.mem_cons_self
    have hswept : ∀ t, Shed platform child s t → Swept s t := fun t hshed => Swept.refl.shed hchild hshed
    refine wp_seq trivial (wp_deleteTree (fun t hshed => (hswept t hshed).intact h))
      (fun _ t _ hend => ?_) (fun _ t _ hshed => hswept t hshed)
    have hfirst := hswept t hend.1
    refine Wp.mono trivial (ih (fun name hname => hnames name (List.mem_cons_of_mem _ hname))
      (hfirst.intact h)) (fun _ u _ hrest => ⟨hfirst.trans hrest.1, ?_⟩)
      (fun _ u _ hrest => hfirst.trans hrest)
    rcases hrest.2 with hhidden | hgone
    · exact .inl hhidden
    rcases hend.2 with hhidden | hchildGone
    · exact .inl (hrest.1.hidden hhidden)
    · refine .inr (fun name hname => ?_)
      rcases List.mem_cons.mp hname with rfl | hin
      · exact hrest.1.gone name hchildGone
      · exact hgone name hin

/-- **Cleaning up.**  No staging directory is left, or one has been reported absent. -/
theorem wp_cleanupStaleStages (h : Intact platform before s) :
    Wp (Watched assets (Intact platform before)) () cleanupStaleStages
      (fun _ t => Swept s t ∧ (t.hidden = false → t.root.Clean)) (fun _ t => Swept s t) s := by
  have hkeys : ∀ name, s.root.lookup name ≠ none → name ∈ s.root.keys := by
    intro name hname
    rw [← AList.mem_keys, ← AList.lookup_isSome]
    exact Option.isSome_iff_ne_none.mpr hname
  refine wp_bind (wp_op h (fun fault => ?_))
  cases fault with
  | some fault =>
    -- nothing could be listed
    refine wp_pure ⟨⟨fun _ _ => rfl, fun _ hgone => hgone, fun hs => ?_⟩, fun hseen name hname => ?_⟩
    · show (s.hidden || _) = true
      rw [hs]
      rfl
    · by_contra hthere
      have hany : s.root.keys.any isStage = true :=
        List.any_eq_true.mpr ⟨name, hkeys name hthere, hname⟩
      change (s.hidden || s.root.keys.any isStage) = false at hseen
      rw [hany, Bool.or_true] at hseen
      cases hseen
  | none =>
    refine Wp.mono trivial (wp_deleteTrees (s.root.keys.filter isStage)
      (fun name hname => (List.mem_filter.mp hname).2) h) (fun _ t _ hend => ⟨hend.1, ?_⟩)
      (fun _ _ _ hswept => hswept)
    intro hseen name hname
    rcases hend.2 with hhidden | hgone
    · rw [hseen] at hhidden
      cases hhidden
    · by_contra hthere
      have hbefore : s.root.lookup name ≠ none := fun hnone => hthere (hend.1.gone name hnone)
      exact hthere (hgone name (List.mem_filter.mpr ⟨hkeys name hbefore, hname⟩))

end

/-- A call up to its recovery step. -/
def approach (platform : Platform) : Program (Option Packaged) := do
  match ← settle (readAssetBounded manifestName maxManifestBytes) with
  | .error missing =>
    if missing.simpleName = "FileNotFoundException" then return none else throw missing
  | .ok bytes =>
    let manifest ← resume (BundleManifest.parse platform bytes)
    let sha := platform.sha256 bytes
    perform .openRuntimeRoot
    cleanupStaleStages
    return some ⟨manifest, bytes, sha⟩

/-- The rest of the call. -/
def proceed (platform : Platform) : Option Packaged → Program Result
  | none => return .notPackaged
  | some packaged => do
    recoverPreviousIfNeeded platform
    installRecovered platform packaged

/-- A call up to the end of its recovery step, if it has one. -/
def throughRecovery (platform : Platform) : Program Bool := do
  match ← approach platform with
  | none => return false
  | some _ => do
    recoverPreviousIfNeeded platform
    return true

theorem ensureInstalled_eq (platform : Platform) :
    ensureInstalled platform = approach platform >>= proceed platform := by
  unfold ensureInstalled approach
  rw [prog_bind_assoc]
  congr 1
  funext r
  cases r with
  | error missing =>
    dsimp only
    split
    · rfl
    · rfl
  | ok bytes =>
    dsimp only
    rw [prog_bind_assoc]
    congr 1
    funext manifest
    rw [prog_bind_assoc]
    congr 1
    funext opened
    rw [prog_bind_assoc]
    rfl

section

variable {before : Prop}

/-- What an asset is read as. -/
theorem wp_readAssetBounded {J : Store → Prop} {path : String} {maxBytes : Nat} (hJ : J s) :
    Wp (Watched assets J) () (readAssetBounded path maxBytes)
      (fun bytes t => t = s ∧ assets.lookup path = some bytes) (fun _ t => t = s) s := by
  refine wp_bind (wp_op hJ (fun fault => ?_))
  rw [exec_looks (by trivial)]
  cases fault with
  | some fault => rfl
  | none =>
    rw [exec]
    dsimp only [calm]
    split
    · rfl
    · rename_i bytes hbytes
      refine wp_resume ?_
      unfold readBounded
      split
      · rfl
      · exact ⟨rfl, hbytes⟩

theorem wp_approach (h : Intact platform before s) :
    Wp (Watched assets (Intact platform before)) () (approach platform)
      (fun r t => Intact platform before t ∧ ∀ packaged, r = some packaged →
        packaged.Read platform ∧ assets.lookup manifestName = some packaged.bytes ∧
          (t.hidden = false → t.root.Clean))
      (fun _ => Intact platform before) s := by
  refine wp_bind (wp_settle (Wp.mono trivial (wp_readAssetBounded h) (fun bytes t _ ht => ?_)
    (fun e t _ ht => ?_)))
  · obtain ⟨rfl, hbytes⟩ := ht
    refine wp_bind (wp_resume ?_)
    cases hparsed : BundleManifest.parse platform bytes with
    | error e => exact h
    | ok manifest =>
      refine wp_bind (wp_op h (fun fault => ?_))
      cases fault with
      | some fault => exact h
      | none =>
        refine wp_seq trivial (wp_cleanupStaleStages h) (fun _ u _ hswept => ?_)
          (fun _ u _ hswept => hswept.intact h)
        refine wp_pure ⟨hswept.1.intact h, fun packaged hpackaged => ?_⟩
        cases hpackaged
        exact ⟨⟨hparsed, rfl⟩, hbytes, hswept.2⟩
  · subst ht
    dsimp only
    split
    · exact wp_pure ⟨h, fun _ hnone => by cases hnone⟩
    · exact wp_throw h

/-- Where nothing is installed there is nothing to clean up. -/
theorem wp_approach_fresh : Wp (Watched assets (fun _ => True)) () (approach platform)
    (fun _ t => t = ⟨∅, false⟩) (fun _ t => t = ⟨∅, false⟩) ⟨∅, false⟩ := by
  refine wp_bind (wp_settle (Wp.mono trivial (wp_readAssetBounded trivial)
    (fun bytes t _ ht => ?_) (fun e t _ ht => ?_)))
  · obtain ⟨rfl, -⟩ := ht
    refine wp_bind (wp_resume ?_)
    cases BundleManifest.parse platform bytes with
    | error e => rfl
    | ok manifest =>
      refine wp_bind (wp_op trivial (fun fault => ?_))
      cases fault with
      | some fault => rfl
      | none =>
        refine wp_bind (wp_bind (wp_op trivial (fun fault => ?_)))
        cases fault with
        | some fault => rfl
        | none => exact wp_pure (wp_pure rfl)
  · subst ht
    dsimp only
    split
    · exact wp_pure rfl
    · exact wp_throw rfl

end

end VibeCoder.Installer
