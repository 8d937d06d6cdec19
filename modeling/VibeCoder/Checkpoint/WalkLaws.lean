/-
  What the tree walkers compute.

  * `treeState`          — the state a walk ends in, as a function of the tree: nothing when the
    walk must give up;
  * `treeState_congr`    — it depends on nothing but the tree;
  * `wp_hashDirRecursive` — the hashing walker ends in that state or fails, and it fails only when
    a request does or when there is no such state;
  * `wp_copyDirRecursive` — so does the copying walker, and then the copy is the tree.

  The rules are stated for one program that is watched: a condition `J` that survives changes
  below the destination holds all along.
-/
import VibeCoder.Checkpoint.Walk

namespace VibeCoder.Checkpoint

open Resume Files

/-! ## The result of a walk -/

/-- The state after a file. -/
def fileState (relative : String) (content : List UInt8) (executable : Bool) (links : Nat)
    (s : DigestState) : Option DigestState :=
  if links = 1 then
    (s.beginFile relative content.length executable).toOption.map (·.update content)
  else none

/-- The state after an entry. -/
def entryState (child : Path → String → DigestState → Option DigestState) (d : Disk)
    (root : Path) (pfx : String) (s : DigestState) (name : String) : Option DigestState :=
  match d.node (root ++ [name]) with
  | some .dir =>
    child (root ++ [name]) (relativePath pfx name) (s.recordDir (relativePath pfx name))
  | some (.leaf (.file content executable links)) =>
    fileState (relativePath pfx name) content executable links s
  | some (.leaf .symlink) | some (.leaf .special) | none => none

/-- The state after a directory. -/
def treeState (d : Disk) : (levels : Nat) → (root : Path) → (pfx : String) → DigestState →
    Option DigestState
  | 0, _, _, _ => none
  | levels + 1, root, pfx, s =>
    if d.node root = some .dir ∧ (d.sortedNames root).all acceptedName = true then
      (d.sortedNames root).foldlM (entryState (treeState d levels) d root pfx) s
    else none

/-- Equal trees give equal states. -/
theorem treeState_congr {d t : Disk} {levels : Nat} {p q : Path} {pfx : String} {s : DigestState}
    (h : t.sub q = d.sub p) : treeState t levels q pfx s = treeState d levels p pfx s := by
  induction levels generalizing p q pfx s with
  | zero => rfl
  | succ levels ih =>
    have hroot : t.node q = d.node p := by
      rw [← FileTree.sub_nil, h, FileTree.sub_nil]
    have hnames : t.sortedNames q = d.sortedNames p := FileTree.sortedNames_congr h
    have hentry : entryState (treeState t levels) t q pfx =
        entryState (treeState d levels) d p pfx := by
      funext s name
      have hnode : t.node (q ++ [name]) = d.node (p ++ [name]) := congrFun h [name]
      have hchild : t.sub (q ++ [name]) = d.sub (p ++ [name]) := by
        funext rel
        rw [FileTree.sub_append, FileTree.sub_append, h]
      unfold entryState
      rw [hnode]
      split
      · exact ih hchild
      · rfl
      · rfl
      · rfl
      · rfl
    unfold treeState
    rw [hroot, hnames, hentry]

/-! ## Watched programs -/

/-- One method, watched. -/
abbrev Watch (A : World → Prop) (J : Disk → Prop) :=
  Setting.watched Disk.exec A J

/-- No request fails by itself. -/
def Calm (A : World → Prop) : Prop := ∀ w, A w → w.fails = false

variable {A : World → Prop} {J : Disk → Prop} {α β : Type} {d : Disk}

/-- One request. -/
theorem wp_ioAs {o : Op} {e : VibeCoderError} {Q : o.Val → Disk → Prop}
    {E : VibeCoderError → Disk → Prop} (hJ : J d)
    (hok : ∀ w, A w → Post Q (fun _ => E e) (d.perform w o).1 (d.perform w o).2)
    (hfail : ∀ w, A w → w.fails = true → o.removal = false → E e (d.afterFailure w o)) :
    Wp (Watch A J) () (ioAs e o) Q E d := by
  refine wp_bind (wp_settle (wp_attempt hJ (fun w hw t hrely _ => ?_)))
  have ht : (Disk.exec w o d).2 = t := hrely
  rw [← ht]
  show Post _ _ (Disk.exec w o d).1 (Disk.exec w o d).2
  have hboth : Post Q (fun _ => E e) (Disk.exec w o d).1 (Disk.exec w o d).2 := by
    unfold Disk.exec
    split
    · rename_i hfails
      simp only [Bool.and_eq_true, Bool.not_eq_true'] at hfails
      exact hfail w hw hfails.1 hfails.2
    · exact hok w hw
  revert hboth
  cases (Disk.exec w o d).1 with
  | error e' => exact fun hboth => wp_throw hboth
  | ok v => exact fun hboth => wp_pure hboth

/-- A request that is no removal, in surroundings where nothing fails. -/
theorem Calm.fails {w : World} (h : Calm A) (hw : A w) (hfails : w.fails = true) : False := by
  rw [h w hw] at hfails
  cases hfails

/-- A request that only reads. -/
theorem wp_read {o : Op} {code : String} {v : Result o.Val} (hJ : J d)
    (hperform : ∀ w, d.perform w o = (v, d)) (hafter : ∀ w, d.afterFailure w o = d) :
    Wp (Watch A J) () (io o code) (fun x t => t = d ∧ v = .ok x)
      (fun _ t => t = d ∧ (Calm A → ∃ e, v = .error e)) d := by
  refine wp_ioAs hJ (fun w _ => ?_) (fun w hw hfails _ => ?_)
  · rw [hperform w]
    show Post _ _ v d
    cases v with
    | ok x => exact ⟨rfl, rfl⟩
    | error e => exact ⟨rfl, fun _ => ⟨e, rfl⟩⟩
  · exact ⟨hafter w, fun hcalm => (hcalm.fails hw hfails).elim⟩

theorem wp_refuse {c : Bool} {e : VibeCoderError} {f : Unit → StoreM α} {Q : α → Disk → Prop}
    {E : VibeCoderError → Disk → Prop} (htrue : c = true → E e d)
    (hfalse : c = false → Wp (Watch A J) () (f ()) Q E d) :
    Wp (Watch A J) () (refuse c e >>= f) Q E d := by
  refine wp_bind (wp_resume ?_)
  cases c with
  | true => exact htrue rfl
  | false => exact hfalse rfl

/-- A request that succeeds on directories. -/
theorem wp_dirCheck {q : StoreM Unit} {p : Path}
    (h : Wp (Watch A J) () q
      (fun x t => t = d ∧
        (if d.node p = some .dir then .ok () else .error ioError : Result Unit) = .ok x)
      (fun _ t => t = d ∧ (Calm A → ∃ e,
        (if d.node p = some .dir then .ok () else .error ioError : Result Unit) = .error e)) d) :
    Wp (Watch A J) () q (fun _ t => t = d ∧ d.node p = some .dir)
      (fun _ t => t = d ∧ (Calm A → d.node p ≠ some .dir)) d := by
  refine Wp.mono trivial h ?_ ?_
  · rintro x t - ⟨ht, hx⟩
    refine ⟨ht, ?_⟩
    by_contra hdir
    rw [if_neg hdir] at hx
    cases hx
  · rintro e t - ⟨ht, he⟩
    refine ⟨ht, fun hcalm hdir => ?_⟩
    obtain ⟨e', he'⟩ := he hcalm
    rw [if_pos hdir] at he'
    cases he'

theorem wp_openDir {p : Path} {code : String} (hJ : J d) :
    Wp (Watch A J) () (io (.openDir p) code) (fun _ t => t = d ∧ d.node p = some .dir)
      (fun _ t => t = d ∧ (Calm A → d.node p ≠ some .dir)) d :=
  wp_dirCheck (wp_read hJ (fun _ => rfl) (fun _ => rfl))

theorem followed_some {p : Path} {x : Node Leaf} (h : d.node p = some x)
    (hx : x ≠ .leaf .symlink) : d.followed p = .ok (Stat.of x) := by
  unfold Disk.followed
  rw [h]
  rcases x with _ | _ | _ | _
  · rfl
  · rfl
  · exact absurd rfl hx
  · rfl

/-- A request that succeeds on whatever is no symbolic link. -/
theorem wp_followed {o : Op} {p : Path} {code : String} {f : Stat → o.Val} (hJ : J d)
    (hperform : ∀ w, d.perform w o = ((d.followed p).map f, d))
    (hafter : ∀ w, d.afterFailure w o = d) :
    Wp (Watch A J) () (io o code)
      (fun x t => t = d ∧ ∃ stat, d.followed p = .ok stat ∧ x = f stat)
      (fun _ t => t = d ∧ (Calm A → ∃ e, d.followed p = .error e)) d := by
  refine Wp.mono trivial (wp_read hJ hperform hafter) ?_ ?_
  · rintro x t - ⟨ht, hx⟩
    refine ⟨ht, ?_⟩
    rcases hfollowed : d.followed p with e | stat
    · rw [hfollowed] at hx
      cases hx
    · rw [hfollowed] at hx
      cases hx
      exact ⟨stat, rfl, rfl⟩
  · rintro e t - ⟨ht, he⟩
    refine ⟨ht, fun hcalm => ?_⟩
    obtain ⟨e', he'⟩ := he hcalm
    rcases hfollowed : d.followed p with e | stat
    · exact ⟨e, rfl⟩
    · rw [hfollowed] at he'
      cases he'

theorem wp_metadata {p : Path} {code : String} (hJ : J d) :
    Wp (Watch A J) () (io (.metadata p) code) (fun stat t => t = d ∧ d.followed p = .ok stat)
      (fun _ t => t = d ∧ (Calm A → ∃ e, d.followed p = .error e)) d := by
  have hperform : ∀ w, d.perform w (.metadata p) = ((d.followed p).map id, d) := by
    intro w
    rw [Except.map_id]
    rfl
  refine Wp.mono trivial (wp_followed (o := .metadata p) hJ hperform (fun _ => rfl)) ?_
    (fun _ _ _ h => h)
  rintro x t - ⟨ht, stat, hstat, rfl⟩
  exact ⟨ht, hstat⟩

theorem not_dir_of_error {p : Path} {e : VibeCoderError} (h : d.followed p = .error e) :
    d.node p ≠ some .dir := by
  intro hdir
  rw [followed_some hdir (fun hcontra => by cases hcontra)] at h
  cases h

theorem wp_setPrivateDirMode {p : Path} (hJ : J d) :
    Wp (Watch A J) () (setPrivateDirMode p) (fun _ t => t = d)
      (fun _ t => t = d ∧ (Calm A → d.node p ≠ some .dir)) d := by
  have herror : ∀ t : Disk, t = d ∧ (Calm A → ∃ e, d.followed p = .error e) →
      t = d ∧ (Calm A → d.node p ≠ some .dir) := by
    rintro t ⟨ht, he⟩
    refine ⟨ht, fun hcalm => ?_⟩
    obtain ⟨e, hfollowed⟩ := he hcalm
    exact not_dir_of_error hfollowed
  refine wp_seq trivial (wp_metadata hJ) ?_ (fun _ t _ h => herror t h)
  rintro _ t - ⟨rfl, -⟩
  exact Wp.mono trivial (wp_followed (o := .setMode p) hJ (fun _ => rfl) (fun _ => rfl))
    (fun _ _ _ h => h.1) (fun _ u _ h => herror u h)

theorem wp_syncDir {p : Path} (hJ : J d) :
    Wp (Watch A J) () (syncDir p) (fun _ t => t = d ∧ d.node p = some .dir)
      (fun _ t => t = d ∧ (Calm A → d.node p ≠ some .dir)) d := by
  refine wp_seq trivial (wp_openDir hJ) ?_ (fun _ _ _ h => h)
  rintro _ t - ⟨rfl, -⟩
  exact wp_dirCheck (wp_read hJ (fun _ => rfl) (fun _ => rfl))

theorem wp_symlinkMetadata {p : Path} {code : String} (hJ : J d) :
    Wp (Watch A J) () (symlinkMetadata p code)
      (fun stat t => t = d ∧ (d.node p).map Stat.of = some stat)
      (fun _ t => t = d ∧ (Calm A → d.node p = none)) d := by
  refine wp_seq trivial (wp_read hJ (fun _ => rfl) (fun _ => rfl)) ?_ ?_
  · rintro found t - ⟨rfl, hfound⟩
    refine wp_resume ?_
    cases hfound
    rcases hnode : t.node p with _ | x
    · exact ⟨rfl, fun _ => rfl⟩
    · exact ⟨rfl, rfl⟩
  · rintro e t - ⟨rfl, he⟩
    refine ⟨rfl, fun hcalm => ?_⟩
    obtain ⟨e', he'⟩ := he hcalm
    cases he'

/-- The names a walker goes through. -/
theorem wp_pinDirectory {p : Path} (hJ : J d) :
    Wp (Watch A J) () (pinDirectory p)
      (fun names t => t = d ∧ names = d.sortedNames p ∧ d.node p = some .dir ∧
        (d.sortedNames p).all acceptedName = true)
      (fun _ t => t = d ∧ (Calm A → ¬ (d.node p = some .dir ∧
        (d.sortedNames p).all acceptedName = true))) d := by
  refine wp_seq trivial (wp_openDir hJ) ?_
    (fun _ _ _ h => ⟨h.1, fun hcalm hdir => h.2 hcalm hdir.1⟩)
  rintro _ t - ⟨rfl, hdir⟩
  have hfollowed := followed_some hdir (fun hcontra => by cases hcontra)
  refine wp_seq trivial (wp_metadata hJ) ?_ ?_
  swap
  · rintro e u - ⟨rfl, he⟩
    refine ⟨rfl, fun hcalm _ => ?_⟩
    obtain ⟨e', he'⟩ := he hcalm
    rw [hfollowed] at he'
    cases he'
  rintro stat u - ⟨rfl, hstat⟩
  rw [hfollowed] at hstat
  cases hstat
  refine wp_refuse (fun h => by cases h) (fun _ => ?_)
  refine wp_seq trivial (wp_read hJ (fun _ => rfl) (fun _ => rfl)) ?_ ?_
  · rintro names t - ⟨rfl, hnames⟩
    rw [if_pos hdir] at hnames
    cases hnames
    have hall : (t.sortedNames p).all acceptedName =
        !(t.names p).any (fun name => !acceptedName name) := by
      rw [List.not_any_eq_all_not]
      unfold FileTree.sortedNames
      rw [(List.perm_insertionSort (· ≤ ·) (t.names p)).all_eq]
      simp
    refine wp_refuse (fun hbad => ?_) (fun hgood => ?_)
    · refine ⟨rfl, fun _ hcontra => ?_⟩
      rw [hall, hbad] at hcontra
      cases hcontra.2
    · refine wp_pure ⟨rfl, rfl, hdir, ?_⟩
      rw [hall, hgood]
      rfl
  · rintro e t - ⟨rfl, he⟩
    refine ⟨rfl, fun hcalm _ => ?_⟩
    obtain ⟨e', he'⟩ := he hcalm
    rw [if_pos hdir] at he'
    cases he'

/-! ## Reading a file -/

/-- What a read returns is the beginning of what is left, and nothing only at the end. -/
theorem wp_readFile {p : Path} {offset want : Nat} {code : String} {content : List UInt8}
    {executable : Bool} {links : Nat} (hJ : J d)
    (hfile : d.node p = some (.leaf (.file content executable links))) :
    Wp (Watch A J) () (io (.read p offset want) code)
      (fun bytes t => t = d ∧ bytes <+: content.drop offset ∧ bytes.length ≤ want ∧
        (bytes = [] → content.drop offset = [] ∨ want = 0))
      (fun _ t => t = d ∧ ¬ Calm A) d := by
  refine wp_ioAs hJ (fun w _ => ?_) (fun w hw hfails _ => ?_)
  · simp only [Disk.perform, hfile]
    refine ⟨rfl, ?_, ?_, fun hnil => ?_⟩
    · exact (List.take_prefix _ _).trans (List.take_prefix _ _)
    · rw [List.length_take, List.length_take]
      omega
    · rw [List.take_eq_nil_iff, List.take_eq_nil_iff] at hnil
      rcases hnil with hzero | hzero | hdrop
      · omega
      · exact .inr hzero
      · exact .inl hdrop
  · exact ⟨rfl, fun hcalm => (hcalm.fails hw hfails).elim⟩

/-- A read that must succeed. -/
theorem wp_mustRead {o : Op} {code : String} {v : o.Val} (hJ : J d)
    (hperform : ∀ w, d.perform w o = (.ok v, d)) (hafter : ∀ w, d.afterFailure w o = d) :
    Wp (Watch A J) () (io o code) (fun x t => t = d ∧ x = v) (fun _ t => t = d ∧ ¬ Calm A) d := by
  refine Wp.mono trivial (wp_read hJ hperform hafter) ?_ ?_
  · rintro x t - ⟨ht, hx⟩
    cases hx
    exact ⟨ht, rfl⟩
  · rintro e t - ⟨ht, he⟩
    refine ⟨ht, fun hcalm => ?_⟩
    obtain ⟨e', he'⟩ := he hcalm
    cases he'

theorem wp_openFile {p : Path} {code : String} {content : List UInt8} {executable : Bool}
    {links : Nat} (hJ : J d)
    (hfile : d.node p = some (.leaf (.file content executable links))) :
    Wp (Watch A J) () (io (.openFile p) code) (fun _ t => t = d) (fun _ t => t = d ∧ ¬ Calm A)
      d := by
  have hperform : ∀ w, d.perform w (.openFile p) = (.ok (), d) := by
    intro w
    simp only [Disk.perform, Disk.followed, hfile]
    rfl
  exact Wp.mono trivial (wp_mustRead hJ hperform (fun _ => rfl)) (fun _ _ _ h => h.1)
    (fun _ _ _ h => h)

theorem wp_statFile {p : Path} {code : String} {content : List UInt8} {executable : Bool}
    {links : Nat} (hJ : J d)
    (hfile : d.node p = some (.leaf (.file content executable links))) :
    Wp (Watch A J) () (io (.statFile p) code)
      (fun stat t => t = d ∧ stat = .file content.length executable links)
      (fun _ t => t = d ∧ ¬ Calm A) d := by
  refine wp_mustRead hJ (fun w => ?_) (fun _ => rfl)
  simp only [Disk.perform, hfile]
  rfl

theorem update_update (s : DigestState) (xs ys : List UInt8) :
    (s.update xs).update ys = s.update (xs ++ ys) := by
  unfold DigestState.update
  rw [List.append_assoc]

theorem update_nil (s : DigestState) : s.update [] = s := by
  unfold DigestState.update
  rw [List.append_nil]

/-- What is left after a read. -/
theorem drop_of_prefix {bytes content : List UInt8} {offset : Nat}
    (h : bytes <+: content.drop offset) :
    bytes ++ content.drop (offset + bytes.length) = content.drop offset ∧
      offset + bytes.length ≤ max offset content.length := by
  obtain ⟨rest, hrest⟩ := h
  have hdrop : content.drop (offset + bytes.length) = rest := by
    rw [← List.drop_drop, ← hrest, List.drop_left]
  have hlength := congrArg List.length hrest
  rw [List.length_append, List.length_drop] at hlength
  refine ⟨by rw [hdrop, hrest], ?_⟩
  omega

/-- The read loop of the hashing walker: the hasher gets the rest of the file. -/
theorem wp_hashContents {p : Path} {content : List UInt8} {executable : Bool} {links : Nat}
    (hJ : J d) (hfile : d.node p = some (.leaf (.file content executable links))) {fuel : Nat} :
    ∀ {offset remaining : Nat} {s : DigestState}, offset + remaining = content.length →
      remaining ≤ fuel →
      Wp (Watch A J) () (hashContents p fuel offset remaining s)
        (fun s' t => t = d ∧ s' = s.update (content.drop offset))
        (fun _ t => t = d ∧ ¬ Calm A) d := by
  induction fuel with
  | zero =>
    intro offset remaining s hlength hfuel
    have hdone : content.drop offset = [] := List.drop_eq_nil_of_le (by omega)
    refine wp_pure ⟨rfl, ?_⟩
    rw [hdone, update_nil]
  | succ fuel ih =>
    intro offset remaining s hlength hfuel
    unfold hashContents
    by_cases hzero : remaining = 0
    · rw [if_pos hzero]
      have hdone : content.drop offset = [] := List.drop_eq_nil_of_le (by omega)
      refine wp_pure ⟨rfl, ?_⟩
      rw [hdone, update_nil]
    rw [if_neg hzero]
    have hleft : content.drop offset ≠ [] := by
      intro hnil
      rw [List.drop_eq_nil_iff] at hnil
      omega
    have hwant : min bufferBytes remaining ≠ 0 := by
      unfold bufferBytes
      omega
    refine wp_seq trivial (wp_readFile hJ hfile) ?_ (fun _ _ _ h => h)
    rintro bytes t - ⟨rfl, hprefix, hle, hempty⟩
    refine wp_refuse (fun hnil => ?_) (fun hsome => ?_)
    · exfalso
      rcases hempty (List.isEmpty_iff.mp hnil) with h | h
      · exact hleft h
      · exact hwant h
    · have hpos : 0 < bytes.length := by
        rw [List.length_pos_iff]
        intro hnil
        rw [hnil] at hsome
        cases hsome
      obtain ⟨hdrop, hbound⟩ := drop_of_prefix hprefix
      have hrest : remaining - bytes.length ≤ fuel := by omega
      refine Wp.mono trivial (ih (by omega) hrest) ?_ (fun _ _ _ h => h)
      rintro s' u - ⟨rfl, rfl⟩
      rw [update_update, hdrop]
      exact ⟨rfl, rfl⟩

/-- The file branch of the hashing walker. -/
theorem wp_hashFile {p : Path} {relative : String} {content : List UInt8} {executable : Bool}
    {links : Nat} {s : DigestState} (hJ : J d)
    (hfile : d.node p = some (.leaf (.file content executable links))) :
    Wp (Watch A J) () (hashFile p relative content.length executable links s)
      (fun s' t => t = d ∧ fileState relative content executable links s = some s')
      (fun _ t => t = d ∧ (Calm A → fileState relative content executable links s = none)) d := by
  unfold fileState
  refine wp_refuse (fun hlinks => ?_) (fun hlinks => ?_)
  · rw [bne_iff_ne] at hlinks
    exact ⟨rfl, fun _ => if_neg hlinks⟩
  rw [bne_eq_false_iff_eq] at hlinks
  subst hlinks
  rw [if_pos rfl]
  refine wp_bind (wp_resume ?_)
  rcases hbegin : s.beginFile relative content.length executable with e | s₁
  · exact ⟨rfl, fun _ => rfl⟩
  have hfaulty : ∀ t : Disk, t = d ∧ ¬ Calm A → t = d ∧
      (Calm A → (Except.ok s₁ : Result DigestState).toOption.map (·.update content) = none) :=
    fun _ h => ⟨h.1, fun hcalm => (h.2 hcalm).elim⟩
  refine wp_seq trivial (wp_openFile hJ hfile) ?_ (fun _ _ _ h => hfaulty _ h)
  rintro _ t - rfl
  refine wp_seq trivial (wp_statFile hJ hfile) ?_ (fun _ _ _ h => hfaulty _ h)
  rintro opened u - ⟨rfl, rfl⟩
  refine wp_refuse (fun h => by cases h) (fun _ => ?_)
  refine wp_seq trivial (wp_hashContents hJ hfile (Nat.zero_add _) (Nat.le_refl _)) ?_
    (fun _ _ _ h => hfaulty _ h)
  rintro s₂ t - ⟨rfl, rfl⟩
  refine wp_seq trivial (wp_readFile hJ hfile) ?_ (fun _ _ _ h => hfaulty _ h)
  rintro extra t - ⟨rfl, hextra, -, -⟩
  rw [List.drop_length, List.prefix_nil] at hextra
  subst hextra
  refine wp_refuse (fun h => by cases h) (fun _ => ?_)
  refine wp_seq trivial (wp_symlinkMetadata hJ) ?_ ?_
  · rintro after t - ⟨rfl, hafter⟩
    rw [hfile] at hafter
    cases hafter
    refine wp_refuse (fun h => ?_) (fun _ => wp_pure ⟨rfl, rfl⟩)
    simp [Stat.of, Stat.size, Stat.links] at h
  · rintro e t - ⟨rfl, hnone⟩
    refine ⟨rfl, fun hcalm => ?_⟩
    rw [hnone hcalm] at hfile
    cases hfile

/-! ## The hashing walker -/

/-- The loop over the names of a directory; `R rest` holds when `rest` is still to come. -/
theorem wp_eachName {f : String → DigestState → StoreM DigestState}
    {g : DigestState → String → Option DigestState} {R : List String → Disk → Prop}
    {F : Disk → Prop}
    (hstep : ∀ name rest s t, R (name :: rest) t → Wp (Watch A J) () (f name s)
      (fun s' u => R rest u ∧ g s name = some s')
      (fun _ u => F u ∧ (Calm A → g s name = none)) t)
    (names : List String) :
    ∀ {s : DigestState} {t : Disk}, R names t → Wp (Watch A J) () (eachName f names s)
      (fun s' u => R [] u ∧ names.foldlM g s = some s')
      (fun _ u => F u ∧ (Calm A → names.foldlM g s = none)) t := by
  induction names with
  | nil => exact fun h => wp_pure ⟨h, rfl⟩
  | cons name rest ih =>
    intro s t h
    refine wp_seq trivial (hstep name rest s t h) ?_ ?_
    · rintro s' u - ⟨hu, hs'⟩
      rw [List.foldlM_cons, hs']
      exact ih hu
    · rintro e u - ⟨hF, hnone⟩
      refine ⟨hF, fun hcalm => ?_⟩
      rw [List.foldlM_cons, hnone hcalm]
      rfl

/-- **The hashing walker.** -/
theorem wp_hashDirRecursive (hJ : J d) {levels : Nat} :
    ∀ {root : Path} {pfx : String} {s : DigestState},
      Wp (Watch A J) () (hashDirRecursive levels root pfx s)
        (fun s' t => t = d ∧ treeState d levels root pfx s = some s')
        (fun _ t => t = d ∧ (Calm A → treeState d levels root pfx s = none)) d := by
  induction levels with
  | zero => exact wp_throw ⟨rfl, fun _ => rfl⟩
  | succ levels ih =>
    intro root pfx s
    unfold hashDirRecursive treeState
    refine wp_seq trivial (wp_pinDirectory hJ) ?_ ?_
    · rintro names t - ⟨rfl, rfl, hdir, hall⟩
      rw [if_pos ⟨hdir, hall⟩]
      refine wp_eachName (R := fun _ u => u = t) (F := fun u => u = t) ?_ _ rfl
      rintro name rest s u rfl
      unfold hashEntry entryState
      refine wp_seq trivial (wp_symlinkMetadata hJ) ?_ ?_
      · rintro stat t - ⟨rfl, hstat⟩
        rcases hnode : t.node (root ++ [name]) with _ | x
        · rw [hnode] at hstat
          cases hstat
        · rw [hnode] at hstat
          cases hstat
          rcases x with _ | ⟨content, executable, links⟩ | _ | _
          · exact ih
          · exact wp_hashFile hJ hnode
          · exact wp_throw ⟨rfl, fun _ => rfl⟩
          · exact wp_throw ⟨rfl, fun _ => rfl⟩
      · rintro e t - ⟨rfl, hnone⟩
        refine ⟨rfl, fun hcalm => ?_⟩
        rw [hnone hcalm]
    · rintro e t - ⟨rfl, hbad⟩
      exact ⟨rfl, fun hcalm => if_neg (hbad hcalm)⟩

/-- The digest of a tree, if it has one. -/
def treeDigest (sha256 : List UInt8 → String) (d : Disk) (root : Path) : Option TreeDigest :=
  (treeState d (maxCheckpointDepth + 1) root "" .new).map (DigestState.finish sha256)

theorem treeDigest_congr {sha256 : List UInt8 → String} {t : Disk} {p q : Path}
    (h : t.sub q = d.sub p) : treeDigest sha256 t q = treeDigest sha256 d p := by
  unfold treeDigest
  rw [treeState_congr h]

theorem wp_digestTree {sha256 : List UInt8 → String} {root : Path} (hJ : J d) :
    Wp (Watch A J) () (digestTree sha256 root)
      (fun digest t => t = d ∧ treeDigest sha256 d root = some digest)
      (fun _ t => t = d ∧ (Calm A → treeDigest sha256 d root = none)) d := by
  unfold treeDigest
  refine wp_seq trivial (wp_hashDirRecursive hJ) ?_ ?_
  · rintro s t - ⟨rfl, hs⟩
    rw [hs]
    exact wp_pure ⟨rfl, rfl⟩
  · rintro e t - ⟨rfl, hnone⟩
    refine ⟨rfl, fun hcalm => ?_⟩
    rw [hnone hcalm]
    rfl

/-! ## The copying walker -/

/-- A request that writes in one directory. -/
theorem wp_write {o : Op} {code : String} {v : o.Val} {t : Disk} (hJ : J d)
    (hperform : ∀ w, d.perform w o = (.ok v, t)) {F : Disk → Prop}
    (hafter : ∀ w, A w → w.fails = true → F (d.afterFailure w o)) :
    Wp (Watch A J) () (io o code) (fun x u => u = t ∧ x = v) (fun _ u => F u ∧ ¬ Calm A) d := by
  refine wp_ioAs hJ (fun w _ => ?_) (fun w hw hfails _ => ?_)
  · rw [hperform w]
    exact ⟨rfl, rfl⟩
  · exact ⟨hafter w hw hfails, fun hcalm => (hcalm.fails hw hfails).elim⟩

theorem put_new {p : Path} {name : String} {x : Node Leaf} (hdir : d.node p = some .dir)
    (hnew : d.node (p ++ [name]) = none) : ∃ t, d.put p name x = some t := by
  refine ⟨_, Disk.put_eq_some.mpr ⟨hdir, ?_, rfl⟩⟩
  rw [hnew]
  exact (Option.some_ne_none _).symm

/-- A directory is made where nothing was. -/
theorem wp_createDir {p : Path} {name code : String} (hJ : J d) (hdir : d.node p = some .dir)
    (hnew : d.node (p ++ [name]) = none) :
    Wp (Watch A J) () (createDir p name code)
      (fun _ t => Outside (p ++ [name]) d t ∧ t.node (p ++ [name]) = some .dir ∧
        ∀ rel, rel ≠ [] → t.node (p ++ [name] ++ rel) = none)
      (fun _ t => t = d ∧ ¬ Calm A) d := by
  obtain ⟨t, ht⟩ := put_new (x := .dir) hdir hnew
  have hperform : ∀ w, d.perform w (.createDir p name) = (.ok true, t) := by
    intro w
    simp only [Disk.perform, hnew, ht]
  refine wp_seq trivial (wp_write hJ hperform (F := (· = d)) (fun _ _ _ => rfl)) ?_
    (fun _ _ _ h => h)
  rintro created u - ⟨rfl, rfl⟩
  refine wp_resume ⟨Disk.put_outside ht, Disk.put_self ht, fun rel hrel => ?_⟩
  exact Disk.put_dir_empty hnew ht hrel

/-- A file is made where nothing was. -/
theorem wp_createFile {p : Path} {name code : String} {executable : Bool} (hJ : J d)
    (hdir : d.node p = some .dir) (hnew : d.node (p ++ [name]) = none) :
    Wp (Watch A J) () (io (.createFile p name executable) code)
      (fun _ t => Outside (p ++ [name]) d t ∧
        t.node (p ++ [name]) = some (.leaf (.file [] executable 1)))
      (fun _ t => t = d ∧ ¬ Calm A) d := by
  obtain ⟨t, ht⟩ := put_new (x := .leaf (.file [] executable 1)) hdir hnew
  have hperform : ∀ w, d.perform w (.createFile p name executable) = (.ok (), t) := by
    intro w
    simp only [Disk.perform, hnew, ht, Disk.answer]
  refine Wp.mono trivial (wp_write hJ hperform (F := (· = d)) (fun _ _ _ => rfl)) ?_
    (fun _ _ _ h => h)
  rintro _ u - ⟨rfl, -⟩
  exact ⟨Disk.put_outside ht, Disk.put_self ht⟩

/-- Bytes go to the end of a file. -/
theorem wp_writeAll {p : Path} {name code : String} {bytes content : List UInt8}
    {executable : Bool} {links : Nat} (hJ : J d)
    (hfile : d.node (p ++ [name]) = some (.leaf (.file content executable links))) :
    Wp (Watch A J) () (io (.writeAll p name bytes) code)
      (fun _ t => Outside (p ++ [name]) d t ∧
        t.node (p ++ [name]) = some (.leaf (.file (content ++ bytes) executable links)))
      (fun _ t => Outside (p ++ [name]) d t ∧ ¬ Calm A) d := by
  have hdir : d.node p = some .dir := by
    refine d.rooted p name ?_
    rw [hfile]
    exact Option.some_ne_none _
  have happend : ∀ bytes', ∃ t, d.append p name bytes' = some t ∧ Outside (p ++ [name]) d t ∧
      t.node (p ++ [name]) = some (.leaf (.file (content ++ bytes') executable links)) := by
    intro bytes'
    have hput : d.node (p ++ [name]) ≠ some .dir := by
      rw [hfile]
      intro hcontra
      cases hcontra
    refine ⟨_, ?_, Disk.put_outside (Disk.put_eq_some.mpr ⟨hdir, hput, rfl⟩),
      Disk.put_self (Disk.put_eq_some.mpr ⟨hdir, hput, rfl⟩)⟩
    unfold Disk.append
    rw [hfile]
    exact Disk.put_eq_some.mpr ⟨hdir, hput, rfl⟩
  obtain ⟨t, ht, hout, hnode⟩ := happend bytes
  have hperform : ∀ w, d.perform w (.writeAll p name bytes) = (.ok (), t) := by
    intro w
    simp only [Disk.perform, ht, Disk.answer]
  refine Wp.mono trivial
    (wp_write hJ hperform (F := Outside (p ++ [name]) d) (fun w _ _ => ?_)) ?_ (fun _ _ _ h => h)
  · obtain ⟨u, hu, huout, -⟩ := happend (bytes.take w.written)
    show Outside _ d ((d.append p name (bytes.take w.written)).getD d)
    rw [hu]
    exact huout
  · rintro _ u - ⟨rfl, -⟩
    exact ⟨hout, hnode⟩

/-- The read and write loop: the file that is written ends up with the content of the other. -/
theorem wp_copyContents {p dest : Path} {name : String} {content : List UInt8}
    {executable copied : Bool} {links : Nat}
    (hJ : ∀ t, Outside (dest ++ [name]) d t → J t) (happart : ¬ (dest ++ [name]) <+: p)
    (hfile : d.node p = some (.leaf (.file content executable links))) {fuel : Nat} :
    ∀ {offset remaining : Nat} {s : DigestState} {t : Disk}, offset + remaining = content.length →
      remaining ≤ fuel → Outside (dest ++ [name]) d t →
      t.node (dest ++ [name]) = some (.leaf (.file (content.take offset) copied 1)) →
      Wp (Watch A J) () (copyContents p dest name fuel offset remaining s)
        (fun s' u => Outside (dest ++ [name]) d u ∧ s' = s.update (content.drop offset) ∧
          u.node (dest ++ [name]) = some (.leaf (.file content copied 1)))
        (fun _ u => Outside (dest ++ [name]) d u ∧ ¬ Calm A) t := by
  have hdone : ∀ {offset : Nat} {s : DigestState} {t : Disk}, content.length ≤ offset →
      Outside (dest ++ [name]) d t →
      t.node (dest ++ [name]) = some (.leaf (.file (content.take offset) copied 1)) →
      Outside (dest ++ [name]) d t ∧ s = s.update (content.drop offset) ∧
        t.node (dest ++ [name]) = some (.leaf (.file content copied 1)) := by
    intro offset s t hle hout hnode
    rw [List.drop_eq_nil_of_le hle, update_nil]
    rw [List.take_of_length_le hle] at hnode
    exact ⟨hout, rfl, hnode⟩
  induction fuel with
  | zero =>
    intro offset remaining s t hlength hfuel hout hnode
    exact wp_pure (hdone (by omega) hout hnode)
  | succ fuel ih =>
    intro offset remaining s t hlength hfuel hout hnode
    unfold copyContents
    by_cases hzero : remaining = 0
    · rw [if_pos hzero]
      exact wp_pure (hdone (by omega) hout hnode)
    rw [if_neg hzero]
    have hleft : content.drop offset ≠ [] := by
      intro hnil
      rw [List.drop_eq_nil_iff] at hnil
      omega
    have hwant : min bufferBytes remaining ≠ 0 := by
      unfold bufferBytes
      omega
    have hsource : t.node p = some (.leaf (.file content executable links)) :=
      (hout p happart).trans hfile
    refine wp_seq trivial (wp_readFile (hJ t hout) hsource) ?_ ?_
    · rintro bytes u - ⟨rfl, hprefix, hle, hempty⟩
      refine wp_refuse (fun hnil => ?_) (fun hsome => ?_)
      · exfalso
        rcases hempty (List.isEmpty_iff.mp hnil) with h | h
        · exact hleft h
        · exact hwant h
      have hpos : 0 < bytes.length := by
        rw [List.length_pos_iff]
        intro hnil
        rw [hnil] at hsome
        cases hsome
      obtain ⟨hdrop, hbound⟩ := drop_of_prefix hprefix
      have htake : content.take offset ++ bytes = content.take (offset + bytes.length) := by
        rw [List.take_add, List.prefix_iff_eq_take.mp hprefix, List.length_take]
        congr 2
        rw [List.length_drop]
        omega
      refine wp_seq trivial (wp_writeAll (hJ u hout) hnode) ?_
        (fun _ v _ hv => ⟨hout.trans hv.1, hv.2⟩)
      rintro _ v - ⟨hv, hvnode⟩
      rw [htake] at hvnode
      refine Wp.mono trivial (ih (by omega) (by omega) (hout.trans hv) hvnode) ?_ (fun _ _ _ h => h)
      rintro s' x - ⟨hx, rfl, hxnode⟩
      rw [update_update, hdrop]
      exact ⟨hx, rfl, hxnode⟩
    · rintro e u - ⟨rfl, hfaulty⟩
      exact ⟨hout, hfaulty⟩

/-- The file branch of the copying walker. -/
theorem wp_copyFile {p dest : Path} {name relative : String} {content : List UInt8}
    {executable : Bool} {links : Nat} {s : DigestState}
    (hJ : ∀ t, Outside (dest ++ [name]) d t → J t) (happart : ¬ (dest ++ [name]) <+: p)
    (hdir : d.node dest = some .dir) (hnew : d.node (dest ++ [name]) = none)
    (hfile : d.node p = some (.leaf (.file content executable links))) :
    Wp (Watch A J) () (copyFile p dest name relative content.length executable links s)
      (fun s' t => (Outside (dest ++ [name]) d t ∧ t.node (dest ++ [name]) = d.node p) ∧
        fileState relative content executable links s = some s')
      (fun _ t => Outside (dest ++ [name]) d t ∧
        (Calm A → fileState relative content executable links s = none)) d := by
  have hrefl := Outside.refl (dest ++ [name]) d
  unfold fileState
  refine wp_refuse (fun hlinks => ?_) (fun hlinks => ?_)
  · rw [bne_iff_ne] at hlinks
    exact ⟨hrefl, fun _ => if_neg hlinks⟩
  rw [bne_eq_false_iff_eq] at hlinks
  subst hlinks
  rw [if_pos rfl]
  refine wp_bind (wp_resume ?_)
  rcases hbegin : s.beginFile relative content.length executable with e | s₁
  · exact ⟨hrefl, fun _ => rfl⟩
  have hfaulty : ∀ t : Disk, Outside (dest ++ [name]) d t ∧ ¬ Calm A →
      Outside (dest ++ [name]) d t ∧
      (Calm A → (Except.ok s₁ : Result DigestState).toOption.map (·.update content) = none) :=
    fun _ h => ⟨h.1, fun hcalm => (h.2 hcalm).elim⟩
  have hhere : ∀ {t u : Disk}, Outside (dest ++ [name]) d t → u = t ∧ ¬ Calm A →
      Outside (dest ++ [name]) d u ∧ ¬ Calm A := by
    rintro t u ht ⟨rfl, h⟩
    exact ⟨ht, h⟩
  refine wp_seq trivial (wp_openFile (hJ d hrefl) hfile) ?_
    (fun _ _ _ h => hfaulty _ (hhere hrefl h))
  rintro _ t - rfl
  refine wp_seq trivial (wp_statFile (hJ t hrefl) hfile) ?_
    (fun _ _ _ h => hfaulty _ (hhere hrefl h))
  rintro opened u - ⟨rfl, rfl⟩
  refine wp_refuse (fun h => by cases h) (fun _ => ?_)
  refine wp_seq trivial (wp_createFile (hJ u hrefl) hdir hnew) ?_
    (fun _ _ _ h => hfaulty _ (hhere hrefl h))
  rintro _ v - ⟨hv, hvnode⟩
  refine wp_seq trivial (wp_copyContents hJ happart hfile (Nat.zero_add _) (Nat.le_refl _) hv
    hvnode) ?_ (fun _ _ _ h => hfaulty _ h)
  rintro s₂ x - ⟨hx, rfl, hxnode⟩
  have hsource : x.node p = some (.leaf (.file content executable 1)) :=
    (hx p happart).trans hfile
  refine wp_seq trivial (wp_readFile (hJ x hx) hsource) ?_
    (fun _ _ _ h => hfaulty _ (hhere hx h))
  rintro extra y - ⟨rfl, hextra, -, -⟩
  rw [List.drop_length, List.prefix_nil] at hextra
  subst hextra
  refine wp_refuse (fun h => by cases h) (fun _ => ?_)
  have hperform : ∀ w, y.perform w (.syncFile (dest ++ [name])) = (.ok (), y) := by
    intro w
    simp only [Disk.perform, hxnode]
  refine wp_seq trivial (wp_mustRead (hJ y hx) hperform (fun _ => rfl)) ?_
    (fun _ _ _ h => hfaulty _ (hhere hx h))
  rintro _ z - ⟨rfl, -⟩
  refine wp_seq trivial (wp_symlinkMetadata (hJ z hx)) ?_ ?_
  · rintro after u - ⟨rfl, hafter⟩
    rw [hsource] at hafter
    cases hafter
    refine wp_refuse (fun h => ?_) (fun _ => wp_pure ⟨⟨hx, ?_⟩, rfl⟩)
    · simp [Stat.of, Stat.size, Stat.links] at h
    · rw [hxnode, hfile]
  · rintro e u - ⟨rfl, hnone⟩
    refine ⟨hx, fun hcalm => ?_⟩
    rw [hnone hcalm] at hsource
    cases hsource

/-- Neither path lies in the tree of the other. -/
def Apart (p q : Path) : Prop := ¬ p <+: q ∧ ¬ q <+: p

theorem Apart.child {p q : Path} (h : Apart p q) (name name' : String) :
    Apart (p ++ [name]) (q ++ [name']) := by
  refine ⟨fun hpre => ?_, fun hpre => ?_⟩
  · have hp : p <+: q ++ [name'] := (List.prefix_append p [name]).trans hpre
    rcases List.prefix_concat_iff.mp hp with heq | hpq
    · exact h.2 ⟨[name'], heq.symm⟩
    · exact h.1 hpq
  · have hq : q <+: p ++ [name] := (List.prefix_append q [name']).trans hpre
    rcases List.prefix_concat_iff.mp hq with heq | hqp
    · exact h.1 ⟨[name], heq.symm⟩
    · exact h.2 hqp

/-- A changed tree leaves one apart from it alone. -/
theorem Apart.sub_of_outside {p q : Path} {t : Disk} (h : Apart p q) (hout : Outside q d t) :
    t.sub p = d.sub p := hout.sub h.2 h.1

theorem not_prefix_sibling (p rel : Path) {name other : String} (h : other ≠ name) :
    ¬ (p ++ [name]) <+: p ++ [other] ++ rel := by
  rintro ⟨rest, hrest⟩
  rw [List.append_assoc, List.append_assoc, List.append_cancel_left_eq] at hrest
  exact h (List.cons.inj hrest).1.symm

/-- Between two entries: those that are done are copied, nothing is there yet for the others. -/
structure Copying (d : Disk) (source dest : Path) (rest : List String) (t : Disk) : Prop where
  below : Below dest d t
  done : ∀ name, name ∉ rest → ∀ rel,
    t.node (dest ++ [name] ++ rel) = d.node (source ++ [name] ++ rel)
  todo : ∀ name ∈ rest, ∀ rel, t.node (dest ++ [name] ++ rel) = none
  nodup : rest.Nodup

theorem Copying.next {source dest : Path} {name : String} {rest : List String} {t u : Disk}
    (h : Copying d source dest (name :: rest) t) (hu : Outside (dest ++ [name]) t u)
    (hname : ∀ rel, u.node (dest ++ [name] ++ rel) = d.node (source ++ [name] ++ rel)) :
    Copying d source dest rest u := by
  obtain ⟨hfresh, hnodup⟩ := List.nodup_cons.mp h.nodup
  refine ⟨h.below.trans hu.below, fun other hother rel => ?_, fun other hother rel => ?_, hnodup⟩
  · by_cases hsame : other = name
    · rw [hsame]
      exact hname rel
    · rw [hu _ (not_prefix_sibling _ _ hsame)]
      refine h.done other (fun hmem => ?_) rel
      rcases List.mem_cons.mp hmem with heq | hrest
      · exact hsame heq
      · exact hother hrest
  · have hne : other ≠ name := by
      rintro rfl
      exact hfresh hother
    rw [hu _ (not_prefix_sibling _ _ hne)]
    exact h.todo other (List.mem_cons_of_mem _ hother) rel

theorem Copying.start {source dest : Path}
    (hempty : ∀ rel, rel ≠ [] → d.node (dest ++ rel) = none) :
    Copying d source dest (d.sortedNames source) d := by
  have hnone : ∀ name rel, d.node (dest ++ [name] ++ rel) = none := by
    intro name rel
    rw [List.append_assoc]
    exact hempty _ (List.cons_ne_nil _ _)
  refine ⟨Below.refl dest d, fun name hname rel => ?_, fun name _ rel => hnone name rel,
    d.nodup_sortedNames source⟩
  rw [FileTree.mem_sortedNames, ne_eq, not_not] at hname
  rw [hnone]
  by_cases hrel : rel = []
  · rw [hrel, List.append_nil, hname]
  · refine (d.none_below ?_ hrel).symm
    rw [hname]
    exact (Option.some_ne_none _).symm

/-- **The copying walker.**  Into an empty directory apart from the source. -/
theorem wp_copyDirRecursive {levels : Nat} :
    ∀ {d : Disk} {source dest : Path} {pfx : String} {s : DigestState},
      (∀ t, Below dest d t → J t) → Apart source dest → d.node dest = some .dir →
      (∀ rel, rel ≠ [] → d.node (dest ++ rel) = none) →
      Wp (Watch A J) () (copyDirRecursive levels source dest pfx s)
        (fun s' t => (Below dest d t ∧
            ∀ rel, rel ≠ [] → t.node (dest ++ rel) = d.node (source ++ rel)) ∧
          treeState d levels source pfx s = some s')
        (fun _ t => Below dest d t ∧ (Calm A → treeState d levels source pfx s = none)) d := by
  induction levels with
  | zero => exact fun _ _ _ _ => wp_throw ⟨Below.refl _ _, fun _ => rfl⟩
  | succ levels ih =>
    intro d source dest pfx s hJ hapart hdest hempty
    have hJd : J d := hJ d (Below.refl dest d)
    unfold copyDirRecursive treeState
    refine wp_seq trivial (wp_pinDirectory hJd) ?_ ?_
    swap
    · rintro e t - ⟨rfl, hbad⟩
      exact ⟨Below.refl dest t, fun hcalm => if_neg (hbad hcalm)⟩
    rintro names t - ⟨rfl, rfl, hdir, hall⟩
    rw [if_pos ⟨hdir, hall⟩]
    refine wp_seq trivial (wp_pinDirectory hJd) ?_ ?_
    swap
    · -- the destination is an empty directory
      rintro e u - ⟨rfl, hbad⟩
      refine ⟨Below.refl dest u, fun hcalm => (hbad hcalm ⟨hdest, ?_⟩).elim⟩
      refine List.all_eq_true.mpr (fun name hname => ?_)
      exact absurd (hempty [name] (List.cons_ne_nil _ _)) (FileTree.mem_sortedNames.mp hname)
    rintro destNames u - ⟨rfl, -, -, -⟩
    have hloop := wp_eachName (A := A) (J := J)
      (f := copyEntry (copyDirRecursive levels) source dest pfx)
      (g := entryState (treeState u levels) u source pfx)
      (R := Copying u source dest) (F := Below dest u) (t := u) (s := s)
      ?_ (u.sortedNames source) (Copying.start hempty)
    · refine Wp.mono trivial hloop ?_ (fun _ _ _ h => h)
      rintro s' t - ⟨hcopied, hs'⟩
      refine ⟨⟨hcopied.below, fun rel hrel => ?_⟩, hs'⟩
      obtain ⟨name, rel', rfl⟩ := List.exists_cons_of_ne_nil hrel
      have hname := hcopied.done name List.not_mem_nil rel'
      rw [List.append_assoc, List.append_assoc] at hname
      exact hname
    -- one entry
    intro name rest s t hcopying
    have hbelow := hcopying.below
    have hJt : J t := hJ t hbelow
    have hsource : t.sub source = u.sub source := hapart.sub_of_outside hbelow.outside
    have hnode : t.node (source ++ [name]) = u.node (source ++ [name]) := congrFun hsource [name]
    have hdestdir : t.node dest = some .dir := by
      rw [hbelow.self, hdest]
    have hnew : t.node (dest ++ [name]) = none := by
      have htodo := hcopying.todo name List.mem_cons_self []
      rw [List.append_nil] at htodo
      exact htodo
    unfold copyEntry entryState
    refine wp_seq trivial (wp_symlinkMetadata hJt) ?_ ?_
    swap
    · rintro e v - ⟨rfl, hnone⟩
      refine ⟨hbelow, fun hcalm => ?_⟩
      rw [← hnode, hnone hcalm]
    rintro stat v - ⟨rfl, hstat⟩
    rcases hx : v.node (source ++ [name]) with _ | x
    · rw [hx] at hstat
      cases hstat
    rw [hx] at hstat
    cases hstat
    have hux : u.node (source ++ [name]) = some x := hnode ▸ hx
    rw [hux]
    rcases x with _ | ⟨content, executable, links⟩ | _ | _
    · -- a directory: it is made, filled and synced
      refine wp_seq trivial (wp_createDir hJt hdestdir hnew) ?_
        (fun _ w _ hw => ⟨hw.1 ▸ hbelow, fun hcalm => (hw.2 hcalm).elim⟩)
      rintro _ w - ⟨hvw, hwdir, hwempty⟩
      have huw : Below dest u w := hbelow.trans hvw.below
      refine wp_seq trivial (wp_setPrivateDirMode (hJ w huw)) ?_
        (fun _ y _ hy => ⟨hy.1 ▸ huw, fun hcalm => (hy.2 hcalm hwdir).elim⟩)
      rintro _ y - rfl
      have hchild : y.sub (source ++ [name]) = u.sub (source ++ [name]) :=
        (hapart.child name name).sub_of_outside (d := v) hvw |>.trans (by
          funext rel
          rw [FileTree.sub_append, FileTree.sub_append, hsource])
      have hbelowChild : ∀ z, Below (dest ++ [name]) y z → Below dest u z :=
        fun z hz => huw.trans hz.outside.below
      rw [← treeState_congr hchild]
      refine wp_seq trivial (ih (fun z hz => hJ z (hbelowChild z hz)) (hapart.child name name)
        hwdir hwempty) ?_ (fun _ z _ hz => ⟨hbelowChild z hz.1, hz.2⟩)
      rintro s' z - ⟨⟨hyz, hcopied⟩, hs'⟩
      have hzdir : z.node (dest ++ [name]) = some .dir := by
        rw [hyz.self, hwdir]
      refine wp_seq trivial (wp_syncDir (hJ z (hbelowChild z hyz))) ?_
        (fun _ a _ ha => ⟨ha.1 ▸ hbelowChild z hyz, fun hcalm => (ha.2 hcalm hzdir).elim⟩)
      rintro _ a - ⟨rfl, -⟩
      refine wp_pure ⟨hcopying.next (hvw.trans hyz.outside) (fun rel => ?_), hs'⟩
      by_cases hrel : rel = []
      · rw [hrel, List.append_nil, List.append_nil, hzdir, hux]
      · rw [hcopied rel hrel]
        exact congrFun hchild rel
    · have hpath : ¬ (dest ++ [name]) <+: source ++ [name] := (hapart.child name name).2
      have hleaf : v.node (source ++ [name]) =
          some (.leaf (.file content executable links)) := hx
      refine Wp.mono trivial (wp_copyFile
        (fun z hz => hJ z (hbelow.trans hz.below)) hpath hdestdir hnew hleaf) ?_
        (fun _ z _ hz => ⟨hbelow.trans hz.1.below, hz.2⟩)
      rintro s' z - ⟨⟨hvz, hznode⟩, hs'⟩
      refine ⟨hcopying.next hvz (fun rel => ?_), hs'⟩
      by_cases hrel : rel = []
      · rw [hrel, List.append_nil, List.append_nil, hznode, hx, hux]
      · -- nothing lies below a file
        rw [z.none_below ?_ hrel, u.none_below ?_ hrel]
        · rw [hux]
          intro hcontra
          cases hcontra
        · rw [hznode, hx]
          intro hcontra
          cases hcontra
    · exact wp_throw ⟨hbelow, fun _ => rfl⟩
    · exact wp_throw ⟨hbelow, fun _ => rfl⟩

theorem wp_copyTreeAndDigest {sha256 : List UInt8 → String} {source dest : Path}
    (hJ : ∀ t, Below dest d t → J t) (hapart : Apart source dest)
    (hdest : d.node dest = some .dir) (hempty : ∀ rel, rel ≠ [] → d.node (dest ++ rel) = none) :
    Wp (Watch A J) () (copyTreeAndDigest sha256 source dest)
      (fun digest t => (Below dest d t ∧
          ∀ rel, rel ≠ [] → t.node (dest ++ rel) = d.node (source ++ rel)) ∧
        treeDigest sha256 d source = some digest)
      (fun _ t => Below dest d t ∧ (Calm A → treeDigest sha256 d source = none)) d := by
  unfold treeDigest
  refine wp_seq trivial (wp_copyDirRecursive hJ hapart hdest hempty) ?_ ?_
  · rintro s t - ⟨hcopied, hs⟩
    rw [hs]
    exact wp_pure ⟨hcopied, rfl⟩
  · rintro e t - ⟨hbelow, hnone⟩
    refine ⟨hbelow, fun hcalm => ?_⟩
    rw [hnone hcalm]
    rfl

end VibeCoder.Checkpoint
