/-
  What the parts of the store's methods do to the disk: one rule each.

  * `Loaded`, `Verified` — the metadata of a checkpoint can be read, and its snapshot matches it;
  * `wp_loadMetadata`, `wp_verifySnapshot` — they are read-only, and fail only when a request does
    or when there is nothing to load or to verify;
  * `wp_removeTree`, `wp_exchangeChildren` — the two requests that change a whole tree.
-/
import VibeCoder.Checkpoint.Store
import VibeCoder.Checkpoint.WalkLaws

namespace VibeCoder.Checkpoint

open Resume Files

variable {A : World → Prop} {J : Disk → Prop} {α β : Type} {d : Disk} {env : Env}

/-! ## Names -/

theorem prefix_toList_append (p q : String) : p.toList <+: (p ++ q).toList := by
  rw [String.toList_append]
  exact List.prefix_append _ _

theorem startsWith_tempName (pfx : String) (uuid : BitVec 128) :
    startsWith (tempName pfx uuid) pfx = true :=
  List.isPrefixOf_iff_prefix.mpr (prefix_toList_append _ _)

theorem isTempName_tempName (pfx : String) (uuid : BitVec 128) :
    isTempName pfx (tempName pfx uuid) = true := by
  unfold isTempName
  rw [startsWith_tempName, Bool.true_and]
  unfold tempName
  rw [String.toList_append, List.drop_left, String.ofList_toList]
  dsimp only
  rw [UuidText.parseStr_hyphenated, Option.any_some, beq_self_eq_true]

/-- No directory name of an id starts with a reserved prefix: those start with a dot. -/
theorem hyphenated_not_dot {u : BitVec 128} {pfx : String} (h : pfx.toList.head? = some '.') :
    startsWith (UuidText.hyphenated u) pfx = false := by
  obtain ⟨v, hv, hhead⟩ := UuidText.head_hyphenated u
  have hdigit : ∀ v : Fin 16, UuidText.hexDigit v.val ≠ '.' := by decide
  refine Bool.eq_false_iff.mpr (fun hstarts => ?_)
  obtain ⟨rest, hrest⟩ := List.isPrefixOf_iff_prefix.mp hstarts
  rcases hpfx : pfx.toList with _ | ⟨c, cs⟩
  · rw [hpfx] at h
    cases h
  · rw [hpfx] at h hrest
    cases h
    rw [← hrest] at hhead
    exact hdigit ⟨v, hv⟩ (Option.some.inj hhead).symm

/-! ## Reading -/

/-- What is left of a file, up to a bound. -/
theorem wp_readToEnd {p : Path} {code : String} {content : List UInt8} {executable : Bool}
    {links : Nat} (hJ : J d)
    (hfile : d.node p = some (.leaf (.file content executable links))) {fuel : Nat} :
    ∀ {offset left : Nat} {bytes : List UInt8}, left ≤ fuel →
      Wp (Watch A J) () (readToEnd p code fuel offset left bytes)
        (fun all t => t = d ∧ all = bytes ++ (content.drop offset).take left)
        (fun _ t => t = d ∧ ¬ Calm A) d := by
  induction fuel with
  | zero =>
    intro offset left bytes hfuel
    have hzero : left = 0 := Nat.le_zero.mp hfuel
    rw [hzero, List.take_zero, List.append_nil]
    exact wp_pure ⟨rfl, rfl⟩
  | succ fuel ih =>
    intro offset left bytes hfuel
    unfold readToEnd
    by_cases hzero : left = 0
    · rw [if_pos hzero, hzero, List.take_zero, List.append_nil]
      exact wp_pure ⟨rfl, rfl⟩
    rw [if_neg hzero]
    refine wp_seq trivial (wp_readFile hJ hfile) ?_ (fun _ _ _ h => h)
    rintro more t - ⟨rfl, hprefix, hle, hempty⟩
    by_cases hnil : more = []
    · rw [hnil, List.isEmpty_nil, if_pos rfl]
      refine wp_pure ⟨rfl, ?_⟩
      rcases hempty hnil with hdrop | hwant
      · rw [hdrop, List.take_nil, List.append_nil]
      · unfold bufferBytes at hwant
        omega
    · have hpos : 0 < more.length := List.length_pos_iff.mpr hnil
      rw [if_neg (fun h => hnil (List.isEmpty_iff.mp h))]
      obtain ⟨hdrop, -⟩ := drop_of_prefix hprefix
      refine Wp.mono trivial (ih (by omega)) ?_ (fun _ _ _ h => h)
      rintro all u - ⟨rfl, rfl⟩
      refine ⟨rfl, ?_⟩
      have htake : more.take left = more := List.take_of_length_le (by omega)
      rw [List.append_assoc, ← hdrop, List.take_append, htake]

/-! ## Metadata -/

/-- The metadata of the checkpoint can be read. -/
structure Loaded (env : Env) (d : Disk) (project : ProjectId) (checkpoint : CheckpointId)
    (m : CheckpointMetadata) : Prop where
  dir : d.node (checkpointDir project checkpoint) = some .dir
  file : ∃ content executable, d.node (checkpointDir project checkpoint ++ [metadataName]) =
      some (.leaf (.file content executable 1)) ∧
    content.length ≤ maxMetadataBytes ∧ env.decode content = some m
  valid : m.validate = .ok ()
  project : m.projectId = project
  checkpoint : m.checkpointId = checkpoint

theorem Loaded.unique {project : ProjectId} {checkpoint : CheckpointId}
    {m m' : CheckpointMetadata} (h : Loaded env d project checkpoint m)
    (h' : Loaded env d project checkpoint m') : m = m' := by
  obtain ⟨content, executable, hnode, -, hdecode⟩ := h.file
  obtain ⟨content', executable', hnode', -, hdecode'⟩ := h'.file
  rw [hnode] at hnode'
  cases hnode'
  rw [hdecode] at hdecode'
  exact Option.some.inj hdecode'

/-- What `load_metadata_sync` answers. -/
def LoadedAs (env : Env) (d : Disk) (project : ProjectId) (checkpoint : CheckpointId) :
    Option CheckpointMetadata → Prop
  | none => d.node (checkpointDir project checkpoint) = none
  | some m => Loaded env d project checkpoint m

theorem wp_loadMetadata {project : ProjectId} {checkpoint : CheckpointId} (hJ : J d) :
    Wp (Watch A J) () (loadMetadata env project checkpoint)
      (fun found t => t = d ∧ LoadedAs env d project checkpoint found)
      (fun _ t => t = d ∧ (Calm A → ∀ found, ¬ LoadedAs env d project checkpoint found)) d := by
  refine wp_seq trivial (wp_read hJ (fun _ => rfl) (fun _ => rfl)) ?_ ?_
  swap
  · rintro e t - ⟨rfl, he⟩
    refine ⟨rfl, fun hcalm => ?_⟩
    obtain ⟨e', he'⟩ := he hcalm
    cases he'
  rintro found t - ⟨rfl, hfound⟩
  cases hfound
  rcases hdir : t.node (checkpointDir project checkpoint) with _ | x
  · exact wp_pure ⟨rfl, hdir⟩
  -- nothing that is there loads as nothing
  have hsome : ∀ {found}, LoadedAs env t project checkpoint found →
      ∃ m, found = some m ∧ Loaded env t project checkpoint m := by
    intro found hfound
    cases found with
    | none =>
      rw [LoadedAs, hdir] at hfound
      cases hfound
    | some m => exact ⟨m, rfl, hfound⟩
  refine wp_refuse (fun hnotdir => ?_) (fun hisdir => ?_)
  · refine ⟨rfl, fun _ found hfound => ?_⟩
    obtain ⟨m, -, hm⟩ := hsome hfound
    rw [hm.dir] at hdir
    cases hdir
    cases hnotdir
  -- only a file with one link is read
  by_cases hregular : ∃ content executable, t.node (checkpointDir project checkpoint ++
      [metadataName]) = some (.leaf (.file content executable 1))
  swap
  · have hno : ∀ found, ¬ LoadedAs env t project checkpoint found := by
      intro found hfound
      obtain ⟨m, -, hm⟩ := hsome hfound
      obtain ⟨content, executable, hnode, -⟩ := hm.file
      exact hregular ⟨content, executable, hnode⟩
    refine wp_seq trivial (wp_followed (o := .openFile _) hJ (fun _ => rfl) (fun _ => rfl)) ?_
      (fun _ _ _ h => ⟨h.1, fun _ => hno⟩)
    rintro _ u - ⟨rfl, -⟩
    refine wp_seq trivial (wp_read hJ (fun _ => rfl) (fun _ => rfl)) ?_
      (fun _ _ _ h => ⟨h.1, fun _ => hno⟩)
    rintro stat t - ⟨rfl, hstat⟩
    refine wp_refuse (fun _ => ⟨rfl, fun _ => hno⟩) (fun hgood => ?_)
    exfalso
    rcases hnode : t.node (checkpointDir project checkpoint ++ [metadataName]) with _ | x
    · rw [hnode] at hstat
      cases hstat
    · rw [hnode] at hstat
      cases hstat
      rcases x with _ | ⟨content, executable, links⟩ | _ | _
      · cases hgood
      · simp only [Stat.of, Stat.isFile, Stat.links, Bool.not_true, Bool.false_or,
          Bool.or_eq_false_iff, bne_eq_false_iff_eq] at hgood
        rw [hgood.1] at hnode
        exact hregular ⟨content, executable, hnode⟩
      · cases hgood
      · cases hgood
  obtain ⟨content, executable, hnode⟩ := hregular
  have hfaulty : ∀ u : Disk, u = t ∧ ¬ Calm A →
      u = t ∧ (Calm A → ∀ found, ¬ LoadedAs env t project checkpoint found) :=
    fun _ h => ⟨h.1, fun hcalm => (h.2 hcalm).elim⟩
  have hloaded : ∀ {found}, LoadedAs env t project checkpoint found → ∃ m, found = some m ∧
      content.length ≤ maxMetadataBytes ∧ env.decode content = some m ∧ m.validate = .ok () ∧
        m.projectId = project ∧ m.checkpointId = checkpoint := by
    intro found hfound
    obtain ⟨m, hm, hload⟩ := hsome hfound
    obtain ⟨content', executable', hnode', hshort, hdecode⟩ := hload.file
    rw [hnode] at hnode'
    cases hnode'
    exact ⟨m, hm, hshort, hdecode, hload.valid, hload.project, hload.checkpoint⟩
  refine wp_seq trivial (wp_openFile hJ hnode) ?_ (fun _ u _ h => hfaulty u h)
  rintro _ u - rfl
  refine wp_seq trivial (wp_statFile hJ hnode) ?_ (fun _ u _ h => hfaulty u h)
  rintro stat t - ⟨rfl, rfl⟩
  refine wp_refuse (fun hbad => ?_) (fun hgood => ?_)
  · refine ⟨rfl, fun _ found hfound => ?_⟩
    obtain ⟨m, -, hshort, -⟩ := hloaded hfound
    have hlong : content.length > maxMetadataBytes := of_decide_eq_true hbad
    omega
  have hshort : content.length ≤ maxMetadataBytes := by
    have hnot : ¬ content.length > maxMetadataBytes := of_decide_eq_false hgood
    omega
  refine wp_seq trivial (wp_readToEnd hJ hnode (Nat.le_refl _)) ?_ (fun _ u _ h => hfaulty u h)
  rintro bytes u - ⟨rfl, hbytes⟩
  rw [List.nil_append, List.drop_zero, List.take_of_length_le (by omega)] at hbytes
  subst hbytes
  refine wp_refuse (fun hlong => ?_) (fun _ => ?_)
  · rw [decide_eq_true_eq] at hlong
    omega
  refine wp_bind (wp_resume ?_)
  rcases hdecode : env.decode bytes with _ | m
  · refine ⟨rfl, fun _ found hfound => ?_⟩
    obtain ⟨m, -, -, hdecode', -⟩ := hloaded hfound
    rw [hdecode] at hdecode'
    cases hdecode'
  have hfound_m : ∀ {found}, LoadedAs env u project checkpoint found → m.validate = .ok () ∧
      m.projectId = project ∧ m.checkpointId = checkpoint := by
    intro found hfound
    obtain ⟨m', -, -, hdecode', hm'⟩ := hloaded hfound
    rw [hdecode] at hdecode'
    cases hdecode'
    exact hm'
  refine wp_bind (wp_resume ?_)
  rcases hvalid : m.validate with e | ⟨⟩
  · refine ⟨rfl, fun _ found hfound => ?_⟩
    have hvalid' := (hfound_m hfound).1
    rw [hvalid] at hvalid'
    cases hvalid'
  refine wp_refuse (fun hother => ?_) (fun hsame => ?_)
  · refine ⟨rfl, fun _ found hfound => ?_⟩
    obtain ⟨-, hproject, hcheckpoint⟩ := hfound_m hfound
    rw [hproject, hcheckpoint, bne_self_eq_false, bne_self_eq_false] at hother
    cases hother
  · rw [Bool.or_eq_false_iff, bne_eq_false_iff_eq, bne_eq_false_iff_eq] at hsame
    have hdirnode : u.node (checkpointDir project checkpoint) = some .dir := by
      refine u.rooted _ metadataName ?_
      rw [hnode]
      exact Option.some_ne_none _
    exact wp_pure ⟨rfl, ⟨hdirnode, ⟨bytes, executable, hnode, hshort, hdecode⟩, hvalid, hsame.1,
      hsame.2⟩⟩

/-! ## Verification -/

/-- The directory the project must be in is there. -/
structure ProjectThere (d : Disk) (project : ProjectRef) : Prop where
  root : project.root = expectedProjectRoot project.id
  dir : d.node (expectedProjectRoot project.id) = some .dir

theorem wp_verifyProject {project : ProjectRef} (hJ : J d) :
    Wp (Watch A J) () (verifyProject project) (fun _ t => t = d ∧ ProjectThere d project)
      (fun _ t => t = d ∧ (Calm A → ¬ ProjectThere d project)) d := by
  refine wp_refuse (fun hother => ?_) (fun hsame => ?_)
  · refine ⟨rfl, fun _ h => ?_⟩
    rw [h.root, bne_self_eq_false] at hother
    cases hother
  rw [bne_eq_false_iff_eq] at hsame
  refine wp_seq trivial (wp_symlinkMetadata hJ) ?_ ?_
  swap
  · rintro e t - ⟨rfl, hnone⟩
    refine ⟨rfl, fun hcalm h => ?_⟩
    have hnode := hnone hcalm
    rw [h.root, h.dir] at hnode
    cases hnode
  rintro stat t - ⟨rfl, hstat⟩
  refine wp_refuse (fun hnotdir => ?_) (fun hisdir => ?_)
  · refine ⟨rfl, fun _ h => ?_⟩
    rw [h.root, h.dir] at hstat
    cases hstat
    cases hnotdir
  have hdir : t.node (expectedProjectRoot project.id) = some .dir := by
    rw [bne_eq_false_iff_eq] at hisdir
    subst hisdir
    rw [hsame] at hstat
    rcases hnode : t.node (expectedProjectRoot project.id) with _ | x
    · rw [hnode] at hstat
      cases hstat
    · rw [hnode] at hstat
      rcases x with _ | _ | _ | _
      · rfl
      · cases hstat
      · cases hstat
      · cases hstat
  have hfollowed : t.followed project.root = .ok .dir := by
    rw [hsame]
    exact followed_some hdir (fun hcontra => by cases hcontra)
  refine wp_seq trivial
    (wp_followed (o := .canonicalize project.root) hJ (fun _ => rfl) (fun _ => rfl)) ?_ ?_
  · rintro canonical u - ⟨rfl, -, -, rfl⟩
    refine Wp.mono trivial (wp_resume (Q := fun _ v => v = u ∧ ProjectThere u project)
      (E := fun _ _ => False) ?_) (fun _ _ _ h => h) (fun _ _ _ h => h.elim)
    have hpass : (project.root != expectedProjectRoot project.id ||
        !projectsRoot.isPrefixOf project.root) = false := by
      rw [hsame, bne_self_eq_false, Bool.false_or, Bool.not_eq_false']
      exact List.isPrefixOf_iff_prefix.mpr (List.prefix_append _ _)
    rw [hpass]
    exact ⟨rfl, hsame, hdir⟩
  · rintro e u - ⟨rfl, he⟩
    refine ⟨rfl, fun hcalm _ => ?_⟩
    obtain ⟨e', he'⟩ := he hcalm
    rw [hfollowed] at he'
    cases he'

/-- The checkpoint can be rolled back to: its metadata loads, and its snapshot matches. -/
structure Verified (env : Env) (d : Disk) (project : ProjectRef) (checkpoint : CheckpointId)
    (m : CheckpointMetadata) (digest : TreeDigest) : Prop where
  there : ProjectThere d project
  loaded : Loaded env d project.id checkpoint m
  snapshot : treeDigest env.sha256 d (snapshotTree project.id checkpoint) = some digest
  sha256 : digest.sha256 = m.treeSha256
  fileCount : digest.fileCount = m.fileCount
  totalBytes : digest.totalBytes = m.totalBytes

theorem wp_verifySnapshot {project : ProjectRef} {checkpoint : CheckpointId} (hJ : J d) :
    Wp (Watch A J) () (verifySnapshot env project checkpoint)
      (fun x t => t = d ∧ Verified env d project checkpoint x.1 x.2)
      (fun _ t => t = d ∧ (Calm A → ¬ ∃ m digest, Verified env d project checkpoint m digest))
      d := by
  refine wp_seq trivial (wp_verifyProject hJ) ?_ ?_
  swap
  · rintro e t - ⟨rfl, hno⟩
    exact ⟨rfl, fun hcalm ⟨_, _, h⟩ => hno hcalm h.there⟩
  rintro _ t - ⟨rfl, hthere⟩
  refine wp_seq trivial (wp_loadMetadata hJ) ?_ ?_
  swap
  · rintro e u - ⟨rfl, hno⟩
    exact ⟨rfl, fun hcalm ⟨m, _, h⟩ => hno hcalm (some m) h.loaded⟩
  rintro found u - ⟨rfl, hfound⟩
  refine wp_bind (wp_resume ?_)
  rcases found with _ | m
  · refine ⟨rfl, fun _ ⟨_, _, h⟩ => ?_⟩
    rw [LoadedAs, h.loaded.dir] at hfound
    cases hfound
  refine wp_seq trivial (wp_digestTree hJ) ?_ ?_
  swap
  · rintro e v - ⟨rfl, hno⟩
    refine ⟨rfl, fun hcalm ⟨_, _, h⟩ => ?_⟩
    have hdigest := h.snapshot
    rw [hno hcalm] at hdigest
    cases hdigest
  rintro digest v - ⟨rfl, hdigest⟩
  refine wp_refuse (fun hbad => ?_) (fun hgood => ?_)
  · refine ⟨rfl, fun _ ⟨m', digest', h⟩ => ?_⟩
    have hm := h.loaded.unique hfound
    have hd := h.snapshot
    rw [hdigest] at hd
    cases hd
    rw [← hm, h.sha256, h.fileCount, h.totalBytes] at hbad
    simp at hbad
  · simp only [Bool.or_eq_false_iff, bne_eq_false_iff_eq] at hgood
    exact wp_pure ⟨rfl, hthere, hfound, hdigest, hgood.1.1, hgood.1.2, hgood.2⟩

/-! ## Whole trees -/

/-- No removal is cut short. -/
def Whole (A : World → Prop) : Prop := ∀ w, A w → w.kept = none

/-- A removal, possibly cut short. -/
theorem wp_removeTree {p : Path} (hJ : J d) (hdir : d.node p = some .dir) :
    Wp (Watch A J) () (removeTree p)
      (fun _ t => Outside p d t ∧ ∀ q, p <+: q → t.node q = none)
      (fun _ t => Outside p d t ∧ ¬ Whole A) d := by
  refine wp_attempt hJ (fun w hw t hrely _ => ?_)
  have ht : (Disk.exec w (.removeDirAll p) d).2 = t := hrely
  rw [← ht]
  show Post _ _ (Disk.exec w (.removeDirAll p) d).1 (Disk.exec w (.removeDirAll p) d).2
  unfold Disk.exec Op.removal
  rw [Bool.not_true, Bool.and_false]
  simp only [Bool.false_eq_true, if_false, Disk.perform, hdir, Disk.removed]
  rcases hkept : w.kept with _ | kept
  · exact ⟨fun q hq => FileTree.remove_other hq, fun q hq => FileTree.remove_under hq⟩
  · refine ⟨fun q hq => FileTree.prune_other hq, fun hwhole => ?_⟩
    rw [hwhole w hw] at hkept
    cases hkept

/-- Dropping the result of a removal. -/
theorem wp_attemptRemove {p : Path} {E : VibeCoderError → Disk → Prop} (hJ : J d)
    (hdir : d.node p = some .dir) :
    Wp (Watch A J) () (attemptOnly (removeTree p))
      (fun _ t => Outside p d t ∧ (Whole A → ∀ q, p <+: q → t.node q = none)) E d := by
  refine wp_bind (wp_settle ?_)
  refine Wp.mono trivial (wp_removeTree hJ hdir) ?_ ?_
  · exact fun _ t _ h => wp_pure ⟨h.1, fun _ => h.2⟩
  · exact fun _ t _ h => wp_pure ⟨h.1, fun hwhole => (h.2 hwhole).elim⟩

theorem wp_exchangeChildren {parent : Path} {left right : String} (hJ : J d)
    (hleft : d.node (parent ++ [left]) ≠ none) (hright : d.node (parent ++ [right]) ≠ none) :
    Wp (Watch A J) () (exchangeChildren parent left right)
      (fun _ t => t = d.exchange parent left right) (fun _ t => t = d ∧ ¬ Calm A) d := by
  have hdir : d.node parent = some .dir := d.rooted parent left hleft
  refine wp_seq trivial (wp_openDir hJ) ?_ ?_
  swap
  · rintro e t - ⟨rfl, hno⟩
    exact ⟨rfl, fun hcalm => hno hcalm hdir⟩
  rintro _ t - ⟨rfl, -⟩
  obtain ⟨x, hx⟩ := Option.ne_none_iff_exists'.mp hleft
  obtain ⟨y, hy⟩ := Option.ne_none_iff_exists'.mp hright
  have hperform : ∀ w, t.perform w (.exchange parent left right) =
      (.ok (), t.exchange parent left right) := by
    intro w
    simp only [Disk.perform, hx, hy]
  exact Wp.mono trivial (wp_write hJ hperform (F := (· = t)) (fun _ _ _ => rfl))
    (fun _ _ _ h => h.1) (fun _ _ _ h => h)

end VibeCoder.Checkpoint
