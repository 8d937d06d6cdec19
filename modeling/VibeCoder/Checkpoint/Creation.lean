/-
  `create_checkpoint_sync`, request by request.

  * `wp_listCheckpointIds`  — the ids of a project are the names without the staging prefix;
  * `wp_beginCreation`      — until the staging directory is there, only the directory of the
    project is made (`Begun`);
  * `wp_fillAndRename`      — until the rename only what the staging directory holds changes; the
    rename puts a complete checkpoint under its id (`Published`);
  * `wp_createCheckpoint`   — so that at every request nothing has happened to the other checkpoints
    (`Creating`), and when no request fails, a project that is `Ready` gets its checkpoint.
-/
import VibeCoder.Checkpoint.CrashSafety

namespace VibeCoder.Checkpoint

open Resume Files

variable {A : World → Prop} {J : Disk → Prop} {d t u : Disk} {env : Env}
variable {project : ProjectRef} {id : CheckpointId}

/-! ## The ids of a project -/

/-- The names that are not skipped. -/
def isPermanent (name : String) : Bool := !startsWith name checkpointTempPrefix

def permanent (d : Disk) (parent : Path) : List String := (d.names parent).filter isPermanent

theorem mem_permanent {parent : Path} {name : String} : name ∈ permanent d parent ↔
    d.node (parent ++ [name]) ≠ none ∧ isPermanent name = true := by
  unfold permanent
  rw [List.mem_filter, FileTree.mem_names]

/-- The name is the directory of an id. -/
def IsIdDir (d : Disk) (parent : Path) (name : String) : Prop :=
  (∃ id : CheckpointId, id.dirName = name) ∧ d.node (parent ++ [name]) = some .dir

theorem wp_collectIds {parent : Path} {names : List String} {ids : List CheckpointId} (hJ : J d) :
    Wp (Watch A J) () (collectIds parent names ids)
      (fun all t => t = d ∧ all.map CheckpointId.dirName =
        ids.map CheckpointId.dirName ++ names.filter isPermanent)
      (fun _ t => t = d ∧ (Calm A → ¬ ((∀ name, name ∈ names.filter isPermanent →
        IsIdDir d parent name) ∧
          ids.length + (names.filter isPermanent).length ≤ maxCheckpointsPerProject))) d := by
  induction names generalizing ids with
  | nil =>
    refine wp_pure ⟨rfl, ?_⟩
    rw [List.filter_nil, List.append_nil]
  | cons name names ih =>
    unfold collectIds
    by_cases hskip : startsWith name checkpointTempPrefix = true
    · have hfilter : (name :: names).filter isPermanent = names.filter isPermanent := by
        refine List.filter_cons_of_neg ?_
        unfold isPermanent
        rw [hskip]
        exact Bool.false_ne_true
      rw [if_pos hskip, hfilter]
      exact ih
    have hfilter : (name :: names).filter isPermanent = name :: names.filter isPermanent := by
      refine List.filter_cons_of_pos ?_
      unfold isPermanent
      rw [Bool.eq_false_iff.mpr hskip]
      rfl
    have hhere : ∀ {P : Prop}, ((∀ other, other ∈ name :: names.filter isPermanent →
        IsIdDir d parent other) ∧ P) → IsIdDir d parent name :=
      fun h => h.1 name List.mem_cons_self
    rw [if_neg hskip, hfilter]
    refine wp_bind (wp_resume ?_)
    rcases hparse : UuidText.parseStr name with _ | uuid
    · refine ⟨rfl, fun _ h => ?_⟩
      obtain ⟨⟨id, rfl⟩, -⟩ := hhere h
      rw [show UuidText.parseStr id.dirName = _ from UuidText.parseStr_hyphenated _] at hparse
      cases hparse
    refine wp_refuse (fun hother => ?_) (fun hsame => ?_)
    · refine ⟨rfl, fun _ h => ?_⟩
      obtain ⟨⟨id, rfl⟩, -⟩ := hhere h
      rw [show UuidText.parseStr id.dirName = _ from UuidText.parseStr_hyphenated _] at hparse
      cases hparse
      rw [show id.dirName = UuidText.hyphenated id.uuid from rfl, bne_self_eq_false] at hother
      cases hother
    rw [bne_eq_false_iff_eq] at hsame
    refine wp_seq trivial (wp_symlinkMetadata hJ) ?_ ?_
    swap
    · rintro e t - ⟨rfl, hnone⟩
      refine ⟨rfl, fun hcalm h => ?_⟩
      have hdir := (hhere h).2
      rw [hnone hcalm] at hdir
      cases hdir
    rintro stat t - ⟨rfl, hstat⟩
    refine wp_refuse (fun hnotdir => ?_) (fun _ => ?_)
    · refine ⟨rfl, fun _ h => ?_⟩
      rw [(hhere h).2] at hstat
      cases hstat
      cases hnotdir
    refine wp_refuse (fun hmany => ?_) (fun _ => ?_)
    · refine ⟨rfl, fun _ h => ?_⟩
      have hlong : (ids ++ [(⟨uuid⟩ : CheckpointId)]).length > maxCheckpointsPerProject :=
        of_decide_eq_true hmany
      have hshort := h.2
      rw [List.length_append, List.length_singleton] at hlong
      rw [List.length_cons] at hshort
      omega
    · refine Wp.mono trivial ih ?_ ?_
      · rintro all u - ⟨rfl, hall⟩
        refine ⟨rfl, ?_⟩
        rw [hall, List.map_append, List.append_assoc, List.map_singleton, List.singleton_append]
        show _ ++ UuidText.hyphenated uuid :: _ = _
        rw [hsame]
      · rintro e u - ⟨rfl, hno⟩
        refine ⟨rfl, fun hcalm h => hno hcalm ⟨fun other hother => ?_, ?_⟩⟩
        · exact h.1 other (List.mem_cons_of_mem _ hother)
        · have hshort := h.2
          rw [List.length_cons] at hshort
          rw [List.length_append, List.length_singleton]
          omega

/-- The directory of a project can be listed. -/
structure Listable (d : Disk) (parent : Path) : Prop where
  dir : d.node parent = some .dir
  ids : ∀ name, name ∈ permanent d parent → IsIdDir d parent name
  room : (permanent d parent).length ≤ maxCheckpointsPerProject

theorem wp_listCheckpointIds {parent : Path} (hJ : J d) :
    Wp (Watch A J) () (listCheckpointIds parent)
      (fun ids t => t = d ∧ d.node parent = some .dir ∧
        (ids.map CheckpointId.dirName).Perm (permanent d parent))
      (fun _ t => t = d ∧ (Calm A → ¬ Listable d parent)) d := by
  refine wp_seq trivial (wp_symlinkMetadata hJ) ?_ ?_
  swap
  · rintro e t - ⟨rfl, hnone⟩
    refine ⟨rfl, fun hcalm h => ?_⟩
    have hdir := h.dir
    rw [hnone hcalm] at hdir
    cases hdir
  rintro stat t - ⟨rfl, hstat⟩
  refine wp_refuse (fun hnotdir => ?_) (fun _ => ?_)
  · refine ⟨rfl, fun _ h => ?_⟩
    rw [h.dir] at hstat
    cases hstat
    cases hnotdir
  refine wp_seq trivial (wp_read hJ (fun _ => rfl) (fun _ => rfl)) ?_ ?_
  swap
  · rintro e u - ⟨rfl, he⟩
    refine ⟨rfl, fun hcalm h => ?_⟩
    obtain ⟨e', he'⟩ := he hcalm
    rw [if_pos h.dir] at he'
    cases he'
  rintro names u - ⟨rfl, hnames⟩
  have hdir : u.node parent = some .dir := by
    by_contra hno
    rw [if_neg hno] at hnames
    cases hnames
  rw [if_pos hdir] at hnames
  cases hnames
  refine wp_seq trivial (wp_collectIds hJ) ?_ ?_
  · rintro ids v - ⟨rfl, hids⟩
    refine wp_pure ⟨rfl, hdir, ?_⟩
    have hperm := (List.perm_insertionSort
      (fun a b : CheckpointId => a.uuid.toNat ≤ b.uuid.toNat) ids).map CheckpointId.dirName
    rw [List.map_nil, List.nil_append] at hids
    rw [hids] at hperm
    exact hperm
  · rintro e v - ⟨rfl, hno⟩
    refine ⟨rfl, fun hcalm h => hno hcalm ⟨h.ids, ?_⟩⟩
    rw [List.length_nil, Nat.zero_add]
    exact h.room

/-! ## A fresh id -/

theorem wp_pathExists {p : Path} (hJ : J d) :
    Wp (Watch A J) () (pathExists p)
      (fun found t => t = d ∧ (Calm A → found = (d.node p).isSome)) (fun _ _ => False) d := by
  refine wp_bind (wp_settle (wp_attempt hJ (fun w hw t hrely _ => ?_)))
  have ht : (Disk.exec w (.exists p) d).2 = t := hrely
  rw [← ht]
  show Post _ _ (Disk.exec w (.exists p) d).1 (Disk.exec w (.exists p) d).2
  unfold Disk.exec
  split
  · rename_i hfails
    rw [Bool.and_eq_true] at hfails
    exact wp_pure ⟨rfl, fun hcalm => (hcalm.fails hw hfails.1).elim⟩
  · exact wp_pure ⟨rfl, fun _ => rfl⟩

/-- Nothing has the names of the id. -/
structure FreeId (d : Disk) (parent : Path) (id : CheckpointId) : Prop where
  final : d.node (parent ++ [id.dirName]) = none
  temp : d.node (parent ++ [tempName checkpointTempPrefix id.uuid]) = none

theorem wp_freshCheckpointId {parent : Path} {draw : Nat → BitVec 128} {tries : Nat} (hJ : J d) :
    Wp (Watch A J) () (freshCheckpointId parent draw tries)
      (fun id t => t = d ∧ (∃ n, n < tries ∧ id = ⟨draw n⟩) ∧ (Calm A → FreeId d parent id))
      (fun _ t => t = d ∧ (Calm A → ∀ n, n < tries → ¬ FreeId d parent ⟨draw n⟩)) d := by
  induction tries with
  | zero =>
    refine wp_throw ⟨rfl, fun _ n hn => ?_⟩
    omega
  | succ tries ih =>
    -- the last draw is taken, so that the earlier ones are tried
    have hagain : (Calm A → ¬ FreeId d parent ⟨draw tries⟩) →
        Wp (Watch A J) () (freshCheckpointId parent draw tries)
          (fun id t => t = d ∧ (∃ n, n < tries + 1 ∧ id = ⟨draw n⟩) ∧
            (Calm A → FreeId d parent id))
          (fun _ t => t = d ∧ (Calm A → ∀ n, n < tries + 1 → ¬ FreeId d parent ⟨draw n⟩)) d := by
      intro htaken
      refine Wp.mono trivial ih ?_ ?_
      · rintro id t - ⟨ht, ⟨n, hn, hid⟩, hfree⟩
        exact ⟨ht, ⟨n, Nat.lt_succ_of_lt hn, hid⟩, hfree⟩
      · rintro e t - ⟨ht, hno⟩
        refine ⟨ht, fun hcalm n hn => ?_⟩
        rcases Nat.lt_succ_iff_lt_or_eq.mp hn with hlt | rfl
        · exact hno hcalm n hlt
        · exact htaken hcalm
    refine wp_seq trivial (wp_pathExists hJ) ?_ (fun _ _ _ h => h.elim)
    rintro found t - ⟨rfl, hfound⟩
    cases found with
    | true =>
      refine hagain (fun hcalm h => ?_)
      have hsome := hfound hcalm
      rw [h.final] at hsome
      cases hsome
    | false =>
      refine wp_seq trivial (wp_pathExists hJ) ?_ (fun _ _ _ h => h.elim)
      rintro staged u - ⟨rfl, hstaged⟩
      cases staged with
      | true =>
        refine hagain (fun hcalm h => ?_)
        have hsome := hstaged hcalm
        rw [h.temp] at hsome
        cases hsome
      | false =>
        refine wp_pure ⟨rfl, ⟨tries, Nat.lt_succ_self tries, rfl⟩, fun hcalm => ⟨?_, ?_⟩⟩
        · have hnone := hfound hcalm
          rw [eq_comm, Option.isSome_eq_false_iff, Option.isNone_iff_eq_none] at hnone
          exact hnone
        · have hnone := hstaged hcalm
          rw [eq_comm, Option.isSome_eq_false_iff, Option.isNone_iff_eq_none] at hnone
          exact hnone

/-! ## The metadata -/

theorem wp_writeMetadata {p : Path} {m : CheckpointMetadata}
    (hJ : ∀ u, Outside (p ++ [metadataName]) d u → J u) (hdir : d.node p = some .dir)
    (hnew : d.node (p ++ [metadataName]) = none) :
    Wp (Watch A J) () (writeMetadata env p m)
      (fun _ u => Outside (p ++ [metadataName]) d u ∧
        u.node (p ++ [metadataName]) = some (.leaf (.file (env.encode m) false 1)) ∧
        (env.encode m).length ≤ maxMetadataBytes)
      (fun _ u => Outside (p ++ [metadataName]) d u ∧
        (Calm A → (env.encode m).length > maxMetadataBytes)) d := by
  refine wp_refuse (fun hlong => ⟨.refl _ _, fun _ => of_decide_eq_true hlong⟩) (fun hshort => ?_)
  have hfaulty : ∀ {u : Disk}, Outside (p ++ [metadataName]) d u ∧ ¬ Calm A →
      Outside (p ++ [metadataName]) d u ∧ (Calm A → (env.encode m).length > maxMetadataBytes) :=
    fun h => ⟨h.1, fun hcalm => (h.2 hcalm).elim⟩
  refine wp_seq trivial (wp_createFile (hJ d (.refl _ _)) hdir hnew) ?_ ?_
  swap
  · rintro e u - ⟨rfl, hno⟩
    exact hfaulty ⟨.refl _ _, hno⟩
  rintro _ u - ⟨hout, hfile⟩
  refine wp_seq trivial (wp_writeAll (hJ u hout) hfile) ?_ ?_
  swap
  · rintro e v - ⟨hv, hno⟩
    exact hfaulty ⟨hout.trans hv, hno⟩
  rintro _ v - ⟨hv, hcontent⟩
  rw [List.nil_append] at hcontent
  refine Wp.mono trivial (wp_mustRead (v := ()) (hJ v (hout.trans hv)) (fun w => ?_)
    (fun _ => rfl)) ?_ ?_
  · simp only [Disk.perform, hcontent]
  · rintro _ x - ⟨rfl, -⟩
    refine ⟨hout.trans hv, hcontent, ?_⟩
    have hnot : ¬ (env.encode m).length > maxMetadataBytes := of_decide_eq_false hshort
    omega
  · rintro e x - ⟨rfl, hno⟩
    exact hfaulty ⟨hout.trans hv, hno⟩

/-! ## Publication -/

/-- What renaming a directory does. -/
structure Renamed (d : Disk) (p : Path) (a b : String) (t : Disk) : Prop where
  target : t.sub (p ++ [b]) = d.sub (p ++ [a])
  other : ∀ q, ¬ (p ++ [a]) <+: q → ¬ (p ++ [b]) <+: q → t.node q = d.node q

theorem renamed_dir {p : Path} {a b : String} (hdir : d.node (p ++ [a]) = some .dir)
    (hne : a ≠ b) (h : d.renamed p a b = some t) : Renamed d p a b t := by
  have hswap : ∀ c : Disk, c.sub (p ++ [a]) = d.sub (p ++ [a]) →
      (∀ q, ¬ (p ++ [b]) <+: q → c.node q = d.node q) → Renamed d p a b (c.exchange p a b) := by
    intro c hsame hother
    refine ⟨?_, fun q ha hb => ?_⟩
    · rw [← hsame]
      exact FileTree.exchange_right
    · rw [FileTree.exchange_other ha hb, hother q hb]
  have hreplaced : Renamed d p a b ((d.remove (p ++ [b])).exchange p a b) := by
    refine hswap _ ?_ (fun q hq => FileTree.remove_other hq)
    exact (apart_siblings hne).sub_of_outside (fun q hq => FileTree.remove_other hq)
  unfold Disk.renamed at h
  rw [hdir] at h
  rcases hb : d.node (p ++ [b]) with _ | _ | x
  · rw [hb] at h
    cases h
    exact hswap d rfl (fun _ _ => rfl)
  · rw [hb] at h
    simp only at h
    split at h
    · cases h
      exact hreplaced
    · cases h
  · rw [hb] at h
    cases h

theorem wp_rename {p : Path} {a b code : String} (hJ : J d)
    (hdir : d.node (p ++ [a]) = some .dir) (hne : a ≠ b) :
    Wp (Watch A J) () (io (.rename p a b) code) (fun _ t => Renamed d p a b t)
      (fun _ t => t = d ∧ (Calm A → d.node (p ++ [b]) ≠ none)) d := by
  refine wp_ioAs hJ (fun w _ => ?_) (fun w hw hfails _ => ?_)
  · rcases hrenamed : d.renamed p a b with _ | t
    · simp only [Disk.perform, hrenamed, Disk.answer]
      refine ⟨rfl, fun _ hfree => ?_⟩
      unfold Disk.renamed at hrenamed
      rw [hdir, hfree] at hrenamed
      cases hrenamed
    · simp only [Disk.perform, hrenamed, Disk.answer]
      exact renamed_dir hdir hne hrenamed
  · exact ⟨rfl, fun hcalm => (hcalm.fails hw hfails).elim⟩

/-- A directory holds a complete checkpoint. -/
structure Complete (env : Env) (d : Disk) (p : Path) (project : ProjectId) (id : CheckpointId)
    (m : CheckpointMetadata) (digest : TreeDigest) : Prop where
  file : d.node (p ++ [metadataName]) = some (.leaf (.file (env.encode m) false 1))
  short : (env.encode m).length ≤ maxMetadataBytes
  valid : m.validate = .ok ()
  project : m.projectId = project
  checkpoint : m.checkpointId = id
  tree : treeDigest env.sha256 d (p ++ [snapshotTreeName]) = some digest
  sha256 : digest.sha256 = m.treeSha256
  fileCount : digest.fileCount = m.fileCount
  totalBytes : digest.totalBytes = m.totalBytes

theorem Complete.congr {p q : Path} {project : ProjectId} {m : CheckpointMetadata}
    {digest : TreeDigest} (h : Complete env d p project id m digest)
    (hsame : t.sub q = d.sub p) : Complete env t q project id m digest := by
  refine ⟨?_, h.short, h.valid, h.project, h.checkpoint, ?_, h.sha256, h.fileCount, h.totalBytes⟩
  · rw [← h.file]
    exact congrFun hsame [metadataName]
  · rw [← h.tree]
    refine treeDigest_congr ?_
    funext rel
    rw [FileTree.sub_append, FileTree.sub_append, hsame]

/-- The checkpoint is there; nothing has changed but its directory and the staging directory. -/
structure Published (env : Env) (d : Disk) (parent : Path) (project : ProjectId)
    (id : CheckpointId) (temp : String) (m : CheckpointMetadata) (t : Disk) : Prop where
  complete : ∃ digest, Complete env t (parent ++ [id.dirName]) project id m digest
  dir : t.node (parent ++ [id.dirName]) = some .dir
  other : ∀ q, ¬ (parent ++ [temp]) <+: q → ¬ (parent ++ [id.dirName]) <+: q → t.node q = d.node q

/-- The copy can be published: it can be made, and what is written about it is valid. -/
structure Publishable (env : Env) (d : Disk) (project : ProjectRef) (reason : CheckpointReason)
    (clock : Option Nat) (parent : Path) (id : CheckpointId) : Prop where
  free : d.node (parent ++ [id.dirName]) = none
  metadata : ∃ digest millis, treeDigest env.sha256 d project.root = some digest ∧
    clock = some millis ∧ millis ≤ u64Max ∧
    (metadataOf project reason id millis digest).validate = .ok () ∧
    (env.encode (metadataOf project reason id millis digest)).length ≤ maxMetadataBytes

/-- The project and the checkpoints are apart. -/
theorem apart_project {id : ProjectId} {p : Path} :
    Apart (expectedProjectRoot id) (checkpointsRoot ++ p) :=
  ⟨not_prefix_checkpoints, checkpoints_not_above⟩

/-- The verified copy is in the staging directory, and nothing else has changed. -/
theorem wp_copyProject {p : Path} (hroot : project.root = expectedProjectRoot project.id)
    (hJ : ∀ u, Outside (checkpointsRoot ++ p) d u → J u)
    (hout : Outside (checkpointsRoot ++ p) d t)
    (hdir : t.node (checkpointsRoot ++ p) = some .dir)
    (hempty : ∀ rel, rel ≠ [] → t.node (checkpointsRoot ++ p ++ rel) = none) :
    Wp (Watch A J) () (copyProject env project (checkpointsRoot ++ p))
      (fun copied u => Below (checkpointsRoot ++ p) t u ∧
        u.node (checkpointsRoot ++ p ++ [metadataName]) = none ∧
        treeDigest env.sha256 u (checkpointsRoot ++ p ++ [snapshotTreeName]) = some copied ∧
        treeDigest env.sha256 d project.root = some copied)
      (fun _ u => Below (checkpointsRoot ++ p) t u ∧
        (Calm A → treeDigest env.sha256 d project.root = none)) t := by
  -- the project is as it was before
  have hsource : ∀ {u : Disk}, Below (checkpointsRoot ++ p) t u →
      treeDigest env.sha256 u project.root = treeDigest env.sha256 d project.root := by
    intro u hu
    rw [hroot]
    exact treeDigest_congr (apart_project.sub_of_outside (hout.trans hu.outside))
  have hJ' : ∀ {u : Disk}, Below (checkpointsRoot ++ p) t u → J u :=
    fun hu => hJ _ (hout.trans hu.outside)
  have hfaulty : ∀ {u : Disk}, Below (checkpointsRoot ++ p) t u → ¬ Calm A →
      Below (checkpointsRoot ++ p) t u ∧
        (Calm A → treeDigest env.sha256 d project.root = none) :=
    fun hu hno => ⟨hu, fun hcalm => (hno hcalm).elim⟩
  refine wp_seq trivial (wp_createDir (hJ t hout) hdir (hempty _ (List.cons_ne_nil _ _))) ?_ ?_
  swap
  · rintro e u - ⟨rfl, hno⟩
    exact hfaulty (.refl _ _) hno
  rintro _ u - ⟨hu, htree, hblank⟩
  have hubelow := hu.below
  refine wp_seq trivial (wp_setPrivateDirMode (hJ' hubelow)) ?_ ?_
  swap
  · rintro e v - ⟨rfl, hno⟩
    exact hfaulty hubelow (fun hcalm => hno hcalm htree)
  rintro _ u - rfl
  refine wp_seq trivial (wp_digestTree (hJ' hubelow)) ?_ ?_
  swap
  · rintro e v - ⟨rfl, hnone⟩
    exact ⟨hubelow, fun hcalm => (hsource hubelow).symm.trans (hnone hcalm)⟩
  rintro before v - ⟨rfl, hbefore⟩
  have happart : Apart project.root (checkpointsRoot ++ p ++ [snapshotTreeName]) := by
    rw [hroot, List.append_assoc]
    exact apart_project
  have hcopying : ∀ {x : Disk}, Below (checkpointsRoot ++ p ++ [snapshotTreeName]) v x →
      Below (checkpointsRoot ++ p) t x := fun h => hubelow.trans h.outside.below
  refine wp_seq trivial
    (wp_copyTreeAndDigest (fun x hx => hJ' (hcopying hx)) happart htree hblank) ?_ ?_
  swap
  · rintro e x - ⟨hx, hnone⟩
    exact ⟨hcopying hx, fun hcalm => (hsource hubelow).symm.trans (hnone hcalm)⟩
  rintro copied x - ⟨⟨hbelow, hcopied⟩, hdigest⟩
  have hxbelow := hcopying hbelow
  have hxdigest : treeDigest env.sha256 x (checkpointsRoot ++ p ++ [snapshotTreeName]) =
      some copied := by
    rw [← hdigest]
    refine treeDigest_congr (funext fun rel => ?_)
    by_cases hrel : rel = []
    · rw [hrel, FileTree.sub_nil, FileTree.sub_nil, hbelow.self, htree,
        dir_of_treeDigest hdigest]
    · exact hcopied rel hrel
  refine wp_seq trivial (wp_digestTree (hJ' hxbelow)) ?_ ?_
  swap
  · rintro e y - ⟨rfl, hnone⟩
    refine hfaulty hxbelow (fun hcalm => ?_)
    rw [hnone hcalm] at hxdigest
    cases hxdigest
  rintro verify y - ⟨rfl, hverify⟩
  rw [hxdigest] at hverify
  cases hverify
  refine wp_refuse (fun hbad => ?_) (fun _ => ?_)
  · rw [bne_self_eq_false] at hbad
    cases hbad
  have hdone : treeDigest env.sha256 y project.root = some copied := by
    rw [hsource hxbelow, ← hsource hubelow, hdigest]
  refine wp_seq trivial (wp_digestTree (hJ' hxbelow)) ?_ ?_
  swap
  · rintro e z - ⟨rfl, hnone⟩
    refine hfaulty hxbelow (fun hcalm => ?_)
    rw [hnone hcalm] at hdone
    cases hdone
  rintro final z - ⟨rfl, hfinal⟩
  rw [hdone] at hfinal
  cases hfinal
  rw [hdigest] at hbefore
  cases hbefore
  refine wp_refuse (fun hbad => ?_) (fun _ => ?_)
  · rw [bne_self_eq_false] at hbad
    cases hbad
  have hkept : ∀ {q}, ¬ (checkpointsRoot ++ p ++ [snapshotTreeName]) <+: q →
      z.node q = t.node q := fun hq => (hbelow.outside _ hq).trans (hu _ hq)
  refine wp_pure ⟨hxbelow, ?_, hxdigest, (hsource hubelow).symm.trans hdigest⟩
  rw [hkept, hempty _ (List.cons_ne_nil _ _)]
  intro hpre
  exact (apart_siblings (by decide)).1 hpre

theorem unixMillis_eq_ok {clock : Option Nat} {millis : Nat} :
    unixMillis clock = .ok millis ↔ clock = some millis ∧ millis ≤ u64Max := by
  rcases clock with _ | other
  · constructor
    · intro h
      cases h
    · rintro ⟨h, -⟩
      cases h
  · simp only [unixMillis]
    split
    · rename_i hlarge
      constructor
      · intro h
        cases h
      · rintro ⟨h, hle⟩
        cases h
        omega
    · rename_i hsmall
      constructor
      · intro h
        cases h
        exact ⟨rfl, Nat.not_lt.mp hsmall⟩
      · rintro ⟨h, -⟩
        cases h
        rfl

/-- The closure of `create_checkpoint_sync` up to the rename. -/
def fillAndRename (env : Env) (project : ProjectRef) (reason : CheckpointReason)
    (id : CheckpointId) (clock : Option Nat) (dir : Path) (temp : String) :
    StoreM CheckpointMetadata := do
  let tempDir := dir ++ [temp]
  let copied ← copyProject env project tempDir
  let createdUnixMs ← resume (unixMillis clock)
  let metadata := metadataOf project reason id createdUnixMs copied
  resume metadata.validate
  writeMetadata env tempDir metadata
  syncDir (tempDir ++ [snapshotTreeName])
  syncDir tempDir
  io (.rename dir temp id.dirName) "checkpoint_publish_rename_failed"
  pure metadata

theorem fillAndPublish_eq {reason : CheckpointReason} {clock : Option Nat} {dir : Path}
    {temp : String} : fillAndPublish env project reason id clock dir temp =
      (fillAndRename env project reason id clock dir temp >>= fun metadata =>
        syncDir dir >>= fun _ => pure metadata) := by
  unfold fillAndPublish fillAndRename
  simp only [prog_bind_assoc]
  rfl

/-- The copy gets its final name, or nothing but what the staging directory holds has changed. -/
theorem wp_fillAndRename {reason : CheckpointReason} {clock : Option Nat} {temp : String}
    (hroot : project.root = expectedProjectRoot project.id) (hne : temp ≠ id.dirName)
    (hJ : ∀ u, Outside (projectCheckpointDir project.id ++ [temp]) d u → J u)
    (hout : Outside (projectCheckpointDir project.id ++ [temp]) d t)
    (hdir : t.node (projectCheckpointDir project.id ++ [temp]) = some .dir)
    (hempty : ∀ rel, rel ≠ [] →
      t.node (projectCheckpointDir project.id ++ [temp] ++ rel) = none) :
    Wp (Watch A J) ()
      (fillAndRename env project reason id clock (projectCheckpointDir project.id) temp)
      (Published env d (projectCheckpointDir project.id) project.id id temp)
      (fun _ u => Below (projectCheckpointDir project.id ++ [temp]) t u ∧
        (Calm A → ¬ Publishable env d project reason clock (projectCheckpointDir project.id) id))
      t := by
  refine wp_seq trivial (wp_copyProject (p := [ProjectId.dirName project.id, temp]) hroot hJ hout
    hdir hempty) ?_ ?_
  swap
  · rintro e u - ⟨hu, hnone⟩
    refine ⟨hu, fun hcalm h => ?_⟩
    obtain ⟨digest, millis, hdigest, -⟩ := h.metadata
    rw [hnone hcalm] at hdigest
    cases hdigest
  rintro copied u - ⟨hu, hslot, htree, hsource⟩
  have hout' : ∀ {v : Disk}, Below (projectCheckpointDir project.id ++ [temp]) t v →
      Outside (projectCheckpointDir project.id ++ [temp]) d v := fun hv => hout.trans hv.outside
  have hudir : u.node (projectCheckpointDir project.id ++ [temp]) = some .dir := hu.self.trans hdir
  -- a failure that cannot happen when all is calm
  have hfaulty : ∀ {v : Disk}, Below (projectCheckpointDir project.id ++ [temp]) t v →
      ¬ Calm A → Below (projectCheckpointDir project.id ++ [temp]) t v ∧
        (Calm A → ¬ Publishable env d project reason clock (projectCheckpointDir project.id) id) :=
    fun hv hno => ⟨hv, fun hcalm => (hno hcalm).elim⟩
  have hready : ∀ {P : Prop}, (∀ millis, clock = some millis → millis ≤ u64Max →
        (metadataOf project reason id millis copied).validate = .ok () →
        (env.encode (metadataOf project reason id millis copied)).length ≤ maxMetadataBytes → P) →
      Publishable env d project reason clock (projectCheckpointDir project.id) id → P := by
    intro P hP h
    obtain ⟨digest, millis, hdigest, hrest⟩ := h.metadata
    rw [hsource] at hdigest
    cases hdigest
    exact hP millis hrest.1 hrest.2.1 hrest.2.2.1 hrest.2.2.2
  refine wp_bind (wp_resume ?_)
  rcases hmillis : unixMillis clock with e | millis
  · refine ⟨hu, fun _ => hready (fun millis hclock hle _ _ => ?_)⟩
    rw [unixMillis_eq_ok.mpr ⟨hclock, hle⟩] at hmillis
    cases hmillis
  have hclock : ∀ {other}, clock = some other → other = millis := by
    intro other hother
    rw [(unixMillis_eq_ok.mp hmillis).1] at hother
    exact (Option.some.inj hother).symm
  refine wp_bind (wp_resume ?_)
  rcases hvalid : (metadataOf project reason id millis copied).validate with e | ⟨⟩
  · refine ⟨hu, fun _ => hready (fun other hother _ hok _ => ?_)⟩
    rw [hclock hother, hvalid] at hok
    cases hok
  have hwritten : ∀ {v : Disk}, Outside (projectCheckpointDir project.id ++ [temp] ++
      [metadataName]) u v → Below (projectCheckpointDir project.id ++ [temp]) t v :=
    fun h => hu.trans h.below
  refine wp_seq trivial (wp_writeMetadata (fun v hv => hJ v (hout' (hwritten hv))) hudir hslot) ?_ ?_
  swap
  · rintro e v - ⟨hv, hlong⟩
    refine ⟨hwritten hv, fun hcalm => hready (fun other hother _ _ hshort => ?_)⟩
    rw [hclock hother] at hshort
    have hgt := hlong hcalm
    omega
  rintro _ v - ⟨hv, hfile, hshort⟩
  have hvbelow := hwritten hv
  have hvout := hout' hvbelow
  have hvdir : v.node (projectCheckpointDir project.id ++ [temp]) = some .dir :=
    hvbelow.self.trans hdir
  have hvtree : treeDigest env.sha256 v
      (projectCheckpointDir project.id ++ [temp] ++ [snapshotTreeName]) = some copied := by
    rw [← htree]
    exact treeDigest_congr ((apart_siblings (by decide)).sub_of_outside hv)
  have hcomplete : Complete env v (projectCheckpointDir project.id ++ [temp]) project.id id
      (metadataOf project reason id millis copied) copied :=
    ⟨hfile, hshort, hvalid, rfl, rfl, hvtree, rfl, rfl, rfl⟩
  refine wp_seq trivial (wp_syncDir (hJ v hvout)) ?_ ?_
  swap
  · rintro e w - ⟨rfl, hno⟩
    exact hfaulty hvbelow (fun hcalm => hno hcalm (dir_of_treeDigest hvtree))
  rintro _ w - ⟨rfl, -⟩
  refine wp_seq trivial (wp_syncDir (hJ w hvout)) ?_ ?_
  swap
  · rintro e x - ⟨rfl, hno⟩
    exact hfaulty hvbelow (fun hcalm => hno hcalm hvdir)
  rintro _ x - ⟨rfl, -⟩
  refine wp_seq trivial (wp_rename (hJ x hvout) hvdir hne) ?_ ?_
  swap
  · rintro e y - ⟨rfl, htaken⟩
    refine ⟨hvbelow, fun hcalm h => htaken hcalm ?_⟩
    rw [hvout _ (apart_siblings hne).1]
    exact h.free
  rintro _ y - hy
  refine wp_pure ⟨⟨copied, hcomplete.congr hy.target⟩, ?_, fun q htemp hfinal => ?_⟩
  · rw [← FileTree.sub_nil, hy.target, FileTree.sub_nil, hvdir]
  · rw [hy.other q htemp hfinal, hvout q htemp]

/-- The parent of a published checkpoint is still there. -/
theorem Published.parent {parent : Path} {project : ProjectId} {temp : String}
    {m : CheckpointMetadata} (h : Published env d parent project id temp m t) :
    t.node parent = some .dir := by
  refine t.rooted parent id.dirName ?_
  rw [h.dir]
  exact Option.some_ne_none _

/-- The checkpoint is published, or nothing but the staging directory has changed. -/
theorem wp_fillAndPublish {reason : CheckpointReason} {clock : Option Nat} {temp : String}
    (hroot : project.root = expectedProjectRoot project.id) (hne : temp ≠ id.dirName)
    (hJ : ∀ u, Outside (projectCheckpointDir project.id ++ [temp]) d u → J u)
    (hJ' : ∀ m u, Published env d (projectCheckpointDir project.id) project.id id temp m u → J u)
    (hout : Outside (projectCheckpointDir project.id ++ [temp]) d t)
    (hdir : t.node (projectCheckpointDir project.id ++ [temp]) = some .dir)
    (hempty : ∀ rel, rel ≠ [] →
      t.node (projectCheckpointDir project.id ++ [temp] ++ rel) = none) :
    Wp (Watch A J) ()
      (fillAndPublish env project reason id clock (projectCheckpointDir project.id) temp)
      (Published env d (projectCheckpointDir project.id) project.id id temp)
      (fun _ u => (Outside (projectCheckpointDir project.id ++ [temp]) d u ∨
          ∃ m, Published env d (projectCheckpointDir project.id) project.id id temp m u) ∧
        (Calm A → ¬ Publishable env d project reason clock (projectCheckpointDir project.id) id))
      t := by
  rw [fillAndPublish_eq]
  refine wp_seq trivial (wp_fillAndRename hroot hne hJ hout hdir hempty) ?_ ?_
  swap
  · rintro e u - ⟨hu, hno⟩
    exact ⟨.inl (hout.trans hu.outside), hno⟩
  rintro m u - hpublished
  refine wp_seq trivial (wp_syncDir (hJ' _ u hpublished)) ?_ ?_
  · rintro _ v - ⟨rfl, -⟩
    exact wp_pure hpublished
  · rintro e v - ⟨rfl, hno⟩
    exact ⟨.inr ⟨_, hpublished⟩, fun hcalm => (hno hcalm hpublished.parent).elim⟩

/-! ## A whole creation -/

/-- What a creation has done so far. -/
inductive Creating (env : Env) (d : Disk) (project : ProjectRef) : Disk → Prop where
  | before : Creating env d project d
  /-- There is the directory of the project, and something in one staging directory. -/
  | filling {c t : Disk} {temp : String}
      (ensured : Ensured d checkpointsRoot (ProjectId.dirName project.id) c)
      (staging : startsWith temp checkpointTempPrefix = true)
      (outside : Outside (projectCheckpointDir project.id ++ [temp]) c t) : Creating env d project t
  /-- The checkpoint is there. -/
  | published {c t : Disk} {id : CheckpointId} {temp : String} {m : CheckpointMetadata}
      (ensured : Ensured d checkpointsRoot (ProjectId.dirName project.id) c)
      (staging : startsWith temp checkpointTempPrefix = true)
      (room : (permanent c (projectCheckpointDir project.id)).length < maxCheckpointsPerProject)
      (done : Published env c (projectCheckpointDir project.id) project.id id temp m t) :
      Creating env d project t

/-- A project that can be checkpointed, in a store that can take one more. -/
structure Ready (env : Env) (d : Disk) (project : ProjectRef) (reason : CheckpointReason)
    (draw : Nat → BitVec 128) (clock : Option Nat) : Prop where
  there : ProjectThere d project
  makeable : Makeable d checkpointsRoot (ProjectId.dirName project.id)
  listable : d.node (projectCheckpointDir project.id) ≠ none →
    Listable d (projectCheckpointDir project.id) ∧
      (permanent d (projectCheckpointDir project.id)).length < maxCheckpointsPerProject
  fresh : ∃ n, n < 8 ∧ FreeId d (projectCheckpointDir project.id) ⟨draw n⟩
  metadata : ∃ digest millis, treeDigest env.sha256 d project.root = some digest ∧
    clock = some millis ∧ millis ≤ u64Max ∧ ∀ id,
      (metadataOf project reason id millis digest).validate = .ok () ∧
        (env.encode (metadataOf project reason id millis digest)).length ≤ maxMetadataBytes

theorem isPermanent_dirName (id : CheckpointId) : isPermanent id.dirName = true := by
  unfold isPermanent
  rw [show startsWith id.dirName checkpointTempPrefix = false from hyphenated_not_dot (by decide)]
  rfl

theorem temp_ne_dirName {temp : String} (h : startsWith temp checkpointTempPrefix = true) :
    temp ≠ id.dirName := by
  rintro rfl
  have hno : startsWith id.dirName checkpointTempPrefix = false := hyphenated_not_dot (by decide)
  rw [hno] at h
  cases h

theorem Published.of_outside {parent : Path} {project : ProjectId} {temp : String}
    {m : CheckpointMetadata} (h : Published env d parent project id temp m t)
    (hne : temp ≠ id.dirName) (hout : Outside (parent ++ [temp]) t u) :
    Published env d parent project id temp m u := by
  have hsame : u.sub (parent ++ [id.dirName]) = t.sub (parent ++ [id.dirName]) :=
    (apart_siblings hne.symm).sub_of_outside hout
  obtain ⟨digest, hcomplete⟩ := h.complete
  refine ⟨⟨digest, hcomplete.congr hsame⟩, ?_, fun q htemp hfinal => ?_⟩
  · rw [← FileTree.sub_nil, hsame, FileTree.sub_nil, h.dir]
  · rw [hout q htemp, h.other q htemp hfinal]

/-- A removal whose result is dropped. -/
theorem wp_attemptRemoveAny {p : Path} {E : VibeCoderError → Disk → Prop} (hJ : J d) :
    Wp (Watch A J) () (attemptOnly (removeTree p)) (fun _ t => Outside p d t) E d := by
  refine wp_bind (wp_settle (wp_attempt hJ (fun w hw t hrely _ => ?_)))
  have ht : (Disk.exec w (.removeDirAll p) d).2 = t := hrely
  have hout : Outside p d t := by
    rw [← ht]
    unfold Disk.exec
    split
    · exact .refl p d
    · exact perform_removeDirAll_outside w p
  show Post _ _ (Disk.exec w (.removeDirAll p) d).1 t
  cases (Disk.exec w (.removeDirAll p) d).1 with
  | ok v => exact wp_pure hout
  | error e => exact wp_pure hout

/-- Making the directory of a project changes nothing but that. -/
theorem Ensured.other {parent : Path} {name : String} (h : Ensured d parent name t) {q : Path}
    (hq : q ≠ parent ++ [name]) : t.node q = d.node q := by
  rcases h with ⟨rfl, -⟩ | ⟨-, hput⟩
  · rfl
  · exact Disk.put_other hput hq

theorem Ensured.child {parent : Path} {name child : String} (h : Ensured d parent name t) :
    t.node (parent ++ [name] ++ [child]) = d.node (parent ++ [name] ++ [child]) :=
  h.other (fun heq => List.cons_ne_nil child [] (List.append_right_eq_self.mp heq))

theorem permanent_eq_nil {p : Path} (h : ∀ name, d.node (p ++ [name]) = none) :
    permanent d p = [] := by
  refine List.eq_nil_iff_forall_not_mem.mpr (fun name hmem => ?_)
  exact (mem_permanent.mp hmem).1 (h name)

theorem Ready.listable_ensured {reason : CheckpointReason} {draw : Nat → BitVec 128}
    {clock : Option Nat} (h : Ready env d project reason draw clock)
    (hc : Ensured d checkpointsRoot (ProjectId.dirName project.id) t) :
    Listable t (projectCheckpointDir project.id) ∧
      (permanent t (projectCheckpointDir project.id)).length < maxCheckpointsPerProject := by
  rcases hc with ⟨rfl, hthere⟩ | ⟨hnew, hput⟩
  · exact h.listable hthere
  · have hnil : permanent t (projectCheckpointDir project.id) = [] :=
      permanent_eq_nil (fun name => Disk.put_dir_empty hnew hput (List.cons_ne_nil _ _))
    rw [hnil]
    refine ⟨⟨Disk.put_self hput, ?_, ?_⟩, by decide⟩
    · rw [hnil]
      exact fun name hmem => absurd hmem List.not_mem_nil
    · rw [hnil]
      exact Nat.zero_le _

theorem Ensured.dirThere (hc : Ensured d checkpointsRoot (ProjectId.dirName project.id) t)
    (h : Makeable d checkpointsRoot (ProjectId.dirName project.id)) :
    t.node (projectCheckpointDir project.id) = some .dir := by
  rcases hc with ⟨rfl, hthere⟩ | ⟨-, hput⟩
  · exact h.free.resolve_left hthere
  · exact Disk.put_self hput

theorem Ready.publishable {reason : CheckpointReason} {draw : Nat → BitVec 128}
    {clock : Option Nat} (h : Ready env d project reason draw clock)
    (hc : Ensured d checkpointsRoot (ProjectId.dirName project.id) t)
    (hfree : t.node (projectCheckpointDir project.id ++ [id.dirName]) = none) :
    Publishable env t project reason clock (projectCheckpointDir project.id) id := by
  obtain ⟨digest, millis, hdigest, hclock, hle, hgood⟩ := h.metadata
  refine ⟨hfree, digest, millis, ?_, hclock, hle, (hgood id).1, (hgood id).2⟩
  rw [← hdigest]
  refine treeDigest_congr (funext fun rel => hc.other ?_)
  rw [h.there.root]
  intro heq
  exact not_prefix_checkpoints ⟨rel, heq⟩

/-- `create_checkpoint_sync` up to the staging directory. -/
def beginCreation (project : ProjectRef) (draw : Nat → BitVec 128) :
    StoreM (Path × CheckpointId) := do
  verifyProject project
  let dir ← createOrVerifyPrivateChild checkpointsRoot (ProjectId.dirName project.id)
  let existing ← listCheckpointIds dir
  refuseIf (decide (existing.length ≥ maxCheckpointsPerProject)) "checkpoint_project_limit_reached"
  let id ← freshCheckpointId dir draw 8
  createDir dir (tempName checkpointTempPrefix id.uuid) "checkpoint_temp_create_failed"
  pure (dir, id)

/-- What `create_checkpoint_sync` does with the result of its closure. -/
def endCreation (tempDir : Path) : Result CheckpointMetadata → StoreM CheckpointMetadata
  | .ok metadata => pure metadata
  | .error e => do
    let found ← pathExists tempDir
    onlyIf found (attemptOnly (removeTree tempDir))
    throw e

/-- The clean-up ends in the error, and touches nothing but the staging directory. -/
theorem wp_endCreation {p : Path} {e : VibeCoderError} (hJ : J d) :
    Wp (Watch A J) () (endCreation p (.error e)) (fun _ _ => False) (fun _ t => Outside p d t) d := by
  refine wp_seq trivial (wp_pathExists hJ) ?_ (fun _ _ _ h => h.elim)
  rintro found t - ⟨rfl, -⟩
  have hremove : Wp (Watch A J) () (onlyIf found (attemptOnly (removeTree p)))
      (fun _ u => Outside p t u) (fun _ _ => False) t := by
    cases found with
    | true => exact wp_attemptRemoveAny hJ
    | false => exact wp_pure (.refl _ _)
  refine wp_seq trivial hremove ?_ (fun _ _ _ h => h.elim)
  rintro _ u - hu
  exact wp_throw hu

theorem createCheckpoint_eq {reason : CheckpointReason} {draw : Nat → BitVec 128}
    {clock : Option Nat} : createCheckpoint env project reason draw clock =
      (beginCreation project draw >>= fun begun =>
        setPrivateDirMode (begun.1 ++ [tempName checkpointTempPrefix begun.2.uuid]) >>= fun _ =>
        settle (fillAndPublish env project reason begun.2 clock begun.1
          (tempName checkpointTempPrefix begun.2.uuid)) >>=
        endCreation (begun.1 ++ [tempName checkpointTempPrefix begun.2.uuid])) := by
  unfold createCheckpoint beginCreation
  simp only [prog_bind_assoc]
  rfl

/-- The staging directory of a new id is there, and empty; before, its name was free. -/
structure Begun (d : Disk) (project : ProjectRef) (id : CheckpointId) (c t : Disk) : Prop where
  there : ProjectThere d project
  ensured : Ensured d checkpointsRoot (ProjectId.dirName project.id) c
  room : (permanent c (projectCheckpointDir project.id)).length < maxCheckpointsPerProject
  unused : c.node (projectCheckpointDir project.id ++ [tempName checkpointTempPrefix id.uuid]) = none
  outside : Outside (projectCheckpointDir project.id ++ [tempName checkpointTempPrefix id.uuid]) c t
  dir : t.node (projectCheckpointDir project.id ++ [tempName checkpointTempPrefix id.uuid]) =
    some .dir
  empty : ∀ rel, rel ≠ [] → t.node (projectCheckpointDir project.id ++
    [tempName checkpointTempPrefix id.uuid] ++ rel) = none

/-- Until the staging directory is there, only the directory of the project is made. -/
theorem wp_beginCreation {draw : Nat → BitVec 128} (hJ : J d)
    (hJ' : ∀ u, Ensured d checkpointsRoot (ProjectId.dirName project.id) u → J u) :
    Wp (Watch A J) () (beginCreation project draw)
      (fun begun t => begun.1 = projectCheckpointDir project.id ∧
        ∃ c, Begun d project begun.2 c t ∧
          (Calm A → FreeId c (projectCheckpointDir project.id) begun.2))
      (fun _ t => (t = d ∨ Ensured d checkpointsRoot (ProjectId.dirName project.id) t) ∧
        (Calm A → ∀ {env reason clock}, ¬ Ready env d project reason draw clock)) d := by
  refine wp_seq trivial (wp_verifyProject hJ) ?_ ?_
  swap
  · rintro e t - ⟨rfl, hno⟩
    exact ⟨.inl rfl, fun hcalm _ _ _ h => hno hcalm h.there⟩
  rintro _ t - ⟨rfl, hthere⟩
  refine wp_seq trivial (wp_createOrVerifyPrivateChild hJ hJ') ?_ ?_
  swap
  · rintro e u - ⟨hu, hno⟩
    exact ⟨hu, fun hcalm _ _ _ h => hno hcalm h.makeable⟩
  rintro parent c - ⟨rfl, hc⟩
  refine wp_seq trivial (wp_listCheckpointIds (hJ' c hc)) ?_ ?_
  swap
  · rintro e u - ⟨rfl, hno⟩
    exact ⟨.inr hc, fun hcalm _ _ _ h => hno hcalm (h.listable_ensured hc).1⟩
  rintro existing u - ⟨rfl, hdir, hperm⟩
  have hlength : existing.length = (permanent u (projectCheckpointDir project.id)).length := by
    rw [← List.length_map (f := CheckpointId.dirName)]
    exact hperm.length_eq
  refine wp_refuse (fun hfull => ?_) (fun hroom => ?_)
  · refine ⟨.inr hc, fun _ _ _ _ h => ?_⟩
    have hge : existing.length ≥ maxCheckpointsPerProject := of_decide_eq_true hfull
    have hlt := (h.listable_ensured hc).2
    omega
  have hroom' : (permanent u (projectCheckpointDir project.id)).length <
      maxCheckpointsPerProject := by
    have hnot : ¬ existing.length ≥ maxCheckpointsPerProject := of_decide_eq_false hroom
    omega
  refine wp_seq trivial (wp_freshCheckpointId (hJ' u hc)) ?_ ?_
  swap
  · rintro e v - ⟨rfl, hno⟩
    refine ⟨.inr hc, fun hcalm _ _ _ h => ?_⟩
    obtain ⟨n, hn, hfree⟩ := h.fresh
    refine hno hcalm n hn ⟨?_, ?_⟩
    · rw [← hfree.final]
      exact hc.child
    · rw [← hfree.temp]
      exact hc.child
  rintro id v - ⟨rfl, -, hfree⟩
  -- the staging directory is made, unless its name is taken after all
  by_cases htaken : v.node (projectCheckpointDir project.id ++
      [tempName checkpointTempPrefix id.uuid]) = none
  · refine wp_seq trivial (wp_createDir (hJ' v hc) hdir htaken) ?_ ?_
    · rintro _ x - ⟨hout, htemp, hempty⟩
      exact wp_pure ⟨rfl, v, ⟨hthere, hc, hroom', htaken, hout, htemp, hempty⟩, hfree⟩
    · rintro e x - ⟨rfl, hno⟩
      exact ⟨.inr hc, fun hcalm => (hno hcalm).elim⟩
  · refine wp_seq trivial (wp_createDir_taken (hJ' v hc) htaken) (fun _ _ _ h => h.elim) ?_
    rintro e x - rfl
    exact ⟨.inr hc, fun hcalm => absurd (hfree hcalm).temp htaken⟩

theorem startsWith_staging : startsWith (tempName checkpointTempPrefix id.uuid)
    checkpointTempPrefix = true := startsWith_tempName _ _

theorem staging_ne_dirName : tempName checkpointTempPrefix id.uuid ≠ id.dirName :=
  temp_ne_dirName startsWith_staging

/-- **Creation.**  At every request only the new checkpoint and one staging directory differ; when
    no request fails, a project that is ready gets its checkpoint. -/
theorem wp_createCheckpoint {reason : CheckpointReason} {draw : Nat → BitVec 128}
    {clock : Option Nat} (hJ : ∀ u, Creating env d project u → J u) :
    Wp (Watch A J) () (createCheckpoint env project reason draw clock)
      (fun _ u => Creating env d project u)
      (fun _ u => Creating env d project u ∧
        (Calm A → ¬ Ready env d project reason draw clock)) d := by
  -- the staging prefix, for a state in which nothing has been staged yet
  have hblank : ∀ {u : Disk}, Ensured d checkpointsRoot (ProjectId.dirName project.id) u →
      Creating env d project u :=
    fun hu => .filling hu (startsWith_tempName _ 0) (.refl _ _)
  rw [createCheckpoint_eq]
  refine wp_seq trivial (wp_beginCreation (hJ d .before) (fun u hu => hJ u (hblank hu))) ?_ ?_
  swap
  · rintro e t - ⟨rfl | ht, hno⟩
    · exact ⟨.before, fun hcalm => hno hcalm⟩
    · exact ⟨hblank ht, fun hcalm => hno hcalm⟩
  rintro ⟨_, id⟩ t - ⟨rfl, c, hbegun, hfree⟩
  have hfilling : ∀ {x : Disk}, Outside (projectCheckpointDir project.id ++
      [tempName checkpointTempPrefix id.uuid]) c x → Creating env d project x :=
    fun hx => .filling hbegun.ensured startsWith_staging hx
  refine wp_seq trivial (wp_setPrivateDirMode (hJ t (hfilling hbegun.outside))) ?_ ?_
  swap
  · rintro e y - ⟨rfl, hno⟩
    exact ⟨hfilling hbegun.outside, fun hcalm _ => hno hcalm hbegun.dir⟩
  rintro _ x - rfl
  have hpublished : ∀ {m : CheckpointMetadata} {y : Disk}, Published env c
      (projectCheckpointDir project.id) project.id id (tempName checkpointTempPrefix id.uuid) m y →
      Creating env d project y :=
    fun h => .published hbegun.ensured startsWith_staging hbegun.room h
  refine wp_bind (wp_settle (Wp.mono trivial (wp_fillAndPublish hbegun.there.root
    staging_ne_dirName (fun y hy => hJ y (hfilling hy)) (fun m y hy => hJ y (hpublished hy))
    hbegun.outside hbegun.dir hbegun.empty) ?_ ?_))
  · intro m y _ hy
    exact wp_pure (hpublished hy)
  rintro e y - ⟨hstate, hno⟩
  have hsafe : ∀ z : Disk, Outside (projectCheckpointDir project.id ++
      [tempName checkpointTempPrefix id.uuid]) y z → Creating env d project z := by
    intro z hz
    rcases hstate with hy | ⟨m, hy⟩
    · exact hfilling (hy.trans hz)
    · exact hpublished (hy.of_outside staging_ne_dirName hz)
  have hdone : Calm A → ¬ Ready env d project reason draw clock :=
    fun hcalm h => hno hcalm (h.publishable hbegun.ensured (hfree hcalm).final)
  refine Wp.mono trivial (wp_endCreation (hJ y (hsafe y (.refl _ _)))) (fun _ _ _ h => h.elim) ?_
  exact fun _ w _ hw => ⟨hsafe w hw, hdone⟩

end VibeCoder.Checkpoint
