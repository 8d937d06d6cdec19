/-
  The checkpoint store over whole runs.

  1. **The invariant** — whatever a project's directory lists under a permanent name is a complete
     checkpoint of that id, and there are at most 64 (`StoreInv`).

  2. **The steps** — a run is made of starts, creations, removals and rollbacks, each of which may
     fail or die at any request, and of edits of the projects (`Event`, `step`).

  3. **The law** — from such a store a listing succeeds, and what it lists can be rolled back to
     (`Consistent`); this holds all along a run none of whose removals is cut short in the middle
     (`store_consistent`).  A removal that is cut short can break it (`cut_removal_breaks_listing`).
-/
import Mathlib.Data.List.Perm.Subperm
import VibeCoder.Lib.Run
import VibeCoder.Checkpoint.Creation

namespace VibeCoder.Checkpoint

open Resume Files Runs

variable {A : World → Prop} {J : Disk → Prop} {c d t u : Disk} {env : Env}
variable {project : ProjectId} {id : CheckpointId}

/-! ## The invariant -/

/-- The checkpoint is complete. -/
def Stored (env : Env) (d : Disk) (project : ProjectId) (id : CheckpointId) : Prop :=
  ∃ m digest, Loaded env d project id m ∧
    treeDigest env.sha256 d (snapshotTree project id) = some digest ∧
    digest.sha256 = m.treeSha256 ∧ digest.fileCount = m.fileCount ∧
    digest.totalBytes = m.totalBytes

structure StoreInv (env : Env) (d : Disk) : Prop where
  dir : ∀ project, d.node (projectCheckpointDir project) ≠ none →
    d.node (projectCheckpointDir project) = some .dir
  stored : ∀ project name, name ∈ permanent d (projectCheckpointDir project) →
    ∃ id : CheckpointId, id.dirName = name ∧ Stored env d project id
  room : ∀ project, (permanent d (projectCheckpointDir project)).length ≤ maxCheckpointsPerProject

theorem Stored.congr (h : Stored env d project id)
    (hsame : t.sub (checkpointDir project id) = d.sub (checkpointDir project id)) :
    Stored env t project id := by
  obtain ⟨m, digest, hloaded, hdigest, hrest⟩ := h
  refine ⟨m, digest, hloaded.congr hsame, ?_, hrest⟩
  rw [treeDigest_congr (sub_snapshot hsame), hdigest]

theorem nodup_permanent (d : Disk) (p : Path) : (permanent d p).Nodup :=
  (d.nodup_names p).filter _

/-- Every project has at most 64 checkpoints. -/
def HasRoom (d : Disk) : Prop :=
  ∀ project, (permanent d (projectCheckpointDir project)).length ≤ maxCheckpointsPerProject

/-- Where no checkpoint is new, there are no more than before. -/
theorem HasRoom.of_kept (h : HasRoom d)
    (hkept : ∀ project name, isPermanent name = true →
      t.node (projectCheckpointDir project ++ [name]) ≠ none →
        d.node (projectCheckpointDir project ++ [name]) ≠ none) : HasRoom t := by
  intro project
  have hsubset : permanent t (projectCheckpointDir project) ⊆
      permanent d (projectCheckpointDir project) := by
    intro name hmem
    obtain ⟨hthere, hperm⟩ := mem_permanent.mp hmem
    exact mem_permanent.mpr ⟨hkept project name hperm hthere, hperm⟩
  exact Nat.le_trans (List.subperm_of_subset (nodup_permanent t _) hsubset).length_le (h project)

/-- The checkpoints of all projects are as they were. -/
def SameEntries (d t : Disk) : Prop := ∀ project name, isPermanent name = true →
  t.sub (projectCheckpointDir project ++ [name]) = d.sub (projectCheckpointDir project ++ [name])

theorem SameEntries.node (h : SameEntries d t) {project : ProjectId} {name : String}
    (hname : isPermanent name = true) : t.node (projectCheckpointDir project ++ [name]) =
      d.node (projectCheckpointDir project ++ [name]) := by
  rw [← FileTree.sub_nil, h project name hname, FileTree.sub_nil]

theorem SameEntries.room (hsame : SameEntries d t) (h : HasRoom d) : HasRoom t :=
  h.of_kept (fun _ _ hname hthere => by rwa [← hsame.node hname])

/-- A store of which nothing has changed but that some checkpoints are gone. -/
theorem StoreInv.of_same (h : StoreInv env d)
    (hdir : ∀ project, t.node (projectCheckpointDir project) ≠ none →
      t.node (projectCheckpointDir project) = some .dir)
    (hsame : ∀ project name, isPermanent name = true →
      t.node (projectCheckpointDir project ++ [name]) = none ∨
        t.sub (projectCheckpointDir project ++ [name]) =
          d.sub (projectCheckpointDir project ++ [name])) : StoreInv env t := by
  have hkept : ∀ {project name}, isPermanent name = true →
      t.node (projectCheckpointDir project ++ [name]) ≠ none →
        t.sub (projectCheckpointDir project ++ [name]) =
          d.sub (projectCheckpointDir project ++ [name]) ∧
        d.node (projectCheckpointDir project ++ [name]) ≠ none := by
    intro project name hperm hthere
    have hsub := (hsame project name hperm).resolve_left hthere
    refine ⟨hsub, ?_⟩
    rw [← FileTree.sub_nil, ← hsub, FileTree.sub_nil]
    exact hthere
  refine ⟨hdir, fun project name hmem => ?_, ?_⟩
  · obtain ⟨hthere, hperm⟩ := mem_permanent.mp hmem
    obtain ⟨hsub, hold⟩ := hkept hperm hthere
    obtain ⟨id, rfl, hstored⟩ := h.stored project name (mem_permanent.mpr ⟨hold, hperm⟩)
    exact ⟨id, rfl, hstored.congr hsub⟩
  · have hroom : HasRoom d := h.room
    exact hroom.of_kept (fun _ _ hperm hthere => (hkept hperm hthere).2)

/-- A store whose checkpoints are as they were. -/
theorem StoreInv.of_entries (h : StoreInv env d)
    (hdir : ∀ project, t.node (projectCheckpointDir project) ≠ none →
      t.node (projectCheckpointDir project) = some .dir)
    (hsame : SameEntries d t) : StoreInv env t :=
  h.of_same hdir (fun project name hname => .inr (hsame project name hname))

/-! ## Where the checkpoints of other projects are -/

theorem dirName_injective {p q : ProjectId} (h : ProjectId.dirName p = ProjectId.dirName q) :
    p = q := by
  have huuid : p.uuid = q.uuid := UuidText.hyphenated_injective h
  cases p
  cases q
  cases huuid
  rfl

theorem same_entry {p q : ProjectId} {a b : String} {rel : Path}
    (h : (projectCheckpointDir p ++ [a]) <+: projectCheckpointDir q ++ [b] ++ rel) :
    p = q ∧ a = b := by
  have hnames : (checkpointsRoot ++ [ProjectId.dirName p, a]) <+:
      checkpointsRoot ++ ProjectId.dirName q :: b :: rel := h
  rw [List.prefix_append_right_inj, List.cons_prefix_cons, List.cons_prefix_cons] at hnames
  exact ⟨dirName_injective hnames.1, hnames.2.1⟩

theorem entry_not_above {p q : ProjectId} {a : String} :
    ¬ (projectCheckpointDir p ++ [a]) <+: projectCheckpointDir q := by
  intro hpre
  have hle := hpre.length_le
  change 4 ≤ 3 at hle
  omega

theorem isPermanent_ne {temp name : String} (htemp : startsWith temp checkpointTempPrefix = true)
    (hname : isPermanent name = true) : temp ≠ name := by
  rintro rfl
  unfold isPermanent at hname
  rw [htemp] at hname
  cases hname

/-- What changes in a staging directory is not listed. -/
theorem SameEntries.of_temp {temp : String} (htemp : startsWith temp checkpointTempPrefix = true)
    (hout : Outside (projectCheckpointDir project ++ [temp]) d t) : SameEntries d t := by
  intro other name hname
  funext rel
  exact hout _ (fun hpre => isPermanent_ne htemp hname (same_entry hpre).2)

theorem StoreInv.outside_temp (h : StoreInv env d) {temp : String}
    (htemp : startsWith temp checkpointTempPrefix = true)
    (hout : Outside (projectCheckpointDir project ++ [temp]) d t) : StoreInv env t := by
  refine h.of_entries (fun other hthere => ?_) (.of_temp htemp hout)
  rw [hout _ entry_not_above] at hthere ⊢
  exact h.dir other hthere

/-- Making the directory of a project changes no entry of any. -/
theorem Ensured.entry (hc : Ensured d checkpointsRoot (ProjectId.dirName project) t)
    (other : ProjectId) (name : String) : t.sub (projectCheckpointDir other ++ [name]) =
      d.sub (projectCheckpointDir other ++ [name]) := by
  funext rel
  refine hc.other (fun heq => ?_)
  have hlength := congrArg List.length heq
  rw [List.length_append] at hlength
  change 4 + rel.length = 3 at hlength
  omega

/-- A new directory of a project lists nothing. -/
theorem StoreInv.ensured (h : StoreInv env d)
    (hc : Ensured d checkpointsRoot (ProjectId.dirName project) t) : StoreInv env t := by
  refine h.of_entries (fun other hthere => ?_) (fun other name _ => hc.entry other name)
  rcases hc with ⟨rfl, -⟩ | ⟨-, hput⟩
  · exact h.dir other hthere
  · by_cases heq : projectCheckpointDir other = checkpointsRoot ++ [ProjectId.dirName project]
    · rw [heq]
      exact Disk.put_self hput
    · rw [Disk.put_other hput heq] at hthere ⊢
      exact h.dir other hthere

/-- A complete checkpoint whose text reads back. -/
theorem Complete.stored {m : CheckpointMetadata} {digest : TreeDigest}
    (h : Complete env d (checkpointDir project id) project id m digest)
    (hdir : d.node (checkpointDir project id) = some .dir)
    (hcodec : env.decode (env.encode m) = some m) : Stored env d project id :=
  ⟨m, digest, ⟨hdir, ⟨_, _, h.file, h.short, hcodec⟩, h.valid, h.project, h.checkpoint⟩, h.tree,
    h.sha256, h.fileCount, h.totalBytes⟩

/-- `serde_json` reads back what it wrote. -/
def ReadsBack (env : Env) : Prop := ∀ m, m.validate = .ok () → env.decode (env.encode m) = some m

theorem readsBack_textEnv (sha256 : List UInt8 → String) : ReadsBack (textEnv sha256) :=
  fun _ h => readMetadataBytes_metadataBytes h

/-- Publication changes one entry. -/
theorem Published.entry {temp : String} {m : CheckpointMetadata}
    (hp : Published env c (projectCheckpointDir project) project id temp m t)
    (htemp : startsWith temp checkpointTempPrefix = true) {other : ProjectId} {name : String}
    (hname : isPermanent name = true) (hne : ¬ (other = project ∧ name = id.dirName)) :
    t.sub (projectCheckpointDir other ++ [name]) =
      c.sub (projectCheckpointDir other ++ [name]) := by
  funext rel
  refine hp.other _ (fun hpre => isPermanent_ne htemp hname (same_entry hpre).2) ?_
  intro hpre
  obtain ⟨rfl, rfl⟩ := same_entry hpre
  exact hne ⟨rfl, rfl⟩

/-- What is listed after a publication, and is not new, was listed before. -/
theorem Published.old {temp : String} {m : CheckpointMetadata}
    (hp : Published env c (projectCheckpointDir project) project id temp m t)
    (htemp : startsWith temp checkpointTempPrefix = true) {other : ProjectId} {name : String}
    (hmem : name ∈ permanent t (projectCheckpointDir other))
    (hne : ¬ (other = project ∧ name = id.dirName)) :
    name ∈ permanent c (projectCheckpointDir other) := by
  obtain ⟨hthere, hperm⟩ := mem_permanent.mp hmem
  refine mem_permanent.mpr ⟨?_, hperm⟩
  rw [← FileTree.sub_nil, ← hp.entry htemp hperm hne, FileTree.sub_nil]
  exact hthere

/-- Publication adds one checkpoint. -/
theorem HasRoom.published (h : HasRoom c) {temp : String} {m : CheckpointMetadata}
    (htemp : startsWith temp checkpointTempPrefix = true)
    (hroom : (permanent c (projectCheckpointDir project)).length < maxCheckpointsPerProject)
    (hp : Published env c (projectCheckpointDir project) project id temp m t) : HasRoom t := by
  intro other
  by_cases hother : other = project
  · subst hother
    have hsubset : permanent t (projectCheckpointDir other) ⊆
        id.dirName :: permanent c (projectCheckpointDir other) := by
      intro name hmem
      by_cases hname : name = id.dirName
      · rw [hname]
        exact List.mem_cons_self
      · exact List.mem_cons_of_mem _ (hp.old htemp hmem (fun hboth => hname hboth.2))
    have hle := (List.subperm_of_subset (nodup_permanent t _) hsubset).length_le
    rw [List.length_cons] at hle
    omega
  · have hsubset : permanent t (projectCheckpointDir other) ⊆
        permanent c (projectCheckpointDir other) :=
      fun _ hmem => hp.old htemp hmem (fun hboth => hother hboth.1)
    exact Nat.le_trans (List.subperm_of_subset (nodup_permanent t _) hsubset).length_le (h other)

theorem StoreInv.published (h : StoreInv env c) (hcodec : ReadsBack env) {temp : String}
    {m : CheckpointMetadata} (htemp : startsWith temp checkpointTempPrefix = true)
    (hroom : (permanent c (projectCheckpointDir project)).length < maxCheckpointsPerProject)
    (hp : Published env c (projectCheckpointDir project) project id temp m t) : StoreInv env t := by
  have hold : HasRoom c := h.room
  refine ⟨fun other hthere => ?_, fun other name hmem => ?_, hold.published htemp hroom hp⟩
  · rw [hp.other _ entry_not_above entry_not_above] at hthere ⊢
    exact h.dir other hthere
  · by_cases hnew : other = project ∧ name = id.dirName
    · obtain ⟨rfl, rfl⟩ := hnew
      obtain ⟨digest, hcomplete⟩ := hp.complete
      exact ⟨id, rfl, hcomplete.stored hp.dir (hcodec m hcomplete.valid)⟩
    · obtain ⟨id', rfl, hstored⟩ := h.stored other name (hp.old htemp hmem hnew)
      exact ⟨id', rfl, hstored.congr (hp.entry htemp (mem_permanent.mp hmem).2 hnew)⟩

/-! ## Listing -/

theorem CheckpointId.dirName_injective {a b : CheckpointId} (h : a.dirName = b.dirName) : a = b := by
  have huuid : a.uuid = b.uuid := UuidText.hyphenated_injective h
  cases a
  cases b
  cases huuid
  rfl

theorem wp_loadEach {ids : List CheckpointId} (hJ : J d) :
    Wp (Watch A J) () (loadEach env project ids)
      (fun all t => t = d ∧ ∀ m, m ∈ all → ∃ id, id ∈ ids ∧ Loaded env d project id m)
      (fun _ t => t = d ∧ (Calm A → ¬ ∀ id, id ∈ ids → ∃ m, Loaded env d project id m)) d := by
  induction ids with
  | nil => exact wp_pure ⟨rfl, fun m hmem => absurd hmem List.not_mem_nil⟩
  | cons id ids ih =>
    refine wp_seq trivial (wp_loadMetadata hJ) ?_ ?_
    swap
    · rintro e t - ⟨rfl, hno⟩
      refine ⟨rfl, fun hcalm hall => ?_⟩
      obtain ⟨m, hm⟩ := hall id List.mem_cons_self
      exact hno hcalm (some m) hm
    rintro found t - ⟨rfl, hfound⟩
    refine wp_seq trivial ih ?_ ?_
    · rintro rest u - ⟨rfl, hrest⟩
      refine wp_pure ⟨rfl, fun m hmem => ?_⟩
      rcases List.mem_append.mp hmem with hhere | hthere
      · cases found with
        | none => exact absurd hhere List.not_mem_nil
        | some m' =>
          rw [Option.toList_some, List.mem_singleton] at hhere
          subst hhere
          exact ⟨id, List.mem_cons_self, hfound⟩
      · obtain ⟨id', hid, hloaded⟩ := hrest m hthere
        exact ⟨id', List.mem_cons_of_mem _ hid, hloaded⟩
    · rintro e u - ⟨rfl, hno⟩
      refine ⟨rfl, fun hcalm hall => hno hcalm (fun id' hid => ?_)⟩
      exact hall id' (List.mem_cons_of_mem _ hid)

theorem StoreInv.listable (h : StoreInv env d)
    (hthere : d.node (projectCheckpointDir project) ≠ none) :
    Listable d (projectCheckpointDir project) := by
  refine ⟨h.dir project hthere, fun name hmem => ?_, h.room project⟩
  obtain ⟨id, rfl, m, digest, hloaded, -⟩ := h.stored project name hmem
  exact ⟨⟨id, rfl⟩, hloaded.dir⟩

theorem StoreInv.stored_of_mem (h : StoreInv env d)
    (hmem : id.dirName ∈ permanent d (projectCheckpointDir project)) :
    Stored env d project id := by
  obtain ⟨other, hname, hstored⟩ := h.stored project _ hmem
  rw [CheckpointId.dirName_injective hname] at hstored
  exact hstored

/-- A listing is read-only, and lists checkpoints that load. -/
theorem wp_listCheckpoints {maxResults : Nat} (hJ : J d) (hpos : 0 < maxResults)
    (hmax : maxResults ≤ maxCheckpointsPerProject) :
    Wp (Watch A J) () (listCheckpoints env project maxResults)
      (fun all t => t = d ∧ ∀ m, m ∈ all → ∃ id : CheckpointId,
        id.dirName ∈ permanent d (projectCheckpointDir project) ∧ Loaded env d project id m)
      (fun _ t => t = d ∧ (Calm A → ¬ StoreInv env d)) d := by
  refine wp_refuse (fun hbad => ?_) (fun _ => ?_)
  · rw [Bool.or_eq_true, decide_eq_true_eq, decide_eq_true_eq] at hbad
    omega
  refine wp_seq trivial (wp_pathExists hJ) ?_ (fun _ _ _ h => h.elim)
  rintro found t - ⟨rfl, hfound⟩
  cases found with
  | false => exact wp_pure ⟨rfl, fun m hmem => absurd hmem List.not_mem_nil⟩
  | true =>
    refine wp_seq trivial (wp_listCheckpointIds hJ) ?_ ?_
    swap
    · rintro e u - ⟨rfl, hno⟩
      refine ⟨rfl, fun hcalm h => hno hcalm (h.listable ?_)⟩
      rw [← Option.isSome_iff_ne_none]
      exact (hfound hcalm).symm
    rintro ids u - ⟨rfl, -, hperm⟩
    have hmem : ∀ {id}, id ∈ ids →
        id.dirName ∈ permanent u (projectCheckpointDir project) :=
      fun hid => hperm.mem_iff.mp (List.mem_map_of_mem hid)
    refine wp_seq trivial (wp_loadEach hJ) ?_ ?_
    · rintro all v - ⟨rfl, hall⟩
      refine wp_pure ⟨rfl, fun m hm => ?_⟩
      have hm' : m ∈ all := (List.mem_insertionSort _).mp (List.mem_of_mem_take hm)
      obtain ⟨id, hid, hloaded⟩ := hall m hm'
      exact ⟨id, hmem hid, hloaded⟩
    · rintro e v - ⟨rfl, hno⟩
      refine ⟨rfl, fun hcalm h => hno hcalm (fun id hid => ?_)⟩
      obtain ⟨m, digest, hloaded, -⟩ := h.stored_of_mem (hmem hid)
      exact ⟨m, hloaded⟩

/-! ## What a consistent store promises -/

/-- Nothing fails. -/
def Quiet (w : Nat → World) : Prop := ∀ n, (w n).fails = false

theorem Quiet.calm {w : Nat → World} (h : Quiet w) : Calm (During w) := by
  rintro v ⟨n, rfl⟩
  exact h n

/-- A listing of a project succeeds, and whatever it lists can be rolled back to. -/
def Consistent (env : Env) (d : Disk) : Prop :=
  ∀ project : ProjectRef, ProjectThere d project → ∀ maxResults, 0 < maxResults →
    maxResults ≤ maxCheckpointsPerProject → ∀ w, Quiet w →
    ∃ all n, runAlone Disk.exec w (listCheckpoints env project.id maxResults) 0 d =
        (.ok all, n, d) ∧
      ∀ m, m ∈ all → ∀ w, Quiet w → ∀ uuid, d.node (stagingDir (stagingName uuid)) = none →
        ∃ result after,
          runAlone Disk.exec w (rollback env project m.checkpointId uuid) 0 d =
            (.ok result, after) ∧
          after.2.sub (expectedProjectRoot project.id) =
            d.sub (snapshotTree project.id m.checkpointId)

theorem StoreInv.consistent (h : StoreInv env d) : Consistent env d := by
  intro project hthere maxResults hpos hmax w hquiet
  rcases hlist : runAlone Disk.exec w (listCheckpoints env project.id maxResults) 0 d
    with ⟨e | all, n, t⟩
  · exact ((wp_during_error (wp_listCheckpoints trivial hpos hmax) hlist).2 hquiet.calm h).elim
  obtain ⟨hsame, hall⟩ := wp_during_ok (wp_listCheckpoints trivial hpos hmax) hlist
  obtain rfl : t = d := hsame
  refine ⟨all, n, rfl, fun m hm w' hquiet' uuid hfree => ?_⟩
  obtain ⟨id, hid, hloaded⟩ := hall m hm
  obtain ⟨m', digest, hloaded', hdigest, hmatch⟩ := h.stored_of_mem hid
  have hverified : Verified env t project m.checkpointId m' digest := by
    rw [hloaded.checkpoint]
    exact ⟨hthere, hloaded', hdigest, hmatch.1, hmatch.2.1, hmatch.2.2⟩
  rcases hrun : runAlone Disk.exec w' (rollback env project m.checkpointId uuid) 0 t
    with ⟨e | result, after⟩
  · exact ((wp_during_error (wp_rollback (fun _ _ => trivial)) hrun).2 hquiet'.calm
      ⟨m', digest, hverified⟩ hfree).elim
  · exact ⟨result, after, rfl, (wp_during_ok (wp_rollback (fun _ _ => trivial)) hrun).2⟩

/-! ## Runs -/

/-- A call of the store. -/
inductive Method where
  /-- `LocalCheckpointStore::initialize`. -/
  | start
  | create (project : ProjectRef) (reason : CheckpointReason) (draw : Nat → BitVec 128)
      (clock : Option Nat)
  | remove (project : ProjectId) (id : CheckpointId)
  | rollback (project : ProjectRef) (id : CheckpointId) (uuid : BitVec 128)

/-- A request that changes nothing but what lies in a tree, and keeps its root. -/
def Op.within (root : Path) : Op → Bool
  | .createDir p name | .createFile p name _ | .writeAll p name _ => root.isPrefixOf (p ++ [name])
  | .rename p _ _ | .exchange p _ _ => root.isPrefixOf p
  | .removeFile p | .removeDirAll p => root.isPrefixOf p && p != root
  | _ => true

/-- What happens to the disk: a call, which dies after `k` requests if it has not ended before, or
    one request of somebody who edits a project. -/
inductive Event where
  | call (method : Method) (w : Nat → World) (k : Nat)
  | edit (project : ProjectId) (o : Op) (w : World)

/-- The disk after a call. -/
def Method.crash (env : Env) (w : Nat → World) (k : Nat) (d : Disk) : Method → Disk
  | .start => Checkpoint.crash w k initializeStore d
  | .create project reason draw clock =>
    Checkpoint.crash w k (createCheckpoint env project reason draw clock) d
  | .remove project id => Checkpoint.crash w k (removeCheckpoint project id) d
  | .rollback project id uuid => Checkpoint.crash w k (Checkpoint.rollback env project id uuid) d

def step (env : Env) (d : Disk) : Event → Disk
  | .call method w k => method.crash env w k d
  | .edit project o w =>
    if o.within (expectedProjectRoot project) then (Disk.exec w o d).2 else d

/-- A removal of a checkpoint deletes the whole of it, or is stopped before it deletes anything. -/
def Careful (_ : Disk) : Event → Prop
  | .call (.remove _ _) w _ => ∀ n kept, (w n).kept = some kept → ∀ q, kept q = true
  | _ => True

/-- The project directories are still there. -/
def RootsKept (d t : Disk) : Prop := ∀ project : ProjectId,
  d.node (expectedProjectRoot project) = some .dir →
    t.node (expectedProjectRoot project) = some .dir

theorem RootsKept.of_outside {p : Path} (h : Outside (checkpointsRoot ++ p) d t) :
    RootsKept d t := by
  intro project hdir
  have hpre : ¬ (checkpointsRoot ++ p) <+: projectsRoot ++ [ProjectId.dirName project] :=
    checkpoints_not_above
  rw [show t.node (expectedProjectRoot project) = d.node (expectedProjectRoot project) from
    h _ hpre, hdir]

/-- What a step keeps. -/
structure StepKeeps (env : Env) (d t : Disk) : Prop where
  inv : StoreInv env t
  roots : RootsKept d t

theorem StoreInv.self (h : StoreInv env d) : StepKeeps env d d := ⟨h, fun _ hdir => hdir⟩

/-! ### A start -/

theorem fixed_entry_not_leftover : ¬ Leftover (projectCheckpointDir project) := by
  rintro (⟨name, -, hpre⟩ | ⟨dir, name, -, hpre⟩)
  · exact not_prefix_checkpoints hpre
  · have hle := hpre.length_le
    change 4 ≤ 3 at hle
    omega

theorem Cleaned.entries (hclean : Cleaned d t) : SameEntries d t := by
  intro other name hname
  refine hclean.child (Bool.eq_false_iff.mpr (fun htemp => ?_))
  exact isPermanent_ne (startsWith_of_isTempName htemp) hname rfl

theorem StoreInv.cleaned (h : StoreInv env d) (hclean : Cleaned d t) : StepKeeps env d t := by
  have hdir : ∀ other : ProjectId, t.node (projectCheckpointDir other) =
      d.node (projectCheckpointDir other) :=
    fun other => hclean.other _ fixed_entry_not_leftover (not_fixed_of_length (Nat.le_refl 3))
  refine ⟨h.of_entries (fun other hthere => ?_) hclean.entries, fun other hroot => ?_⟩
  · rw [hdir other] at hthere ⊢
    exact h.dir other hthere
  · rw [← FileTree.sub_nil, hclean.liveTree, FileTree.sub_nil, hroot]

/-! ### A creation -/

theorem StoreInv.creating {project : ProjectRef} (h : StoreInv env d) (hcodec : ReadsBack env)
    (hstate : Creating env d project t) : StepKeeps env d t := by
  have hensured : ∀ {c : Disk}, Ensured d checkpointsRoot (ProjectId.dirName project.id) c →
      Outside (projectCheckpointDir project.id) d c := by
    intro c hc q hq
    refine hc.other ?_
    rintro rfl
    exact hq (List.prefix_refl _)
  cases hstate with
  | before => exact h.self
  | filling hc htemp hout =>
    refine ⟨(h.ensured hc).outside_temp htemp hout, .of_outside ((hensured hc).trans hout.widen)⟩
  | published hc htemp hroom hp =>
    refine ⟨(h.ensured hc).published hcodec htemp hroom hp, ?_⟩
    refine .of_outside ((hensured hc).trans (fun q hq => hp.other q ?_ ?_))
    · exact fun hpre => hq ((List.prefix_append _ _).trans hpre)
    · exact fun hpre => hq ((List.prefix_append _ _).trans hpre)

/-! ### A rollback -/

theorem RollbackSafe.entries {project : ProjectRef} {staging : String}
    (hsafe : RollbackSafe d project id staging t) : SameEntries d t := by
  intro other name _
  funext rel
  show t.node (checkpointsRoot ++ [_] ++ [_] ++ rel) = d.node (checkpointsRoot ++ [_] ++ [_] ++ rel)
  rw [List.append_assoc, List.append_assoc]
  exact hsafe.elsewhere.checkpoints _

theorem StoreInv.rolledBack {project : ProjectRef} {uuid : BitVec 128} (h : StoreInv env d)
    (hsafe : RollbackSafe d project id (stagingName uuid) t) : StepKeeps env d t := by
  refine ⟨h.of_entries (fun other hthere => ?_) hsafe.entries, ?_⟩
  · have hsame : t.node (projectCheckpointDir other) = d.node (projectCheckpointDir other) :=
      hsafe.elsewhere.checkpoints _
    rw [hsame] at hthere ⊢
    exact h.dir other hthere
  · intro other hdir
    by_cases hother : other = project.id
    · subst hother
      exact hsafe.root hdir
    · have hapart : ∀ {a b : String}, a ≠ b → ¬ (projectsRoot ++ [a]) <+: projectsRoot ++ [b] :=
        fun hne => (apart_siblings hne).1
      have hsame : t.node (expectedProjectRoot other) = d.node (expectedProjectRoot other) := by
        refine hsafe.elsewhere _ (hapart (fun heq => hother (dirName_injective heq).symm))
          (hapart ?_)
        exact stagingName_ne uuid other
      rw [hsame, hdir]

/-! ### A removal -/

/-- The tree at a path is gone, or nothing has changed. -/
def Gone (d : Disk) (p : Path) (t : Disk) : Prop :=
  t.node = d.node ∨ (Outside p d t ∧ t.node p = none)

/-- A removal does nothing but remove the directory, which may be cut short. -/
theorem wp_removeCheckpoint_of {R : Disk → Prop} (hsame : R d)
    (hremoved : ∀ w, A w → R (d.removed w (checkpointDir project id)).2) (hJ : ∀ u, R u → J u) :
    Wp (Watch A J) () (removeCheckpoint project id) (fun _ u => R u) (fun _ u => R u) d := by
  have hkept : ∀ {u : Disk} {P : Prop}, u = d ∧ P → R u := by
    rintro u P ⟨rfl, -⟩
    exact hsame
  refine wp_seq trivial (wp_symlinkMetadata (hJ d hsame)) ?_ (fun _ _ _ h => hkept h)
  rintro stat t - ⟨rfl, -⟩
  refine wp_refuse (fun _ => hsame) (fun _ => ?_)
  have hremove : Wp (Watch A J) ()
      (io (.removeDirAll (checkpointDir project id)) "checkpoint_remove_failed")
      (fun _ u => R u) (fun _ u => R u) t := by
    refine wp_ioAs (hJ t hsame) (fun w hw => ?_) (fun w _ _ _ => hsame)
    simp only [Disk.perform]
    split
    · have hgone := hremoved w hw
      revert hgone
      unfold Disk.removed
      cases w.kept with
      | none => exact fun h => h
      | some kept => exact fun h => h
    · exact hsame
  refine wp_seq trivial hremove ?_ (fun _ _ _ h => h)
  rintro _ u - hu
  refine Wp.mono trivial (wp_syncDir (hJ u hu)) ?_ ?_
  · rintro _ v - ⟨rfl, -⟩
    exact hu
  · rintro _ v - ⟨rfl, -⟩
    exact hu

theorem wp_removeCheckpoint (hA : ∀ w, A w → ∀ kept, w.kept = some kept → ∀ q, kept q = true)
    (hJ : ∀ u, Gone d (checkpointDir project id) u → J u) :
    Wp (Watch A J) () (removeCheckpoint project id)
      (fun _ u => Gone d (checkpointDir project id) u)
      (fun _ u => Gone d (checkpointDir project id) u) d := by
  refine wp_removeCheckpoint_of (.inl rfl) (fun w hw => ?_) hJ
  unfold Disk.removed
  rcases hkept : w.kept with _ | kept
  · exact .inr ⟨fun q hq => FileTree.remove_other hq, FileTree.remove_under (List.prefix_refl _)⟩
  · exact .inl (FileTree.prune_all (hA w hw kept hkept))

theorem StoreInv.removed (h : StoreInv env d) (hgone : Gone d (checkpointDir project id) t) :
    StepKeeps env d t := by
  rcases hgone with hsame | ⟨hout, hnone⟩
  · refine ⟨h.of_same (fun other hthere => ?_) (fun other name _ => .inr ?_), ?_⟩
    · rw [hsame] at hthere ⊢
      exact h.dir other hthere
    · funext rel
      exact congrFun hsame _
    · intro other hdir
      rw [hsame, hdir]
  · refine ⟨h.of_same (fun other hthere => ?_) (fun other name _ => ?_), .of_outside hout⟩
    · rw [hout _ entry_not_above] at hthere ⊢
      exact h.dir other hthere
    · by_cases hhere : other = project ∧ name = id.dirName
      · obtain ⟨rfl, rfl⟩ := hhere
        exact .inl hnone
      · refine .inr (funext fun rel => hout _ (fun hpre => ?_))
        obtain ⟨rfl, rfl⟩ := same_entry hpre
        exact hhere ⟨rfl, rfl⟩

/-! ### An edit -/

/-- The trees a request can change. -/
def Op.targets : Op → List Path
  | .createDir p name | .createFile p name _ | .writeAll p name _ => [p ++ [name]]
  | .rename p a b | .exchange p a b => [p ++ [a], p ++ [b]]
  | .removeFile p | .removeDirAll p => [p]
  | _ => []

theorem renamed_other {p q : Path} {a b : String} (ha : ¬ (p ++ [a]) <+: q)
    (hb : ¬ (p ++ [b]) <+: q) : (d.answer (d.renamed p a b)).2.node q = d.node q := by
  have hswap : ∀ t : Disk, d.renamed p a b = some t → t.node q = d.node q := by
    intro t ht
    unfold Disk.renamed at ht
    split at ht
    · cases ht
      exact FileTree.exchange_other ha hb
    · cases ht
      rw [FileTree.exchange_other ha hb, FileTree.remove_other hb]
    · split at ht
      · cases ht
        rw [FileTree.exchange_other ha hb, FileTree.remove_other hb]
      · cases ht
    · cases ht
  rcases hrenamed : d.renamed p a b with _ | t
  · rfl
  · exact hswap t hrenamed

theorem answer_append_other {p q : Path} {name : String} {bytes : List UInt8}
    (hq : ¬ (p ++ [name]) <+: q) : ((d.append p name bytes).getD d).node q = d.node q := by
  rcases happend : d.append p name bytes with _ | t
  · rfl
  · exact Disk.append_outside happend q hq

/-- **Frame.**  A request changes nothing outside its targets. -/
theorem exec_other {o : Op} {w : World} {q : Path} (h : ∀ p, p ∈ o.targets → ¬ p <+: q) :
    (Disk.exec w o d).2.node q = d.node q := by
  unfold Disk.exec
  split
  · cases o with
    | writeAll p name bytes => exact answer_append_other (h _ List.mem_cons_self)
    | _ => rfl
  · cases o with
    | createDir p name =>
      have hq := h _ List.mem_cons_self
      simp only [Disk.perform]
      split
      · rfl
      · rename_i hput
        exact Disk.put_outside hput q hq
      · rfl
    | createFile p name executable =>
      have hq := h _ List.mem_cons_self
      simp only [Disk.perform]
      split
      · rfl
      · rcases hput : d.put p name (.leaf (.file [] executable 1)) with _ | t
        · rfl
        · exact Disk.put_outside hput q hq
    | writeAll p name bytes =>
      have hq := h _ List.mem_cons_self
      rcases happend : d.append p name bytes with _ | t
      · simp only [Disk.perform, happend, Disk.answer]
      · simp only [Disk.perform, happend, Disk.answer]
        exact Disk.append_outside happend q hq
    | rename p a b =>
      exact renamed_other (h _ List.mem_cons_self) (h _ (List.mem_cons_of_mem _ List.mem_cons_self))
    | exchange p a b =>
      simp only [Disk.perform]
      split
      · exact FileTree.exchange_other (h _ List.mem_cons_self)
          (h _ (List.mem_cons_of_mem _ List.mem_cons_self))
      · rfl
    | removeFile p => exact perform_removeFile_outside w p q (h _ List.mem_cons_self)
    | removeDirAll p => exact perform_removeDirAll_outside w p q (h _ List.mem_cons_self)
    | _ => rfl

/-- A request at a directory itself makes or writes nothing there. -/
theorem exec_at_dir {p : Path} {name : String} {o : Op} {w : World}
    (ho : (∃ code, o = .createFile p name code) ∨ o = .createDir p name ∨
      ∃ bytes, o = .writeAll p name bytes)
    (hdir : d.node (p ++ [name]) = some .dir) : (Disk.exec w o d).2 = d := by
  have happend : ∀ bytes, d.append p name bytes = none := by
    intro bytes
    unfold Disk.append
    rw [hdir]
  unfold Disk.exec
  rcases ho with ⟨executable, rfl⟩ | rfl | ⟨bytes, rfl⟩
  · split
    · rfl
    · simp only [Disk.perform, hdir]
  · split
    · rfl
    · simp only [Disk.perform, hdir]
  · split
    · simp only [Disk.afterFailure, happend, Option.getD_none]
    · simp only [Disk.perform, happend, Disk.answer]

/-- The root of a tree that is edited stays. -/
theorem exec_root_stays {o : Op} {w : World} {root : Path} (hwithin : o.within root = true)
    (hdir : d.node root = some .dir) : (Disk.exec w o d).2.node root = some .dir := by
  have hsame : (∀ p, p ∈ o.targets → ¬ p <+: root) → (Disk.exec w o d).2.node root = some .dir :=
    fun h => (exec_other h).trans hdir
  -- what makes or writes an entry: that entry is the root, or lies below it
  have hmake : ∀ {p : Path} {name : String}, o.targets = [p ++ [name]] →
      root.isPrefixOf (p ++ [name]) = true →
      (d.node (p ++ [name]) = some .dir → (Disk.exec w o d).2 = d) →
      (Disk.exec w o d).2.node root = some .dir := by
    intro p name htargets hpre hstay
    rw [List.isPrefixOf_iff_prefix] at hpre
    by_cases hroot : root = p ++ [name]
    · rw [hstay (hroot ▸ hdir), hdir]
    · refine hsame (fun q hq hback => hroot ?_)
      rw [htargets, List.mem_singleton] at hq
      subst hq
      exact hpre.eq_of_length (Nat.le_antisymm hpre.length_le hback.length_le)
  have hbelow : ∀ {p : Path} {name : String}, root.isPrefixOf p = true →
      ¬ (p ++ [name]) <+: root := by
    intro p name hpre hback
    have hle := (List.isPrefixOf_iff_prefix.mp hpre).length_le
    have hle' := hback.length_le
    rw [List.length_append, List.length_singleton] at hle'
    omega
  have hremove : ∀ {p : Path}, (root.isPrefixOf p && p != root) = true → ¬ p <+: root := by
    intro p hpre hback
    rw [Bool.and_eq_true, bne_iff_ne, List.isPrefixOf_iff_prefix] at hpre
    exact hpre.2 (hback.eq_of_length (Nat.le_antisymm hback.length_le hpre.1.length_le))
  cases o with
  | createDir p name => exact hmake rfl hwithin (exec_at_dir (.inr (.inl rfl)))
  | createFile p name executable => exact hmake rfl hwithin (exec_at_dir (.inl ⟨_, rfl⟩))
  | writeAll p name bytes => exact hmake rfl hwithin (exec_at_dir (.inr (.inr ⟨_, rfl⟩)))
  | rename p a b =>
    refine hsame (fun q hq => ?_)
    rcases List.mem_cons.mp hq with rfl | hq
    · exact hbelow hwithin
    · rw [List.mem_singleton.mp hq]
      exact hbelow hwithin
  | exchange p a b =>
    refine hsame (fun q hq => ?_)
    rcases List.mem_cons.mp hq with rfl | hq
    · exact hbelow hwithin
    · rw [List.mem_singleton.mp hq]
      exact hbelow hwithin
  | removeFile p =>
    refine hsame (fun q hq => ?_)
    rw [List.mem_singleton.mp hq]
    exact hremove hwithin
  | removeDirAll p =>
    refine hsame (fun q hq => ?_)
    rw [List.mem_singleton.mp hq]
    exact hremove hwithin
  | _ => exact hsame (fun q hq => absurd hq List.not_mem_nil)

theorem Op.targets_within {o : Op} {root p : Path} (hwithin : o.within root = true)
    (hp : p ∈ o.targets) : root <+: p := by
  have hsingle : ∀ {q : Path}, root.isPrefixOf q = true → p ∈ [q] → root <+: p := by
    intro q hpre hmem
    rw [List.mem_singleton.mp hmem]
    exact List.isPrefixOf_iff_prefix.mp hpre
  have hpair : ∀ {q : Path} {a b : String}, root.isPrefixOf q = true →
      p ∈ [q ++ [a], q ++ [b]] → root <+: p := by
    intro q a b hpre hmem
    have hq := List.isPrefixOf_iff_prefix.mp hpre
    rcases List.mem_cons.mp hmem with rfl | hmem
    · exact hq.trans (List.prefix_append _ _)
    · rw [List.mem_singleton.mp hmem]
      exact hq.trans (List.prefix_append _ _)
  cases o with
  | createDir q name => exact hsingle hwithin hp
  | createFile q name executable => exact hsingle hwithin hp
  | writeAll q name bytes => exact hsingle hwithin hp
  | rename q a b => exact hpair hwithin hp
  | exchange q a b => exact hpair hwithin hp
  | removeFile q => exact hsingle (Bool.and_eq_true_iff.mp hwithin).1 hp
  | removeDirAll q => exact hsingle (Bool.and_eq_true_iff.mp hwithin).1 hp
  | _ => exact absurd hp List.not_mem_nil

/-- An edit changes nothing outside its project. -/
theorem exec_outside {o : Op} {w : World} (hwithin : o.within (expectedProjectRoot project) = true) :
    Outside (expectedProjectRoot project) d (Disk.exec w o d).2 :=
  fun _ hq => exec_other (fun _ hp hpre => hq ((Op.targets_within hwithin hp).trans hpre))

theorem exec_entries {o : Op} {w : World} (hwithin : o.within (expectedProjectRoot project) = true) :
    SameEntries d (Disk.exec w o d).2 := by
  intro other name _
  funext rel
  show (Disk.exec w o d).2.node (checkpointsRoot ++ [_] ++ [_] ++ rel) =
    d.node (checkpointsRoot ++ [_] ++ [_] ++ rel)
  rw [List.append_assoc, List.append_assoc]
  exact exec_outside hwithin _ not_prefix_checkpoints

/-- An edit of a project leaves the store alone. -/
theorem StoreInv.edited (h : StoreInv env d) {o : Op} {w : World}
    (hwithin : o.within (expectedProjectRoot project) = true) :
    StepKeeps env d (Disk.exec w o d).2 := by
  have hout := exec_outside (d := d) (w := w) hwithin
  refine ⟨h.of_entries (fun other hthere => ?_) (exec_entries hwithin), ?_⟩
  · rw [show (Disk.exec w o d).2.node (projectCheckpointDir other) = _ from
      hout _ not_prefix_checkpoints] at hthere ⊢
    exact h.dir other hthere
  · intro other hdir
    by_cases hother : other = project
    · subst hother
      exact exec_root_stays hwithin hdir
    · have hne : ProjectId.dirName project ≠ ProjectId.dirName other :=
        fun heq => hother (dirName_injective heq).symm
      rw [show (Disk.exec w o d).2.node (expectedProjectRoot other) = _ from
        hout _ (apart_siblings hne).1, hdir]

/-! ## The law -/

/-- A careful step keeps the store. -/
theorem step_keeps (hcodec : ReadsBack env) (h : StoreInv env d) {e : Event}
    (hcareful : Careful d e) : StepKeeps env d (step env d e) := by
  cases e with
  | edit project o w =>
    show StepKeeps env d
      (if o.within (expectedProjectRoot project) then (Disk.exec w o d).2 else d)
    by_cases hwithin : o.within (expectedProjectRoot project) = true
    · rw [if_pos hwithin]
      exact h.edited hwithin
    · rw [if_neg hwithin]
      exact h.self
  | call method w k =>
    cases method with
    | start =>
      refine h.cleaned (crash_of_wp (wp_initializeStore (fun _ ht => ht)))
    | create project reason draw clock =>
      refine h.creating hcodec (crash_of_wp (Wp.mono trivial
        (wp_createCheckpoint (fun _ ht => ht)) (fun _ _ _ ht => ht) (fun _ _ _ ht => ht.1)))
    | remove project id =>
      refine h.removed (crash_of_wp (wp_removeCheckpoint ?_ (fun _ ht => ht)))
      rintro v ⟨n, rfl⟩ kept hkept
      exact hcareful n kept hkept
    | rollback project id uuid =>
      refine h.rolledBack (crash_of_wp (Wp.mono trivial (wp_rollback (fun _ ht => ht))
        (fun _ _ _ ht => ht.1) (fun _ _ _ ht => ht.1)))

/-- No project has checkpoints yet. -/
def NoCheckpoints (d : Disk) : Prop := ∀ project, d.node (projectCheckpointDir project) = none

theorem NoCheckpoints.permanent (h : NoCheckpoints d) (project : ProjectId) :
    permanent d (projectCheckpointDir project) = [] := by
  refine permanent_eq_nil (fun name => d.none_below ?_ (List.cons_ne_nil _ _))
  rw [h project]
  exact (Option.some_ne_none _).symm

theorem NoCheckpoints.room (h : NoCheckpoints d) : HasRoom d := by
  intro project
  rw [h.permanent]
  exact Nat.zero_le _

theorem NoCheckpoints.inv (h : NoCheckpoints d) : StoreInv env d := by
  refine ⟨fun project hthere => absurd (h project) hthere, fun project name hmem => ?_, h.room⟩
  rw [h.permanent] at hmem
  exact absurd hmem List.not_mem_nil

/-- **Consistency.**  All along a run whose removals are careful, every project can be listed, every
    checkpoint it lists can be rolled back to, and no project is lost. -/
theorem store_consistent (hcodec : ReadsBack env) (hstart : NoCheckpoints d) {es : List Event}
    (hrun : Disciplined (step env) Careful d es) :
    Always (step env) (fun t => Consistent env t ∧ RootsKept d t) d es := by
  refine always_disciplined (step env) (I := fun t => StoreInv env t ∧ RootsKept d t) ?_ ?_
    ⟨hstart.inv, fun _ hdir => hdir⟩ hrun
  · rintro t e ⟨hinv, hroots⟩ hcareful
    have hstep := step_keeps hcodec hinv hcareful
    exact ⟨hstep.inv, fun project hdir => hstep.roots project (hroots project hdir)⟩
  · rintro t ⟨hinv, hroots⟩
    exact ⟨hinv.consistent, hroots⟩

/-! ### Two runs -/

/-- One project, and no checkpoints. -/
def startDisk : Disk :=
  afterAll (do
    initializeStore
    createDir projectsRoot (ProjectId.dirName sampleProject.id) "") freshDisk

/-- Two checkpoints of the project; the removal of the first happens in the given surroundings. -/
def sampleRun (w : Nat → World) : List Event :=
  [.call .start quiet 100,
    .call (.create sampleProject .manual (fun _ => 7) (some 1000)) quiet 1000,
    .call (.create sampleProject .beforeRollback (fun _ => 8) (some 2000)) quiet 1000,
    .call (.remove sampleProject.id ⟨7⟩) w 100]

theorem startDisk_noCheckpoints : NoCheckpoints startDisk := by
  have hall : startDisk.paths.all (fun p => p.length != 3 || p.dropLast != checkpointsRoot) = true := by
    decide
  intro project
  by_contra hthere
  have hpath := List.all_eq_true.mp hall _ (startDisk.covered _ hthere)
  have hlength : (projectCheckpointDir project).length = 3 := rfl
  have hparent : (projectCheckpointDir project).dropLast = checkpointsRoot := rfl
  rw [hlength, hparent] at hpath
  cases hpath

theorem sampleRun_careful (env : Env) : Disciplined (step env) Careful startDisk (sampleRun quiet) := by
  refine ⟨trivial, trivial, trivial, ?_, trivial⟩
  intro n kept hkept
  cases hkept

theorem sampleRun_consistent :
    Always (step sampleEnv) (fun t => Consistent sampleEnv t ∧ RootsKept startDisk t) startDisk
      (sampleRun quiet) :=
  store_consistent (readsBack_textEnv _) startDisk_noCheckpoints (sampleRun_careful sampleEnv)

/-- The recursive deletion stops after the metadata. -/
def cutShort (n : Nat) : World :=
  { quiet n with kept := some (fun q => q.getLast? != some metadataName) }

/-- What a listing then says. -/
theorem cut_removal_listing :
    (play (step sampleEnv) startDisk (sampleRun cutShort)).node
        (expectedProjectRoot sampleProject.id) = some .dir ∧
      (runAlone Disk.exec quiet (listCheckpoints sampleEnv sampleProject.id 64) 0
        (play (step sampleEnv) startDisk (sampleRun cutShort))).1 =
          .error (checkpointError "checkpoint_metadata_open_failed") := by
  set_option maxRecDepth 20000 in decide

theorem cut_removal_breaks_listing :
    ¬ Always (step sampleEnv) (fun t => Consistent sampleEnv t) startDisk (sampleRun cutShort) := by
  intro h
  obtain ⟨hdir, hlist⟩ := cut_removal_listing
  obtain ⟨all, n, hok, -⟩ := (h.last (step sampleEnv)) sampleProject ⟨rfl, hdir⟩ 64 (by decide)
    (by decide) quiet (fun _ => rfl)
  rw [hok] at hlist
  cases hlist

end VibeCoder.Checkpoint
