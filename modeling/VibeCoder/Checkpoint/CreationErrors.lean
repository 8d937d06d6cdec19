/-
  Creation of a checkpoint (`create_checkpoint_sync`), when one request fails.

  1. **`NothingLeft`** — the checkpoints of the project are as before, and so are the names of the
     staging directories: what an error must leave.

  2. **Three places** — an error leaves something behind when the request that fails makes the new
     staging directory private, writes the directory of the project through after the rename, or
     asks after an earlier error whether the staging directory is there (`LeavesBehind`).  With one
     failing request creation is all or nothing exactly in the other runs
     (`creation_all_or_nothing_iff`).

  3. **The bound** — no run of the store ever gives a project more than 64 checkpoints
     (`room_always`).
-/
import VibeCoder.Checkpoint.Consistency

namespace VibeCoder.Checkpoint

open Resume Files Runs

variable {A : World → Prop} {J : Disk → Prop} {c d t u : Disk} {env : Env}
variable {project : ProjectRef} {id : CheckpointId} {reason : CheckpointReason}
variable {draw : Nat → BitVec 128} {clock : Option Nat} {faults : Faults}

/-! ## What an error must leave -/

/-- The listed checkpoints are as before, and no staging directory is new. -/
structure NothingLeft (d : Disk) (project : ProjectId) (t : Disk) : Prop where
  listed : ∀ name, isPermanent name = true → t.sub (projectCheckpointDir project ++ [name]) =
    d.sub (projectCheckpointDir project ++ [name])
  staging : ∀ name, isPermanent name = false →
    d.node (projectCheckpointDir project ++ [name]) = none →
      t.node (projectCheckpointDir project ++ [name]) = none

/-- No checkpoint is new. -/
theorem NothingLeft.final {project : ProjectId} (h : NothingLeft d project t)
    (hfree : d.node (checkpointDir project id) = none) :
    t.node (checkpointDir project id) = none := by
  have hsame := congrFun (h.listed _ (isPermanent_dirName id)) []
  rw [FileTree.sub_nil, FileTree.sub_nil] at hsame
  exact hsame.trans hfree

/-- A listing shows the ids it showed before, and they load as before. -/
theorem NothingLeft.ids {project : ProjectId} (h : NothingLeft d project t) {w w' : Nat → World}
    {n n' : Nat} {ids ids' : List CheckpointId} {after after' : Nat × Disk}
    (hbefore : runAlone Disk.exec w (listCheckpointIds (projectCheckpointDir project)) n d =
      (.ok ids, after))
    (hnow : runAlone Disk.exec w' (listCheckpointIds (projectCheckpointDir project)) n' t =
      (.ok ids', after')) (id : CheckpointId) :
    (id ∈ ids' ↔ id ∈ ids) ∧ ∀ m, Loaded env t project id m ↔ Loaded env d project id m := by
  obtain ⟨-, -, hperm⟩ := wp_during_ok (wp_listCheckpointIds trivial) hbefore
  obtain ⟨-, -, hperm'⟩ := wp_during_ok (wp_listCheckpointIds trivial) hnow
  have hmem : ∀ {xs : List CheckpointId}, id.dirName ∈ xs.map CheckpointId.dirName ↔ id ∈ xs :=
    fun {xs} => List.mem_map_of_injective (fun _ _ => CheckpointId.dirName_injective)
  have hsame := h.listed id.dirName (isPermanent_dirName id)
  refine ⟨?_, fun m => ⟨fun hm => hm.congr hsame.symm, fun hm => hm.congr hsame⟩⟩
  rw [← hmem, ← hmem, hperm.mem_iff, hperm'.mem_iff, mem_permanent, mem_permanent,
    ← FileTree.sub_nil, hsame, FileTree.sub_nil]

/-- A creation that returns an error leaves nothing. -/
def CreatesOrNothing (env : Env) (project : ProjectRef) (reason : CheckpointReason)
    (draw : Nat → BitVec 128) (clock : Option Nat) (faults : Faults) (d : Disk) : Prop :=
  Post (fun (_ : CheckpointMetadata) _ => True) (fun _ t => NothingLeft d project.id t)
    (runAlone Disk.exec faults.world (createCheckpoint env project reason draw clock) 0 d).1
    (runAlone Disk.exec faults.world (createCheckpoint env project reason draw clock) 0 d).2.2

/-- An error with a new checkpoint breaks the promise. -/
theorem not_createsOrNothing {e : VibeCoderError}
    (hrun : (runAlone Disk.exec faults.world (createCheckpoint env project reason draw clock) 0 d).1 =
      .error e) (hfree : d.node (checkpointDir project.id id) = none)
    (hdir : (runAlone Disk.exec faults.world
      (createCheckpoint env project reason draw clock) 0 d).2.2.node (checkpointDir project.id id) =
        some .dir) :
    ¬ CreatesOrNothing env project reason draw clock faults d := by
  intro h
  unfold CreatesOrNothing at h
  rw [hrun] at h
  have hnone := NothingLeft.final h hfree
  rw [hdir] at hnone
  cases hnone

/-! ## The three places -/

/-- The staging directory of an id. -/
def stagingPath (project : ProjectRef) (id : CheckpointId) : Path :=
  projectCheckpointDir project.id ++ [tempName checkpointTempPrefix id.uuid]

/-- The beginning of a creation: the id, and the step number and the disk when its staging
    directory is there and when that is private. -/
structure BeginRun where
  id : CheckpointId
  created : Nat × Disk
  secured : Nat × Disk

/-- The beginning, when nothing fails. -/
structure Prepared (project : ProjectRef) (draw : Nat → BitVec 128) (faults : Faults) (d : Disk)
    (run : BeginRun) : Prop where
  create : runAlone Disk.exec faults.calm (beginCreation project draw) 0 d =
    (.ok (projectCheckpointDir project.id, run.id), run.created)
  secure : runAlone Disk.exec faults.calm (setPrivateDirMode (stagingPath project run.id))
    run.created.1 run.created.2 = (.ok (), run.secured)

/-- The rest up to the rename, when nothing fails. -/
def renameRun (env : Env) (project : ProjectRef) (reason : CheckpointReason) (clock : Option Nat)
    (faults : Faults) (run : BeginRun) : Result CheckpointMetadata × Nat × Disk :=
  runAlone Disk.exec faults.calm (fillAndRename env project reason run.id clock
    (projectCheckpointDir project.id) (tempName checkpointTempPrefix run.id.uuid))
    run.secured.1 run.secured.2

/-- The request that fails makes the staging directory private, or writes the directory of the
    project through after the rename, or asks for the staging directory after an error that no
    failing request has caused. -/
def LeavesBehind (env : Env) (project : ProjectRef) (reason : CheckpointReason)
    (draw : Nat → BitVec 128) (clock : Option Nat) (faults : Faults) (d : Disk) : Prop :=
  ∃ run k, Prepared project draw faults d run ∧ faults.fails k = true ∧
    (run.created.1 ≤ k ∧ k < run.secured.1 ∨
      (∃ m renamed synced, renameRun env project reason clock faults run = (.ok m, renamed) ∧
        runAlone Disk.exec faults.calm (syncDir (projectCheckpointDir project.id))
          renamed.1 renamed.2 = (.ok (), synced) ∧ renamed.1 ≤ k ∧ k < synced.1) ∨
      ∃ e after, renameRun env project reason clock faults run = (.error e, after) ∧ k = after.1)

/-! ## After an error -/

theorem nothingLeft_self {project : ProjectId} : NothingLeft d project d :=
  ⟨fun _ _ => rfl, fun _ _ h => h⟩

/-- Making the directory of the project leaves nothing. -/
theorem nothingLeft_ensured {project : ProjectId}
    (hc : Ensured d checkpointsRoot (ProjectId.dirName project) t) : NothingLeft d project t := by
  refine ⟨fun name _ => hc.entry project name, fun name _ hfree => ?_⟩
  rw [← FileTree.sub_nil, hc.entry project name, FileTree.sub_nil, hfree]

theorem isPermanent_temp : isPermanent (tempName checkpointTempPrefix id.uuid) = false := by
  unfold isPermanent
  rw [startsWith_staging]
  rfl

/-- Where a name is free in the project's directory, it was free before that was made. -/
theorem Begun.free_iff (h : Begun d project id c t) (name : String) :
    c.node (projectCheckpointDir project.id ++ [name]) =
      d.node (projectCheckpointDir project.id ++ [name]) := by
  rw [← FileTree.sub_nil, h.ensured.entry project.id name, FileTree.sub_nil]

/-- The staging directory was the only thing that is new. -/
theorem Begun.nothingLeft (h : Begun d project id c t)
    (hout : Outside (stagingPath project id) c u) (hgone : u.node (stagingPath project id) = none) :
    NothingLeft d project.id u := by
  refine ⟨fun name hname => ?_, fun name _ hfree => ?_⟩
  · have hne : tempName checkpointTempPrefix id.uuid ≠ name :=
      isPermanent_ne startsWith_staging hname
    rw [← h.ensured.entry project.id name]
    exact (apart_siblings hne.symm).sub_of_outside hout
  · by_cases hname : name = tempName checkpointTempPrefix id.uuid
    · rw [hname]
      exact hgone
    · rw [hout _ (apart_siblings (fun heq => hname heq.symm)).1, h.free_iff, hfree]

/-- The staging directory is still there. -/
theorem Begun.not_nothingLeft (h : Begun d project id c t)
    (hdir : u.node (stagingPath project id) = some .dir) : ¬ NothingLeft d project.id u := by
  intro hnothing
  have hgone := hnothing.staging _ isPermanent_temp ((h.free_iff _).symm.trans h.unused)
  have hthere : u.node (projectCheckpointDir project.id ++
      [tempName checkpointTempPrefix id.uuid]) = some .dir := hdir
  rw [hthere] at hgone
  cases hgone

/-- The checkpoint is there, and was not. -/
theorem Begun.not_nothingLeft_of_final (h : Begun d project id c t)
    (hfree : FreeId c (projectCheckpointDir project.id) id)
    (hdir : u.node (checkpointDir project.id id) = some .dir) :
    ¬ NothingLeft d project.id u := by
  intro hnothing
  have hnone := hnothing.final ((h.free_iff _).symm.trans hfree.final)
  rw [hdir] at hnone
  cases hnone

/-! ## The clean-up -/

theorem run_pathExists {p : Path} {n : Nat} : runAlone Disk.exec faults.world (pathExists p) n d =
    (.ok (!faults.fails n && (d.node p).isSome), n + 1, d) := by
  have hexec : Disk.exec (faults.world n) (.exists p) d =
      (if faults.fails n then .error ioError else .ok (d.node p).isSome, d) := by
    unfold Disk.exec
    cases hfails : faults.fails n with
    | true => simp [Faults.world, hfails, Op.removal, Disk.afterFailure]
    | false => simp [Faults.world, hfails, Disk.perform]
  unfold pathExists
  rw [runAlone_settle]
  have hrun : runAlone Disk.exec faults.world (attempt (Op.exists p)) n d =
      ((Disk.exec (faults.world n) (.exists p) d).1, n + 1,
        (Disk.exec (faults.world n) (.exists p) d).2) := rfl
  rw [hrun, hexec]
  cases faults.fails n with
  | true => rfl
  | false => rfl

/-- The clean-up that sees the staging directory removes it. -/
theorem run_endCreation_gone {p : Path} {e : VibeCoderError} {n : Nat}
    (hdir : d.node p = some .dir) (hfails : faults.fails n = false) :
    Post (fun _ _ => False) (fun _ t => Outside p d t ∧ t.node p = none)
      (runAlone Disk.exec faults.world (endCreation p (.error e)) n d).1
      (runAlone Disk.exec faults.world (endCreation p (.error e)) n d).2.2 := by
  unfold endCreation
  rw [runAlone_bind_ok _ _ _ run_pathExists, hfails, hdir, Bool.not_false, Bool.true_and,
    Option.isSome_some]
  refine wp_during (wp_seq (F := fun _ _ => False) trivial (wp_attemptRemove trivial hdir) ?_
    (fun _ _ _ h => h.elim)) _
  rintro _ t - ⟨hout, hgone⟩
  exact wp_throw ⟨hout, hgone Faults.whole _ (List.prefix_refl _)⟩

/-- The clean-up that does not see it changes nothing. -/
theorem run_endCreation_blind {p : Path} {e : VibeCoderError} {n : Nat}
    (hfails : faults.fails n = true) :
    runAlone Disk.exec faults.world (endCreation p (.error e)) n d = (.error e, n + 1, d) := by
  unfold endCreation
  rw [runAlone_bind_ok _ _ _ run_pathExists, hfails]
  rfl

/-! ## All or nothing -/

/-- What the beginning has found and made. -/
theorem Prepared.begun {run : BeginRun} (h : Prepared project draw faults d run) :
    ∃ c, Begun d project run.id c run.created.2 ∧
      FreeId c (projectCheckpointDir project.id) run.id ∧ run.secured.2 = run.created.2 := by
  obtain ⟨-, c, hbegun, hfree⟩ :=
    wp_during_ok (wp_beginCreation trivial (fun _ _ => trivial)) h.create
  have hsecured := wp_during_ok (Q := fun _ t => t = run.created.2)
    (wp_setPrivateDirMode trivial) h.secure
  exact ⟨c, hbegun, hfree Faults.calm_calm, hsecured⟩

/-- What the filling does after such a beginning. -/
theorem Begun.wp_rename (h : Begun d project id c t) :
    Wp (Watch A (fun _ => True)) () (fillAndRename env project reason id clock
        (projectCheckpointDir project.id) (tempName checkpointTempPrefix id.uuid))
      (Published env c (projectCheckpointDir project.id) project.id id
        (tempName checkpointTempPrefix id.uuid))
      (fun _ u => Below (stagingPath project id) t u) t :=
  Wp.mono trivial (wp_fillAndRename h.there.root staging_ne_dirName (fun _ _ => trivial) h.outside
    h.dir h.empty) (fun _ _ _ hok => hok) (fun _ _ _ herror => herror.1)

/-- A creation after its beginning. -/
theorem run_createCheckpoint (run : BeginRun)
    (hcreate : runAlone Disk.exec faults.world (beginCreation project draw) 0 d =
      (.ok (projectCheckpointDir project.id, run.id), run.created))
    (hsecure : runAlone Disk.exec faults.world (setPrivateDirMode (stagingPath project run.id))
      run.created.1 run.created.2 = (.ok (), run.secured)) {r : Result CheckpointMetadata}
    {filled : Nat × Disk} (hfill : runAlone Disk.exec faults.world (fillAndPublish env project reason
      run.id clock (projectCheckpointDir project.id) (tempName checkpointTempPrefix run.id.uuid))
      run.secured.1 run.secured.2 = (r, filled)) :
    runAlone Disk.exec faults.world (createCheckpoint env project reason draw clock) 0 d =
      runAlone Disk.exec faults.world (endCreation (stagingPath project run.id) r)
        filled.1 filled.2 := by
  rw [createCheckpoint_eq, runAlone_bind_ok _ _ _ hcreate]
  dsimp only
  rw [show projectCheckpointDir project.id ++ [tempName checkpointTempPrefix run.id.uuid] =
    stagingPath project run.id from rfl, runAlone_bind_ok _ _ _ hsecure, runAlone_settle, hfill]

/-- The filling ends where the rename does, if that fails. -/
theorem run_fill_error {p : Path} {temp : String} {w : Nat → World} {n : Nat} {e : VibeCoderError}
    {after : Nat × Disk} (h : runAlone Disk.exec w
      (fillAndRename env project reason id clock p temp) n d = (.error e, after)) :
    runAlone Disk.exec w (fillAndPublish env project reason id clock p temp) n d =
      (.error e, after) := by
  rw [fillAndPublish_eq]
  exact runAlone_bind_error _ _ _ h

/-- Otherwise it ends as the writing through does. -/
theorem run_fill_sync {p : Path} {temp : String} {w : Nat → World} {n : Nat}
    {m : CheckpointMetadata} {renamed after : Nat × Disk} {r : Result Unit}
    (h : runAlone Disk.exec w (fillAndRename env project reason id clock p temp) n d =
      (.ok m, renamed))
    (hsync : runAlone Disk.exec w (syncDir p) renamed.1 renamed.2 = (r, after)) :
    runAlone Disk.exec w (fillAndPublish env project reason id clock p temp) n d =
      (r.map (fun _ => m), after) := by
  rw [fillAndPublish_eq, runAlone_bind_ok _ _ _ h]
  cases r with
  | error e => exact runAlone_bind_error _ _ _ hsync
  | ok v =>
    rw [runAlone_bind_ok _ _ _ hsync]
    rfl

/-! ### Each of the three places leaves something -/

/-- An error with something left. -/
theorem not_createsOrNothing_of_left {e : VibeCoderError} {after : Nat × Disk}
    (hrun : runAlone Disk.exec faults.world (createCheckpoint env project reason draw clock) 0 d =
      (.error e, after)) (hleft : ¬ NothingLeft d project.id after.2) :
    ¬ CreatesOrNothing env project reason draw clock faults d := by
  intro hall
  unfold CreatesOrNothing at hall
  rw [hrun] at hall
  exact hleft hall

theorem mode_leaves {run : BeginRun} {k : Nat} (h : Prepared project draw faults d run)
    (hfirst : faults.First k) (hfrom : run.created.1 ≤ k) (hbelow : k < run.secured.1) :
    ¬ CreatesOrNothing env project reason draw clock faults d := by
  obtain ⟨c, hbegun, -, -⟩ := h.begun
  have hcreate := hfirst.same h.create hfrom
  obtain ⟨e, after, hmode, -⟩ := hfirst.fault quits_setPrivateDirMode h.secure hfrom hbelow
  have hafter : after.2 = run.created.2 := (wp_during_error (wp_setPrivateDirMode trivial) hmode).1
  have hrun : runAlone Disk.exec faults.world (createCheckpoint env project reason draw clock) 0 d =
      (.error e, after) := by
    rw [createCheckpoint_eq, runAlone_bind_ok _ _ _ hcreate]
    exact runAlone_bind_error _ _ _ hmode
  refine not_createsOrNothing_of_left hrun (hbegun.not_nothingLeft ?_)
  rw [hafter]
  exact hbegun.dir

theorem sync_leaves {run : BeginRun} {k : Nat} {m : CheckpointMetadata}
    {renamed synced : Nat × Disk} (h : Prepared project draw faults d run)
    (hfirst : faults.First k)
    (hrename : renameRun env project reason clock faults run = (.ok m, renamed))
    (hsync : runAlone Disk.exec faults.calm (syncDir (projectCheckpointDir project.id))
      renamed.1 renamed.2 = (.ok (), synced)) (hfrom : renamed.1 ≤ k) (hbelow : k < synced.1) :
    ¬ CreatesOrNothing env project reason draw clock faults d := by
  obtain ⟨c, hbegun, hfree, hsecured⟩ := h.begun
  have hle : run.created.1 ≤ run.secured.1 := le_runAlone _ _ h.secure
  have hle' : run.secured.1 ≤ renamed.1 := le_runAlone _ _ hrename
  have hcreate := hfirst.same h.create (by omega)
  have hsecure := hfirst.same h.secure (by omega)
  have hrenamed := hfirst.same hrename hfrom
  obtain ⟨e, after, hsyncing, -⟩ := hfirst.fault quits_syncDir hsync hfrom hbelow
  have hrun := run_createCheckpoint run hcreate hsecure (run_fill_sync hrenamed hsyncing)
  have hafter : after.2 = renamed.2 := (wp_during_error (wp_syncDir trivial) hsyncing).1
  rw [hsecured] at hrenamed
  have hpublished := wp_during_ok hbegun.wp_rename hrenamed
  rcases hend : runAlone Disk.exec faults.world (endCreation (stagingPath project run.id) (.error e))
    after.1 after.2 with ⟨e' | m', last⟩
  · have hout := wp_during_error (wp_endCreation trivial) hend
    refine not_createsOrNothing_of_left (hrun.trans hend)
      (hbegun.not_nothingLeft_of_final hfree ?_)
    refine (hout _ (apart_siblings staging_ne_dirName).1).trans ?_
    rw [hafter]
    exact hpublished.dir
  · exact (wp_during_ok (wp_endCreation trivial) hend).elim

theorem blind_leaves {run : BeginRun} {e : VibeCoderError} {after : Nat × Disk}
    (h : Prepared project draw faults d run) (hfirst : faults.First after.1)
    (hrename : renameRun env project reason clock faults run = (.error e, after)) :
    ¬ CreatesOrNothing env project reason draw clock faults d := by
  obtain ⟨c, hbegun, -, hsecured⟩ := h.begun
  have hle : run.created.1 ≤ run.secured.1 := le_runAlone _ _ h.secure
  have hle' : run.secured.1 ≤ after.1 := le_runAlone _ _ hrename
  have hcreate := hfirst.same h.create (Nat.le_trans hle hle')
  have hsecure := hfirst.same h.secure hle'
  have hrenamed := hfirst.same hrename (Nat.le_refl _)
  have hrun := run_createCheckpoint run hcreate hsecure (run_fill_error hrenamed)
  rw [hsecured] at hrenamed
  have hbelow := wp_during_error hbegun.wp_rename hrenamed
  refine not_createsOrNothing_of_left (hrun.trans (run_endCreation_blind hfirst.1))
    (hbegun.not_nothingLeft ?_)
  exact hbelow.self.trans hbegun.dir

theorem LeavesBehind.not_createsOrNothing (hsingle : faults.Single)
    (h : LeavesBehind env project reason draw clock faults d) :
    ¬ CreatesOrNothing env project reason draw clock faults d := by
  obtain ⟨run, k, hprepared, hfails, hplace⟩ := h
  have hfirst := hsingle.first hfails
  rcases hplace with ⟨hfrom, hbelow⟩ | ⟨m, renamed, synced, hrename, hsync, hfrom, hbelow⟩ |
    ⟨e, after, hrename, rfl⟩
  · exact mode_leaves hprepared hfirst hfrom hbelow
  · exact sync_leaves hprepared hfirst hrename hsync hfrom hbelow
  · exact blind_leaves hprepared hfirst hrename

/-! ### Nothing else does -/

/-- The mode of a staging directory that is there cannot be set: a fault in the first place. -/
theorem leavesBehind_of_mode {created after : Nat × Disk} {e : VibeCoderError}
    (hsingle : faults.Single)
    (hcreate : runAlone Disk.exec faults.world (beginCreation project draw) 0 d =
      (.ok (projectCheckpointDir project.id, id), created))
    (hdir : created.2.node (stagingPath project id) = some .dir)
    (hsecure : runAlone Disk.exec faults.world (setPrivateDirMode (stagingPath project id))
      created.1 created.2 = (.error e, after)) :
    LeavesBehind env project reason draw clock faults d := by
  obtain ⟨⟨⟩, ended, hmode, -⟩ := run_calm (n := created.1) (wp_setPrivateDirMode trivial)
    (fun _ _ h hcalm => h.2 hcalm hdir)
  obtain ⟨k, hfails, hfrom, hbelow⟩ := some_fault (congrArg Prod.fst hsecure) hmode
  exact ⟨⟨id, created, ended⟩, k, ⟨(hsingle.first hfails).calm hfrom hcreate, hmode⟩, hfails,
    .inl ⟨hfrom, hbelow⟩⟩

/-- A beginning that ends before the fault. -/
theorem prepared_of_run {run : BeginRun} {k : Nat} (hfirst : faults.First k)
    (hcreate : runAlone Disk.exec faults.world (beginCreation project draw) 0 d =
      (.ok (projectCheckpointDir project.id, run.id), run.created))
    (hsecure : runAlone Disk.exec faults.world (setPrivateDirMode (stagingPath project run.id))
      run.created.1 run.created.2 = (.ok (), run.secured)) (hk : run.secured.1 ≤ k) :
    Prepared project draw faults d run := by
  have hle : run.created.1 ≤ run.secured.1 := le_runAlone _ _ hsecure
  exact ⟨hfirst.calm (Nat.le_trans hle hk) hcreate, hfirst.calm hk hsecure⟩

/-- **All or nothing.**  With at most one failing request a creation that returns an error leaves
    the listed checkpoints as they were, and no staging directory, exactly when that request is in
    none of the three places. -/
theorem creation_all_or_nothing_iff (hsingle : faults.Single) :
    CreatesOrNothing env project reason draw clock faults d ↔
      ¬ LeavesBehind env project reason draw clock faults d := by
  refine ⟨fun h hleaves => hleaves.not_createsOrNothing hsingle h, fun hnot => ?_⟩
  unfold CreatesOrNothing
  rcases hcreate : runAlone Disk.exec faults.world (beginCreation project draw) 0 d with
    ⟨e | ⟨dir, id⟩, created⟩
  · rw [createCheckpoint_eq, runAlone_bind_error _ _ _ hcreate]
    rcases (wp_during_error (wp_beginCreation trivial (fun _ _ => trivial)) hcreate).1 with
      hsame | hensured
    · rw [hsame]
      exact nothingLeft_self
    · exact nothingLeft_ensured hensured
  obtain ⟨hdir, c, hbegun, -⟩ :=
    wp_during_ok (wp_beginCreation trivial (fun _ _ => trivial)) hcreate
  obtain rfl : dir = projectCheckpointDir project.id := hdir
  rcases hsecure : runAlone Disk.exec faults.world (setPrivateDirMode (stagingPath project id))
      created.1 created.2 with ⟨e | ⟨⟩, secured⟩
  · exact (hnot (leavesBehind_of_mode hsingle hcreate hbegun.dir hsecure)).elim
  have hsame : secured.2 = created.2 :=
    wp_during_ok (Q := fun _ t => t = created.2) (wp_setPrivateDirMode trivial) hsecure
  have hprepared : ∀ {k : Nat}, faults.fails k = true → secured.1 ≤ k →
      Prepared project draw faults d ⟨id, created, secured⟩ :=
    fun hfails hk => prepared_of_run (hsingle.first hfails) hcreate hsecure hk
  rcases hrename : runAlone Disk.exec faults.world (fillAndRename env project reason id clock
      (projectCheckpointDir project.id) (tempName checkpointTempPrefix id.uuid))
      secured.1 secured.2 with ⟨e | m, renamed⟩
  · have hlast : secured.1 ≤ renamed.1 := le_runAlone _ _ hrename
    rw [run_createCheckpoint ⟨id, created, secured⟩ hcreate hsecure
      (run_fill_error hrename)]
    -- an error before the rename: the clean-up is blind, or the staging directory goes
    by_cases hfails : faults.fails renamed.1 = true
    · have hcalm := (hsingle.first hfails).calm (Nat.le_refl _) hrename
      exact (hnot ⟨_, _, hprepared hfails hlast, hfails, .inr (.inr ⟨e, renamed, hcalm, rfl⟩)⟩).elim
    · rw [hsame] at hrename
      have hkept := wp_during_error hbegun.wp_rename hrename
      have hgone := run_endCreation_gone (e := e) (n := renamed.1)
        (hkept.self.trans hbegun.dir) (Bool.eq_false_iff.mpr hfails)
      rcases hend : runAlone Disk.exec faults.world (endCreation (stagingPath project id) (.error e))
          renamed.1 renamed.2 with ⟨e' | m, last⟩
      · rw [hend] at hgone
        exact hbegun.nothingLeft ((hbegun.outside.trans hkept.outside).trans hgone.1) hgone.2
      · exact trivial
  have hlast : secured.1 ≤ renamed.1 := le_runAlone _ _ hrename
  rcases hsync : runAlone Disk.exec faults.world (syncDir (projectCheckpointDir project.id))
      renamed.1 renamed.2 with ⟨e | ⟨⟩, synced⟩
  · have hpublishing := hrename
    rw [hsame] at hpublishing
    have hpublished := wp_during_ok hbegun.wp_rename hpublishing
    obtain ⟨⟨⟩, ended, hsynced, -⟩ := run_calm (n := renamed.1)
      (wp_syncDir trivial) (fun _ _ h hcalm => h.2 hcalm hpublished.parent)
    obtain ⟨k, hfails, hfrom, hbelow⟩ := some_fault (congrArg Prod.fst hsync) hsynced
    have hcalm := (hsingle.first hfails).calm hfrom hrename
    exact (hnot ⟨_, k, hprepared hfails (Nat.le_trans hlast hfrom), hfails,
      .inr (.inl ⟨m, renamed, ended, hcalm, hsynced, hfrom, hbelow⟩)⟩).elim
  · rw [run_createCheckpoint ⟨id, created, secured⟩ hcreate hsecure
      (run_fill_sync hrename hsync)]
    exact trivial

/-! ## The bound -/

/-- Nothing is new but that some nodes are gone. -/
def Thinned (d t : Disk) : Prop := ∀ q, t.node q = d.node q ∨ t.node q = none

theorem removed_thinned (w : World) (p : Path) : Thinned d (d.removed w p).2 := by
  intro q
  unfold Disk.removed
  cases w.kept with
  | none => exact FileTree.prune_node
  | some kept => exact FileTree.prune_node

theorem Thinned.room (hthin : Thinned d t) (h : HasRoom d) : HasRoom t := by
  refine h.of_kept (fun project name _ hthere => ?_)
  rw [← (hthin _).resolve_right hthere]
  exact hthere

theorem HasRoom.creating (h : HasRoom d) (hstate : Creating env d project t) : HasRoom t := by
  have hensured : ∀ {c : Disk}, Ensured d checkpointsRoot (ProjectId.dirName project.id) c →
      HasRoom c := fun hc => SameEntries.room (fun other name _ => hc.entry other name) h
  cases hstate with
  | before => exact h
  | filling hc htemp hout => exact (SameEntries.of_temp htemp hout).room (hensured hc)
  | published hc htemp hroom hp => exact (hensured hc).published htemp hroom hp

/-- A step of any kind, with any faults, adds no checkpoint to a project that has 64. -/
theorem step_room (env : Env) (h : HasRoom d) (e : Event) : HasRoom (step env d e) := by
  cases e with
  | edit project o w =>
    show HasRoom (if o.within (expectedProjectRoot project) then (Disk.exec w o d).2 else d)
    by_cases hwithin : o.within (expectedProjectRoot project) = true
    · rw [if_pos hwithin]
      exact (exec_entries hwithin).room h
    · rw [if_neg hwithin]
      exact h
  | call method w k =>
    cases method with
    | start => exact (crash_of_wp (wp_initializeStore (fun _ ht => ht))).entries.room h
    | create project reason draw clock =>
      exact h.creating (crash_of_wp (Wp.mono trivial
        (wp_createCheckpoint (fun _ ht => ht)) (fun _ _ _ ht => ht) (fun _ _ _ ht => ht.1)))
    | remove project id =>
      exact Thinned.room (crash_of_wp (wp_removeCheckpoint_of (fun _ => .inl rfl)
        (fun w _ => removed_thinned w _) (fun _ ht => ht))) h
    | rollback project id uuid =>
      exact (crash_of_wp (J := RollbackSafe d project id (stagingName uuid)) (Wp.mono trivial
        (wp_rollback (fun _ ht => ht)) (fun _ _ _ ht => ht.1)
        (fun _ _ _ ht => ht.1))).entries.room h

/-- **The bound.**  Whatever fails, is cut short or dies on the way, no project ever has more than
    64 checkpoints. -/
theorem room_always (env : Env) (hstart : NoCheckpoints d) (es : List Event) :
    Always (step env) HasRoom d es :=
  always_invariant (step env) (I := HasRoom) (fun _ e h => step_room env h e) (fun _ h => h)
    hstart.room es

/-- **Creation.**  With at most one failing request, all or nothing exactly outside the three
    places; and in every state of every run there are at most 64 checkpoints. -/
theorem creation_law (env : Env) (project : ProjectRef) (reason : CheckpointReason)
    (draw : Nat → BitVec 128) (clock : Option Nat) (d : Disk) (hsingle : faults.Single)
    {start : Disk} (hstart : NoCheckpoints start) (es : List Event) :
    (CreatesOrNothing env project reason draw clock faults d ↔
      ¬ LeavesBehind env project reason draw clock faults d) ∧
      Always (step env) HasRoom start es :=
  ⟨creation_all_or_nothing_iff hsingle, room_always env hstart es⟩

/-! ### A sync that fails -/

/-- The directory of the project is written through at the requests 41 and 42 of this creation;
    the second one fails. -/
def failedSync : Faults :=
  { fails := fun n => n == 42
    readLimit := fun _ => 65535
    written := fun _ => 0 }

theorem failedSync_single : failedSync.Single := by
  intro m n hm hn
  exact (eq_of_beq hm).trans (eq_of_beq hn).symm

/-- What the creation returns, and what it leaves. -/
theorem failed_sync_run :
    startDisk.node (checkpointDir sampleProject.id ⟨7⟩) = none ∧
      (runAlone Disk.exec failedSync.world
        (createCheckpoint sampleEnv sampleProject .manual (fun _ => 7) (some 1000)) 0 startDisk).1 =
          .error (checkpointError "checkpoint_directory_sync_failed") ∧
      (runAlone Disk.exec failedSync.world
        (createCheckpoint sampleEnv sampleProject .manual (fun _ => 7) (some 1000)) 0
          startDisk).2.2.node (checkpointDir sampleProject.id ⟨7⟩) = some .dir := by
  set_option maxRecDepth 20000 in decide

theorem failed_sync_lists_checkpoint :
    ¬ CreatesOrNothing sampleEnv sampleProject .manual (fun _ => 7) (some 1000) failedSync
      startDisk := by
  obtain ⟨hfree, hrun, hdir⟩ := failed_sync_run
  exact not_createsOrNothing hrun hfree hdir

theorem creation_law_failed_sync :
    (CreatesOrNothing sampleEnv sampleProject .manual (fun _ => 7) (some 1000) failedSync startDisk ↔
      ¬ LeavesBehind sampleEnv sampleProject .manual (fun _ => 7) (some 1000) failedSync startDisk) ∧
      Always (step sampleEnv) HasRoom startDisk (sampleRun cutShort) :=
  creation_law sampleEnv sampleProject .manual (fun _ => 7) (some 1000) startDisk failedSync_single
    startDisk_noCheckpoints (sampleRun cutShort)

end VibeCoder.Checkpoint
