/-
  Rollback of a project to a checkpoint (`rollback_sync`), when requests fail.

  1. **The live tree** — whatever fails, and wherever the process dies, the live tree is the old
     one or the snapshot, and nothing changes but it and the staging directory (`RollbackSafe`,
     `wp_rollback`).

  2. **The staging directory** — three exits return in the middle without removing it: the mode of
     the new directory, the digest of the staged copy, and the first exchange.  A rollback is all
     or nothing exactly when the first request that fails is not one of theirs
     (`rollback_all_or_nothing_iff`).
-/
import VibeCoder.Checkpoint.Faults
import VibeCoder.Checkpoint.MetadataText

namespace VibeCoder.Checkpoint

open Resume Files

variable {A : World → Prop} {J : Disk → Prop} {d : Disk} {env : Env} {project : ProjectRef}
variable {checkpoint : CheckpointId} {staging : String} {α β : Type}

/-! ## The two trees -/

/-- Nothing changed but the live tree and the staging directory. -/
def Elsewhere (d : Disk) (project : ProjectRef) (staging : String) (t : Disk) : Prop :=
  ∀ q, ¬ expectedProjectRoot project.id <+: q → ¬ stagingDir staging <+: q → t.node q = d.node q

theorem Elsewhere.refl : Elsewhere d project staging d := fun _ _ _ => rfl

theorem Elsewhere.of_outside {t u : Disk} (h : Elsewhere d project staging t)
    (hu : Outside (stagingDir staging) t u) : Elsewhere d project staging u :=
  fun q hlive hstaging => (hu q hstaging).trans (h q hlive hstaging)

/-- What is where, between the steps of a rollback. -/
structure Placed (d : Disk) (project : ProjectRef) (staging : String)
    (live staged : Path → Option (Node Leaf)) (t : Disk) : Prop where
  live : t.sub (expectedProjectRoot project.id) = live
  staged : t.sub (stagingDir staging) = staged
  elsewhere : Elsewhere d project staging t

/-- The live tree is the old one or the snapshot. -/
structure RollbackSafe (d : Disk) (project : ProjectRef) (checkpoint : CheckpointId)
    (staging : String) (t : Disk) : Prop where
  live : t.sub (expectedProjectRoot project.id) = d.sub (expectedProjectRoot project.id) ∨
    t.sub (expectedProjectRoot project.id) = d.sub (snapshotTree project.id checkpoint)
  root : d.node (expectedProjectRoot project.id) = some .dir →
    t.node (expectedProjectRoot project.id) = some .dir
  elsewhere : Elsewhere d project staging t

theorem RollbackSafe.old {t : Disk}
    (hlive : t.sub (expectedProjectRoot project.id) = d.sub (expectedProjectRoot project.id))
    (h : Elsewhere d project staging t) : RollbackSafe d project checkpoint staging t := by
  refine ⟨.inl hlive, fun hroot => ?_, h⟩
  rw [← FileTree.sub_nil, hlive, FileTree.sub_nil, hroot]

theorem RollbackSafe.new {t : Disk}
    (hlive : t.sub (expectedProjectRoot project.id) = d.sub (snapshotTree project.id checkpoint))
    (hdir : d.sub (snapshotTree project.id checkpoint) [] = some .dir)
    (h : Elsewhere d project staging t) : RollbackSafe d project checkpoint staging t := by
  refine ⟨.inr hlive, fun _ => ?_, h⟩
  rw [← FileTree.sub_nil, hlive, hdir]

/-- Two children of one directory. -/
theorem apart_siblings {p : Path} {a b : String} (h : a ≠ b) : Apart (p ++ [a]) (p ++ [b]) := by
  have hno : ∀ {a b : String}, a ≠ b → ¬ (p ++ [a]) <+: p ++ [b] := by
    intro a b hab hpre
    have hsib := not_prefix_sibling p [] hab.symm
    rw [List.append_nil] at hsib
    exact hsib hpre
  exact ⟨hno h, hno h.symm⟩

theorem apart_live (h : staging ≠ ProjectId.dirName project.id) :
    Apart (expectedProjectRoot project.id) (stagingDir staging) := apart_siblings h.symm

/-- The checkpoints lie in another directory than the projects. -/
theorem not_prefix_checkpoints {p rel : Path} : ¬ (projectsRoot ++ p) <+: checkpointsRoot ++ rel := by
  rintro ⟨rest, hrest⟩
  unfold projectsRoot checkpointsRoot at hrest
  rw [List.append_assoc, List.cons_append, List.cons_append, List.cons_append, List.cons_append,
    List.cons.injEq, List.cons.injEq] at hrest
  exact absurd hrest.2.1 (by decide)

theorem checkpoints_not_above {p rel : Path} : ¬ (checkpointsRoot ++ p) <+: projectsRoot ++ rel := by
  rintro ⟨rest, hrest⟩
  unfold projectsRoot checkpointsRoot at hrest
  rw [List.append_assoc, List.cons_append, List.cons_append, List.cons_append, List.cons_append,
    List.cons.injEq, List.cons.injEq] at hrest
  exact absurd hrest.2.1 (by decide)

theorem snapshotTree_eq (id : ProjectId) (checkpoint : CheckpointId) : snapshotTree id checkpoint =
    checkpointsRoot ++ [ProjectId.dirName id, checkpoint.dirName, snapshotTreeName] := rfl

theorem apart_snapshot : Apart (snapshotTree project.id checkpoint) (stagingDir staging) :=
  ⟨checkpoints_not_above, not_prefix_checkpoints⟩

/-- Everything under the checkpoints stays. -/
theorem Elsewhere.checkpoints {t : Disk} (h : Elsewhere d project staging t) (rel : Path) :
    t.node (checkpointsRoot ++ rel) = d.node (checkpointsRoot ++ rel) :=
  h _ not_prefix_checkpoints not_prefix_checkpoints

theorem Elsewhere.snapshot {t : Disk} (h : Elsewhere d project staging t) :
    t.sub (snapshotTree project.id checkpoint) = d.sub (snapshotTree project.id checkpoint) := by
  funext rel
  unfold FileTree.sub
  rw [snapshotTree_eq, List.append_assoc]
  exact h.checkpoints _

theorem Placed.exchange {l s : Path → Option (Node Leaf)} {t : Disk}
    (h : Placed d project staging l s t) : Placed d project staging s l
      (t.exchange projectsRoot (ProjectId.dirName project.id) staging) := by
  refine ⟨?_, ?_, fun q hlive hstaging => ?_⟩
  · rw [← h.staged]
    exact FileTree.exchange_left
  · rw [← h.live]
    exact FileTree.exchange_right
  · rw [FileTree.exchange_other hlive hstaging]
    exact h.elsewhere q hlive hstaging

/-- Changes in the staging directory leave the live tree alone. -/
theorem live_of_outside {t u : Disk} (hname : staging ≠ ProjectId.dirName project.id)
    (h : Outside (stagingDir staging) t u) :
    u.sub (expectedProjectRoot project.id) = t.sub (expectedProjectRoot project.id) :=
  (apart_live hname).sub_of_outside h

theorem dir_of_treeDigest {sha256 : List UInt8 → String} {p : Path} {digest : TreeDigest}
    (h : treeDigest sha256 d p = some digest) : d.node p = some .dir := by
  unfold treeDigest treeState at h
  by_contra hdir
  rw [if_neg (fun hboth => hdir hboth.1)] at h
  cases h

/-! ## The parts of a rollback -/

theorem wp_createDir_taken {p : Path} {name code : String} (hJ : J d)
    (htaken : d.node (p ++ [name]) ≠ none) :
    Wp (Watch A J) () (createDir p name code) (fun _ _ => False) (fun _ t => t = d) d := by
  obtain ⟨x, hx⟩ := Option.ne_none_iff_exists'.mp htaken
  have hperform : ∀ w, d.perform w (.createDir p name) = (.ok false, d) := by
    intro w
    simp only [Disk.perform, hx]
  refine wp_seq trivial (wp_mustRead hJ hperform (fun _ => rfl)) ?_ (fun _ _ _ h => h.1)
  rintro created t - ⟨rfl, rfl⟩
  exact wp_resume rfl

/-- The staging directory is new and empty. -/
structure Staged (d : Disk) (staging : String) (t : Disk) : Prop where
  free : d.node (stagingDir staging) = none
  outside : Outside (stagingDir staging) d t
  dir : t.node (stagingDir staging) = some .dir
  empty : ∀ rel, rel ≠ [] → t.node (stagingDir staging ++ rel) = none

theorem wp_beginStaging (hJ : J d) :
    Wp (Watch A J) () (beginStaging env project checkpoint staging)
      (fun x t => Verified env d project checkpoint x.1 x.2 ∧ Staged d staging t)
      (fun _ t => t = d ∧ (Calm A → (∃ m digest, Verified env d project checkpoint m digest) →
        d.node (stagingDir staging) ≠ none)) d := by
  refine wp_seq trivial (wp_verifySnapshot hJ) ?_ ?_
  swap
  · rintro e t - ⟨rfl, hno⟩
    exact ⟨rfl, fun hcalm hverified => (hno hcalm hverified).elim⟩
  rintro x t - ⟨rfl, hverified⟩
  have hprojects : t.node projectsRoot = some .dir := by
    refine t.rooted projectsRoot (ProjectId.dirName project.id) ?_
    have hdir : t.node (projectsRoot ++ [ProjectId.dirName project.id]) = some .dir :=
      hverified.there.dir
    rw [hdir]
    exact Option.some_ne_none _
  by_cases hfree : t.node (projectsRoot ++ [staging]) = none
  · refine wp_seq trivial (wp_createDir hJ hprojects hfree) ?_ ?_
    · rintro _ u - ⟨hout, hdir, hempty⟩
      exact wp_pure ⟨hverified, hfree, hout, hdir, hempty⟩
    · rintro e u - ⟨rfl, hfaulty⟩
      exact ⟨rfl, fun hcalm => (hfaulty hcalm).elim⟩
  · refine wp_seq trivial (wp_createDir_taken hJ hfree) ?_ ?_
    · exact fun _ _ _ h => h.elim
    · rintro e u - rfl
      exact ⟨rfl, fun _ _ => hfree⟩

theorem Staged.placed {t u : Disk} (hname : staging ≠ ProjectId.dirName project.id)
    (h : Staged d staging t) (hbelow : Below (stagingDir staging) t u)
    (hcopied : u.sub (stagingDir staging) = d.sub (snapshotTree project.id checkpoint)) :
    Placed d project staging (d.sub (expectedProjectRoot project.id))
      (d.sub (snapshotTree project.id checkpoint)) u :=
  ⟨live_of_outside hname (h.outside.trans hbelow.outside), hcopied,
    fun q _ hstaging => (h.outside.trans hbelow.outside) q hstaging⟩

/-- The copy, into the new directory. -/
theorem wp_stageCopy {t : Disk} {m : CheckpointMetadata} {digest : TreeDigest}
    (hverified : Verified env d project checkpoint m digest) (hstaged : Staged d staging t)
    (hJ : ∀ u, Below (stagingDir staging) t u → J u) :
    Wp (Watch A J) () (copyTreeAndDigest env.sha256 (snapshotTree project.id checkpoint)
        (stagingDir staging))
      (fun copied u => copied = digest ∧ Below (stagingDir staging) t u ∧
        u.sub (stagingDir staging) = d.sub (snapshotTree project.id checkpoint))
      (fun _ u => Below (stagingDir staging) t u ∧ ¬ Calm A) t := by
  have hsnapshot : t.sub (snapshotTree project.id checkpoint) =
      d.sub (snapshotTree project.id checkpoint) := apart_snapshot.sub_of_outside hstaged.outside
  have hdigest : treeDigest env.sha256 t (snapshotTree project.id checkpoint) = some digest := by
    rw [treeDigest_congr hsnapshot, hverified.snapshot]
  refine Wp.mono trivial (wp_copyTreeAndDigest hJ apart_snapshot hstaged.dir hstaged.empty) ?_ ?_
  · rintro copied u - ⟨⟨hbelow, hcopied⟩, hsame⟩
    rw [hdigest] at hsame
    refine ⟨(Option.some.inj hsame).symm, hbelow, ?_⟩
    rw [← hsnapshot]
    funext rel
    by_cases hrel : rel = []
    · rw [hrel, FileTree.sub_nil, FileTree.sub_nil, dir_of_treeDigest hdigest,
        hbelow.self, hstaged.dir]
    · exact hcopied rel hrel
  · rintro e u - ⟨hbelow, hno⟩
    refine ⟨hbelow, fun hcalm => ?_⟩
    rw [hno hcalm] at hdigest
    cases hdigest

/-- The staged copy is intact, so that it is exchanged. -/
theorem wp_exchangeStaged {t : Disk} {digest : TreeDigest} (hJ : J t)
    (hdigest : treeDigest env.sha256 t (stagingDir staging) = some digest)
    (hlive : t.node (expectedProjectRoot project.id) = some .dir) :
    Wp (Watch A J) () (exchangeStaged env project staging digest digest)
      (fun exchanged u => exchanged = true ∧
        u = t.exchange projectsRoot (ProjectId.dirName project.id) staging)
      (fun _ u => u = t ∧ ¬ Calm A) t := by
  have hintact : Wp (Watch A J) () (stagedIntact env staging digest digest)
      (fun intact u => u = t ∧ intact = true) (fun _ u => u = t ∧ ¬ Calm A) t := by
    unfold stagedIntact
    rw [bne_self_eq_false, if_neg (by decide)]
    refine wp_seq trivial (wp_digestTree hJ) ?_ ?_
    · rintro again u - ⟨rfl, hagain⟩
      have hsame : treeDigest env.sha256 u (stagingDir staging) = some again := hagain
      rw [hdigest] at hsame
      refine wp_pure ⟨rfl, ?_⟩
      rw [Option.some.inj hsame, beq_self_eq_true]
    · rintro e u - ⟨rfl, hno⟩
      refine ⟨rfl, fun hcalm => ?_⟩
      have hnone : treeDigest env.sha256 u (stagingDir staging) = none := hno hcalm
      rw [hdigest] at hnone
      cases hnone
  refine wp_seq trivial hintact ?_ (fun _ _ _ h => h)
  rintro intact u - ⟨rfl, rfl⟩
  have hleft : u.node (projectsRoot ++ [ProjectId.dirName project.id]) ≠ none := by
    have hdir : u.node (projectsRoot ++ [ProjectId.dirName project.id]) = some .dir := hlive
    rw [hdir]
    exact Option.some_ne_none _
  have hright : u.node (projectsRoot ++ [staging]) ≠ none := by
    have hdir : u.node (projectsRoot ++ [staging]) = some .dir := dir_of_treeDigest hdigest
    rw [hdir]
    exact Option.some_ne_none _
  refine wp_seq trivial (wp_exchangeChildren hJ hleft hright) ?_ (fun _ _ _ h => h)
  rintro _ v - rfl
  exact wp_pure ⟨rfl, rfl⟩

/-- How an undone rollback ends. -/
def Undone (A : World → Prop) (d : Disk) (project : ProjectRef) (staging : String)
    (live old : Path → Option (Node Leaf)) (e : VibeCoderError) (t : Disk) : Prop :=
  Elsewhere d project staging t ∧
    ((e = recoveryFailed ∧ (t.sub (expectedProjectRoot project.id) = live ∨
        t.sub (expectedProjectRoot project.id) = old)) ∨
      (t.sub (expectedProjectRoot project.id) = old ∧
        (Whole A → t.node (stagingDir staging) = none)))

/-- A recovery block: the old tree comes back, or the dedicated error. -/
theorem wp_recoverRollback {live old : Path → Option (Node Leaf)} {e : VibeCoderError} {t : Disk}
    (hname : staging ≠ ProjectId.dirName project.id)
    (hJ : ∀ u, (u.sub (expectedProjectRoot project.id) = live ∨
      u.sub (expectedProjectRoot project.id) = old) → Elsewhere d project staging u → J u)
    (h : Placed d project staging live old t) (hlive : live [] = some .dir)
    (hold : old [] = some .dir) :
    Wp (Watch A J) () (recoverRollback (ProjectId.dirName project.id) staging e)
      (fun _ _ => False) (Undone A d project staging live old) t := by
  have hleft : t.node (projectsRoot ++ [ProjectId.dirName project.id]) ≠ none := by
    have hdir : t.sub (expectedProjectRoot project.id) [] = some .dir := by rw [h.live, hlive]
    rw [FileTree.sub_nil] at hdir
    exact fun hnone => by cases hdir.symm.trans hnone
  have hright : t.node (projectsRoot ++ [staging]) ≠ none := by
    have hdir : t.sub (stagingDir staging) [] = some .dir := by rw [h.staged, hold]
    rw [FileTree.sub_nil] at hdir
    exact fun hnone => by cases hdir.symm.trans hnone
  have hJt : J t := hJ t (.inl h.live) h.elsewhere
  have hback := h.exchange
  have hJback := hJ _ (.inr hback.live) hback.elsewhere
  have hfailed : ∀ u, (u.sub (expectedProjectRoot project.id) = live ∨
      u.sub (expectedProjectRoot project.id) = old) → Elsewhere d project staging u →
      Wp (Watch A J) () (throw recoveryFailed : StoreM Unit) (fun _ _ => False)
        (Undone A d project staging live old) u :=
    fun u hu helse => wp_throw ⟨helse, .inl ⟨rfl, hu⟩⟩
  refine wp_bind (wp_settle ?_)
  refine wp_seq trivial (wp_exchangeChildren hJt hleft hright) ?_ ?_
  swap
  · rintro e' u - ⟨rfl, -⟩
    exact hfailed u (.inl h.live) h.elsewhere
  rintro _ u - rfl
  refine Wp.mono trivial (wp_syncDir hJback) ?_ ?_
  swap
  · rintro e' u - ⟨rfl, -⟩
    exact hfailed _ (.inr hback.live) hback.elsewhere
  rintro _ u - ⟨rfl, -⟩
  have hdir : (t.exchange projectsRoot (ProjectId.dirName project.id) staging).node
      (stagingDir staging) = some .dir := by
    rw [← FileTree.sub_nil, hback.staged, hlive]
  refine wp_seq trivial (wp_attemptRemove (E := fun _ _ => False) hJback hdir) ?_
    (fun _ _ _ h => h.elim)
  rintro _ u - ⟨hout, hgone⟩
  refine wp_throw ⟨hback.elsewhere.of_outside hout, .inr ⟨?_, fun hwhole => ?_⟩⟩
  · rw [live_of_outside hname hout, hback.live]
  · exact hgone hwhole _ (List.prefix_refl _)

/-- After the exchange the snapshot stays the live tree, or the rollback is undone. -/
theorem wp_settleExchange {t : Disk} {m : CheckpointMetadata} {digest : TreeDigest}
    (hname : staging ≠ ProjectId.dirName project.id)
    (hverified : Verified env d project checkpoint m digest)
    (hJ : ∀ u, RollbackSafe d project checkpoint staging u → J u)
    (h : Placed d project staging (d.sub (snapshotTree project.id checkpoint))
      (d.sub (expectedProjectRoot project.id)) t) :
    Wp (Watch A J) () (settleExchange env project staging digest)
      (fun _ u => u.sub (expectedProjectRoot project.id) =
        d.sub (snapshotTree project.id checkpoint) ∧ Elsewhere d project staging u)
      (fun e u => Undone A d project staging (d.sub (snapshotTree project.id checkpoint))
        (d.sub (expectedProjectRoot project.id)) e u ∧ ¬ Calm A) t := by
  have hlive : d.sub (snapshotTree project.id checkpoint) [] = some .dir := by
    rw [FileTree.sub_nil]
    exact dir_of_treeDigest hverified.snapshot
  have hJ' : ∀ u : Disk, (u.sub (expectedProjectRoot project.id) =
      d.sub (snapshotTree project.id checkpoint) ∨
      u.sub (expectedProjectRoot project.id) = d.sub (expectedProjectRoot project.id)) →
      Elsewhere d project staging u → J u := by
    rintro u (hsnapshot | hold) helse
    · exact hJ u (.new hsnapshot hlive helse)
    · exact hJ u (.old hold helse)
  have hold : d.sub (expectedProjectRoot project.id) [] = some .dir := by
    rw [FileTree.sub_nil]
    exact hverified.there.dir
  have hprojects : t.node projectsRoot = some .dir := by
    refine t.rooted projectsRoot (ProjectId.dirName project.id) ?_
    show t.node (expectedProjectRoot project.id) ≠ none
    rw [← FileTree.sub_nil, h.live, hlive]
    exact Option.some_ne_none _
  have hdigest : treeDigest env.sha256 t project.root = some digest := by
    rw [hverified.there.root, treeDigest_congr h.live, hverified.snapshot]
  have hJt : J t := hJ' t (.inl h.live) h.elsewhere
  -- both recovery blocks, reached in faulty surroundings only
  have hrecover : ∀ e, ¬ Calm A →
      Wp (Watch A J) () (recoverRollback (ProjectId.dirName project.id) staging e)
        (fun _ u => u.sub (expectedProjectRoot project.id) =
          d.sub (snapshotTree project.id checkpoint) ∧ Elsewhere d project staging u)
        (fun e u => Undone A d project staging (d.sub (snapshotTree project.id checkpoint))
          (d.sub (expectedProjectRoot project.id)) e u ∧ ¬ Calm A) t :=
    fun e hfaulty => Wp.mono trivial (wp_recoverRollback hname hJ' h hlive hold)
      (fun _ _ _ hno => hno.elim) (fun _ _ _ hundone => ⟨hundone, hfaulty⟩)
  refine wp_bind (wp_settle ?_)
  refine Wp.mono trivial (wp_syncDir hJt) ?_ ?_
  swap
  · rintro e u - ⟨rfl, hno⟩
    exact hrecover _ (fun hcalm => hno hcalm hprojects)
  rintro _ u - ⟨rfl, -⟩
  refine wp_bind (wp_settle ?_)
  refine Wp.mono trivial (wp_digestTree hJt) ?_ ?_
  swap
  · rintro e v - ⟨rfl, hno⟩
    refine hrecover _ (fun hcalm => ?_)
    rw [hno hcalm] at hdigest
    cases hdigest
  rintro restored v - ⟨rfl, hrestored⟩
  rw [hdigest] at hrestored
  cases hrestored
  show Wp (Watch A J) () (if (some digest != some digest) = true then _ else _) _ _ v
  rw [bne_self_eq_false, if_neg (by decide)]
  have hdir : v.node (stagingDir staging) = some .dir := by
    rw [← FileTree.sub_nil, h.staged, hold]
  have hkept : ∀ u : Disk, Outside (stagingDir staging) v u →
      u.sub (expectedProjectRoot project.id) = d.sub (snapshotTree project.id checkpoint) ∧
        Elsewhere d project staging u := by
    intro u hout
    exact ⟨(live_of_outside hname hout).trans h.live, h.elsewhere.of_outside hout⟩
  refine wp_bind (wp_settle ?_)
  refine Wp.mono trivial (wp_removeTree hJt hdir) ?_ ?_
  · rintro _ u - ⟨hout, -⟩
    obtain ⟨hulive, huelse⟩ := hkept u hout
    refine wp_bind (wp_settle ?_)
    refine Wp.mono trivial (wp_syncDir (hJ' u (.inl hulive) huelse)) ?_ ?_
    · rintro _ u - ⟨rfl, -⟩
      exact wp_pure ⟨hulive, huelse⟩
    · rintro _ u - ⟨rfl, -⟩
      exact wp_pure ⟨hulive, huelse⟩
  · rintro _ u - ⟨hout, -⟩
    exact wp_pure (hkept u hout)

/-! ## A whole rollback -/

theorem stagingName_ne (uuid : BitVec 128) (id : ProjectId) :
    stagingName uuid ≠ ProjectId.dirName id := by
  intro heq
  have hstarts : startsWith (stagingName uuid) rollbackTempPrefix = true := startsWith_tempName _ _
  rw [heq] at hstarts
  have hno : startsWith (ProjectId.dirName id) rollbackTempPrefix = false :=
    hyphenated_not_dot (by decide)
  rw [hno] at hstarts
  cases hstarts

/-- Nothing has changed but the staging directory. -/
theorem RollbackSafe.of_outside {t : Disk} (hname : staging ≠ ProjectId.dirName project.id)
    (h : Outside (stagingDir staging) d t) : RollbackSafe d project checkpoint staging t :=
  .old (live_of_outside hname h) (fun q _ hstaging => h q hstaging)

theorem Undone.safe {e : VibeCoderError} {t : Disk}
    (hdir : d.sub (snapshotTree project.id checkpoint) [] = some .dir)
    (h : Undone A d project staging (d.sub (snapshotTree project.id checkpoint))
      (d.sub (expectedProjectRoot project.id)) e t) :
    RollbackSafe d project checkpoint staging t := by
  obtain ⟨helse, ⟨-, hsnapshot | hold⟩ | ⟨hold, -⟩⟩ := h
  · exact .new hsnapshot hdir helse
  · exact .old hold helse
  · exact .old hold helse

/-- The intact copy changes places with the live tree. -/
theorem wp_exchangePlaced {t : Disk} {m : CheckpointMetadata} {digest : TreeDigest}
    (hverified : Verified env d project checkpoint m digest)
    (hJ : ∀ u, RollbackSafe d project checkpoint staging u → J u)
    (h : Placed d project staging (d.sub (expectedProjectRoot project.id))
      (d.sub (snapshotTree project.id checkpoint)) t) :
    Wp (Watch A J) () (exchangeStaged env project staging digest digest)
      (fun exchanged u => exchanged = true ∧ Placed d project staging
        (d.sub (snapshotTree project.id checkpoint)) (d.sub (expectedProjectRoot project.id)) u)
      (fun _ u => u = t ∧ ¬ Calm A) t := by
  have hdigest : treeDigest env.sha256 t (stagingDir staging) = some digest := by
    rw [treeDigest_congr h.staged, hverified.snapshot]
  have hlive : t.node (expectedProjectRoot project.id) = some .dir := by
    rw [← FileTree.sub_nil, h.live, FileTree.sub_nil]
    exact hverified.there.dir
  refine Wp.mono trivial (wp_exchangeStaged (hJ t (.old h.live h.elsewhere)) hdigest hlive) ?_
    (fun _ _ _ he => he)
  rintro exchanged u - ⟨hexchanged, rfl⟩
  exact ⟨hexchanged, h.exchange⟩

/-- **The live tree.**  Whatever fails, it is the old one or the snapshot, at every request and at
    the end. -/
theorem wp_rollback {uuid : BitVec 128}
    (hJ : ∀ u, RollbackSafe d project checkpoint (stagingName uuid) u → J u) :
    Wp (Watch A J) () (rollback env project checkpoint uuid)
      (fun _ u => RollbackSafe d project checkpoint (stagingName uuid) u ∧
        u.sub (expectedProjectRoot project.id) = d.sub (snapshotTree project.id checkpoint))
      (fun _ u => RollbackSafe d project checkpoint (stagingName uuid) u ∧
        (Calm A → (∃ m digest, Verified env d project checkpoint m digest) →
          d.node (stagingDir (stagingName uuid)) ≠ none)) d := by
  have hname : stagingName uuid ≠ ProjectId.dirName project.id := stagingName_ne uuid _
  have hsafe : ∀ {t : Disk}, Outside (stagingDir (stagingName uuid)) d t →
      RollbackSafe d project checkpoint (stagingName uuid) t := fun h => .of_outside hname h
  -- an error that needs a failed request
  have herror : ∀ u, RollbackSafe d project checkpoint (stagingName uuid) u → ¬ Calm A →
      RollbackSafe d project checkpoint (stagingName uuid) u ∧
        (Calm A → (∃ m digest, Verified env d project checkpoint m digest) →
          d.node (stagingDir (stagingName uuid)) ≠ none) :=
    fun _ hu hfaulty => ⟨hu, fun hcalm => (hfaulty hcalm).elim⟩
  refine wp_seq trivial (wp_beginStaging (hJ d (hsafe (.refl _ _)))) ?_ ?_
  swap
  · rintro e t - ⟨rfl, htaken⟩
    exact ⟨hsafe (.refl _ _), htaken⟩
  rintro ⟨m, digest⟩ t - ⟨hverified, hstaged⟩
  have hout := hstaged.outside
  refine wp_seq trivial (wp_setPrivateDirMode (hJ t (hsafe hout))) ?_ ?_
  swap
  · rintro e u - ⟨rfl, hno⟩
    exact herror u (hsafe hout) (fun hcalm => hno hcalm hstaged.dir)
  rintro _ t - rfl
  refine wp_bind (wp_settle ?_)
  refine Wp.mono trivial (wp_stageCopy hverified hstaged
    (fun u hbelow => hJ u (hsafe (hout.trans hbelow.outside)))) ?_ ?_
  swap
  · rintro e u - ⟨hbelow, hfaulty⟩
    have huout := hout.trans hbelow.outside
    have hdir : u.node (stagingDir (stagingName uuid)) = some .dir :=
      hbelow.self.trans hstaged.dir
    refine wp_seq trivial (wp_attemptRemove (E := fun _ _ => False) (hJ u (hsafe huout)) hdir) ?_
      (fun _ _ _ h => h.elim)
    rintro _ v - ⟨hv, -⟩
    exact wp_throw (herror v (hsafe (huout.trans hv)) hfaulty)
  rintro copied u - ⟨rfl, hbelow, hcopied⟩
  have huout := hout.trans hbelow.outside
  have hplaced := hstaged.placed hname hbelow hcopied
  refine wp_seq trivial (wp_exchangePlaced hverified hJ hplaced) ?_ ?_
  swap
  · rintro e v - ⟨rfl, hfaulty⟩
    exact herror v (hsafe huout) hfaulty
  rintro exchanged v - ⟨rfl, hexchanged⟩
  have hdir : d.sub (snapshotTree project.id checkpoint) [] = some .dir := by
    rw [FileTree.sub_nil]
    exact dir_of_treeDigest hverified.snapshot
  refine wp_seq trivial (wp_settleExchange hname hverified hJ hexchanged) ?_ ?_
  swap
  · rintro e x - ⟨hundone, hfaulty⟩
    exact herror x (hundone.safe hdir) hfaulty
  rintro _ x - ⟨hlive, helse⟩
  exact wp_pure ⟨.new hlive hdir helse, hlive⟩

/-! ## All or nothing -/

/-- The staging directory a failed rollback made is gone again, and the live tree is as before. -/
def Unchanged (d : Disk) (project : ProjectRef) (staging : String) (t : Disk) : Prop :=
  t.sub (expectedProjectRoot project.id) = d.sub (expectedProjectRoot project.id) ∧
    (d.node (stagingDir staging) = none → t.node (stagingDir staging) = none)

/-- A rollback restores the snapshot, or changes nothing, or says that it could not recover. -/
def AllOrNothing (env : Env) (project : ProjectRef) (checkpoint : CheckpointId)
    (uuid : BitVec 128) (faults : Faults) (d : Disk) : Prop :=
  Post
    (fun (_ : RollbackResult) t => t.sub (expectedProjectRoot project.id) =
      d.sub (snapshotTree project.id checkpoint))
    (fun e t => e ≠ recoveryFailed → Unchanged d project (stagingName uuid) t)
    (runAlone Disk.exec faults.world (rollback env project checkpoint uuid) 0 d).1
    (runAlone Disk.exec faults.world (rollback env project checkpoint uuid) 0 d).2.2

/-- The first half of a rollback: what it found, and the step number and the disk when the staging
    directory is there, when it is private, when the copy is there and when it is exchanged. -/
structure StageRun where
  verified : CheckpointMetadata × TreeDigest
  created : Nat × Disk
  secured : Nat × Disk
  staged : TreeDigest
  copied : Nat × Disk
  exchanged : Nat × Disk

/-- The first half, when nothing fails. -/
structure Undisturbed (env : Env) (project : ProjectRef) (checkpoint : CheckpointId)
    (staging : String) (faults : Faults) (d : Disk) (run : StageRun) : Prop where
  create : runAlone Disk.exec faults.calm (beginStaging env project checkpoint staging) 0 d =
    (.ok run.verified, run.created)
  secure : runAlone Disk.exec faults.calm (setPrivateDirMode (stagingDir staging))
    run.created.1 run.created.2 = (.ok (), run.secured)
  copy : runAlone Disk.exec faults.calm (copyTreeAndDigest env.sha256
    (snapshotTree project.id checkpoint) (stagingDir staging)) run.secured.1 run.secured.2 =
      (.ok run.staged, run.copied)
  exchange : runAlone Disk.exec faults.calm (exchangeStaged env project staging run.staged
    run.verified.2) run.copied.1 run.copied.2 = (.ok true, run.exchanged)

/-- The first request that fails gives the new directory its mode, or is one of the second digest
    of the copy and the exchange. -/
def LeavesStaging (env : Env) (project : ProjectRef) (checkpoint : CheckpointId)
    (uuid : BitVec 128) (faults : Faults) (d : Disk) : Prop :=
  ∃ run k, Undisturbed env project checkpoint (stagingName uuid) faults d run ∧ faults.First k ∧
    (run.created.1 ≤ k ∧ k < run.secured.1 ∨ run.copied.1 ≤ k ∧ k < run.exchanged.1)

/-- A part that only a fault can stop, when nothing fails. -/
theorem run_calm {p : StoreM α} {Q : α → Disk → Prop} {E : VibeCoderError → Disk → Prop} {n : Nat}
    {faults : Faults} (h : Wp (Watch (During faults.calm) (fun _ => True)) () p Q E d)
    (hE : ∀ e t, E e t → ¬ Calm (During faults.calm)) :
    ∃ a after, runAlone Disk.exec faults.calm p n d = (.ok a, after) ∧ Q a after.2 := by
  rcases hrun : runAlone Disk.exec faults.calm p n d with ⟨answer, after⟩
  cases answer with
  | error e => exact (hE e _ (wp_during_error h hrun) Faults.calm_calm).elim
  | ok a => exact ⟨a, after, rfl, wp_during_ok h hrun⟩

/-- What the first half found and made. -/
structure Half (env : Env) (d : Disk) (project : ProjectRef) (checkpoint : CheckpointId)
    (staging : String) (run : StageRun) : Prop where
  verified : Verified env d project checkpoint run.verified.1 run.verified.2
  created : Staged d staging run.created.2
  secured : run.secured.2 = run.created.2
  staged : run.staged = run.verified.2
  copied : Placed d project staging (d.sub (expectedProjectRoot project.id))
    (d.sub (snapshotTree project.id checkpoint)) run.copied.2

theorem Undisturbed.half {faults : Faults} {run : StageRun}
    (hname : staging ≠ ProjectId.dirName project.id)
    (h : Undisturbed env project checkpoint staging faults d run) :
    Half env d project checkpoint staging run := by
  obtain ⟨hverified, hstaged⟩ := wp_during_ok (wp_beginStaging trivial) h.create
  have hsecured : run.secured.2 = run.created.2 :=
    wp_during_ok (Q := fun _ t => t = run.created.2) (wp_setPrivateDirMode trivial) h.secure
  have hcopy := h.copy
  rw [hsecured] at hcopy
  obtain ⟨hsame, hbelow, hcopied⟩ :=
    wp_during_ok (wp_stageCopy hverified hstaged (fun _ _ => trivial)) hcopy
  exact ⟨hverified, hstaged, hsecured, hsame, hstaged.placed hname hbelow hcopied⟩

/-- Once the staging directory is there, nothing but a fault stops the first half. -/
theorem undisturbed_of_create {faults : Faults} {x : CheckpointMetadata × TreeDigest}
    {created : Nat × Disk} (hname : staging ≠ ProjectId.dirName project.id)
    (hcreate : runAlone Disk.exec faults.calm (beginStaging env project checkpoint staging) 0 d =
      (.ok x, created)) :
    ∃ run, Undisturbed env project checkpoint staging faults d run ∧ run.verified = x ∧
      run.created = created := by
  obtain ⟨hverified, hstaged⟩ := wp_during_ok (wp_beginStaging trivial) hcreate
  obtain ⟨⟨⟩, secured, hsecure, hsecured⟩ := run_calm (n := created.1)
    (wp_setPrivateDirMode trivial) (fun _ _ h hcalm => h.2 hcalm hstaged.dir)
  obtain ⟨staged, copied, hcopy, rfl, hbelow, hcopied⟩ := run_calm (n := secured.1)
    (wp_stageCopy hverified hstaged (fun _ _ => trivial)) (fun _ _ h => h.2)
  obtain ⟨exchanged, after, hexchange, rfl, -⟩ := run_calm (n := copied.1)
    (wp_exchangePlaced hverified (fun _ _ => trivial) (hstaged.placed hname hbelow hcopied))
    (fun _ _ h => h.2)
  rw [← hsecured] at hcopy
  exact ⟨⟨x, created, secured, x.2, copied, after⟩, ⟨hcreate, hsecure, hcopy, hexchange⟩, rfl, rfl⟩

/-- An error in the middle, with the staging directory there, breaks the promise. -/
theorem not_allOrNothing {uuid : BitVec 128} {faults : Faults} {e : VibeCoderError}
    (hrun : (runAlone Disk.exec faults.world (rollback env project checkpoint uuid) 0 d).1 =
      .error e) (he : e ≠ recoveryFailed)
    (hfree : d.node (stagingDir (stagingName uuid)) = none)
    (hdir : (runAlone Disk.exec faults.world (rollback env project checkpoint uuid) 0 d).2.2.node
      (stagingDir (stagingName uuid)) = some .dir) :
    ¬ AllOrNothing env project checkpoint uuid faults d := by
  intro h
  unfold AllOrNothing at h
  rw [hrun] at h
  have hgone := (h he).2 hfree
  rw [hdir] at hgone
  cases hgone

theorem LeavesStaging.not_allOrNothing {uuid : BitVec 128} {faults : Faults}
    (h : LeavesStaging env project checkpoint uuid faults d) :
    ¬ AllOrNothing env project checkpoint uuid faults d := by
  obtain ⟨run, k, hrun, hfirst, hrange⟩ := h
  have hhalf := hrun.half (stagingName_ne uuid _)
  have hsecured : run.created.1 ≤ run.secured.1 := le_runAlone _ _ hrun.secure
  have hcopied : run.secured.1 ≤ run.copied.1 := le_runAlone _ _ hrun.copy
  have hcreate := hfirst.same hrun.create (by omega)
  rcases hrange with ⟨hle, hlt⟩ | ⟨hle, hlt⟩
  · obtain ⟨e, u, hmode, he⟩ := hfirst.fault quits_setPrivateDirMode hrun.secure hle hlt
    have hu : u.2 = run.created.2 := (wp_during_error (wp_setPrivateDirMode trivial) hmode).1
    have hrollback : runAlone Disk.exec faults.world (rollback env project checkpoint uuid) 0 d =
        (.error e, u) := by
      unfold rollback
      rw [runAlone_bind_ok _ _ _ hcreate]
      exact runAlone_bind_error _ _ _ hmode
    refine VibeCoder.Checkpoint.not_allOrNothing (by rw [hrollback]) he hhalf.created.free ?_
    rw [hrollback, hu, hhalf.created.dir]
  · have hsecure := hfirst.same hrun.secure (by omega)
    have hcopy := hfirst.same hrun.copy hle
    have hexchange := hrun.exchange
    rw [hhalf.staged] at hexchange
    obtain ⟨e, u, hexchanged, he⟩ := hfirst.fault quits_exchangeStaged hexchange hle hlt
    have hu : u.2 = run.copied.2 := (wp_during_error
      (wp_exchangePlaced hhalf.verified (fun _ _ => trivial) hhalf.copied) hexchanged).1
    have hdir : run.copied.2.node (stagingDir (stagingName uuid)) = some .dir := by
      rw [← FileTree.sub_nil, hhalf.copied.staged, FileTree.sub_nil]
      exact dir_of_treeDigest hhalf.verified.snapshot
    have hrollback : runAlone Disk.exec faults.world (rollback env project checkpoint uuid) 0 d =
        (.error e, u) := by
      unfold rollback
      rw [runAlone_bind_ok _ _ _ hcreate]
      dsimp only
      rw [runAlone_bind_ok _ _ _ hsecure, runAlone_settle, hcopy, hhalf.staged]
      exact runAlone_bind_error _ _ _ hexchanged
    refine VibeCoder.Checkpoint.not_allOrNothing (by rw [hrollback]) he hhalf.created.free ?_
    rw [hrollback, hu, hdir]

/-- **All or nothing**, exactly when the first failing request is not followed by a plain `?` with
    the staging directory there. -/
theorem rollback_all_or_nothing_iff (env : Env) (project : ProjectRef)
    (checkpoint : CheckpointId) (uuid : BitVec 128) (faults : Faults) (d : Disk) :
    AllOrNothing env project checkpoint uuid faults d ↔
      ¬ LeavesStaging env project checkpoint uuid faults d := by
  have hname : stagingName uuid ≠ ProjectId.dirName project.id := stagingName_ne uuid _
  refine ⟨fun h hleaves => hleaves.not_allOrNothing h, fun hnot => ?_⟩
  unfold AllOrNothing rollback
  rcases hcreate : runAlone Disk.exec faults.world
      (beginStaging env project checkpoint (stagingName uuid)) 0 d with ⟨e | x, created⟩
  · obtain ⟨hsame, -⟩ := wp_during_error (wp_beginStaging trivial) hcreate
    rw [runAlone_bind_error _ _ _ hcreate]
    intro _
    rw [hsame]
    exact ⟨rfl, id⟩
  obtain ⟨hcalm, hbefore⟩ := quits_ok quits_beginStaging hcreate
  obtain ⟨run, hrun, rfl, rfl⟩ := undisturbed_of_create hname hcalm
  have hhalf := hrun.half hname
  have hdir : run.created.2.node (stagingDir (stagingName uuid)) = some .dir := hhalf.created.dir
  rw [runAlone_bind_ok _ _ _ hcreate]
  dsimp only
  rcases hsecure : runAlone Disk.exec faults.world
      (setPrivateDirMode (stagingDir (stagingName uuid))) run.created.1 run.created.2
    with ⟨e | ⟨⟩, secured⟩
  · obtain ⟨k, hfirst, hle, hlt⟩ := met_fault (by rw [hsecure]) hrun.secure
      (fun j hj => hbefore j (Nat.zero_le j) hj)
    exact (hnot ⟨run, k, hrun, hfirst, .inl ⟨hle, hlt⟩⟩).elim
  obtain ⟨hcalm, hbefore₁⟩ := quits_ok quits_setPrivateDirMode hsecure
  obtain rfl : secured = run.secured := congrArg Prod.snd (hcalm.symm.trans hrun.secure)
  rw [runAlone_bind_ok _ _ _ hsecure, runAlone_settle]
  rcases hcopy : runAlone Disk.exec faults.world (copyTreeAndDigest env.sha256
      (snapshotTree project.id checkpoint) (stagingDir (stagingName uuid)))
      run.secured.1 run.secured.2 with ⟨e | staged, copied⟩
  · have hstage := hcopy
    rw [hhalf.secured] at hstage
    obtain ⟨hbelow, -⟩ := wp_during_error
      (wp_stageCopy hhalf.verified hhalf.created (fun _ _ => trivial)) hstage
    have hout := hhalf.created.outside.trans hbelow.outside
    refine wp_during (wp_seq (F := fun _ _ => False) trivial
      (wp_attemptRemove trivial (hbelow.self.trans hdir)) ?_ (fun _ _ _ h => h.elim)) _
    rintro _ u - ⟨hu, hgone⟩
    refine wp_throw (fun _ => ⟨live_of_outside hname (hout.trans hu), fun _ => ?_⟩)
    exact hgone Faults.whole _ (List.prefix_refl _)
  obtain ⟨hcalm, hbefore₂⟩ := quits_ok quits_copyTreeAndDigest hcopy
  have hsame := hcalm.symm.trans hrun.copy
  obtain rfl : copied = run.copied := congrArg Prod.snd hsame
  obtain rfl : staged = run.verified.2 := by
    rw [← hhalf.staged]
    exact Except.ok.inj (congrArg Prod.fst hsame)
  dsimp only
  have hbefore : ∀ j, j < run.copied.1 → faults.fails j = false := by
    intro j hj
    by_cases h₀ : j < run.created.1
    · exact hbefore j (Nat.zero_le j) h₀
    · by_cases h₁ : j < run.secured.1
      · exact hbefore₁ j (by omega) h₁
      · exact hbefore₂ j (by omega) hj
  have hplaced := hhalf.copied
  rcases hexchange : runAlone Disk.exec faults.world (exchangeStaged env project (stagingName uuid)
      run.verified.2 run.verified.2) run.copied.1 run.copied.2 with ⟨e | exchanged, after⟩
  · have hcalm := hrun.exchange
    rw [hhalf.staged] at hcalm
    obtain ⟨k, hfirst, hle, hlt⟩ := met_fault (by rw [hexchange]) hcalm hbefore
    exact (hnot ⟨run, k, hrun, hfirst, .inr ⟨hle, hlt⟩⟩).elim
  obtain ⟨rfl, hswapped⟩ := wp_during_ok
    (wp_exchangePlaced hhalf.verified (fun _ _ => trivial) hplaced) hexchange
  rw [runAlone_bind_ok _ _ _ hexchange]
  refine wp_during (wp_seq trivial
    (wp_settleExchange hname hhalf.verified (fun _ _ => trivial) hswapped) ?_ ?_) _
  · rintro _ u - ⟨hlive, -⟩
    exact wp_pure hlive
  · rintro e u - ⟨⟨-, ⟨rfl, -⟩ | ⟨hlive, hgone⟩⟩, -⟩ hne
    · exact absurd rfl hne
    · exact ⟨hlive, fun _ => hgone Faults.whole⟩

/-! ## A store with one checkpoint -/

/-- The application-private directory of a new installation. -/
def freshDisk : Disk where
  node := fun p => if p = [] then some .dir else none
  paths := [[]]
  covered := by
    intro p hp
    by_contra hne
    rw [if_neg (fun hnil => hne (List.mem_singleton.mpr hnil))] at hp
    exact hp rfl
  rooted := by
    intro p n hp
    rw [if_neg (List.append_ne_nil_of_right_ne_nil p (List.cons_ne_nil n []))] at hp
    exact absurd rfl hp

/-- Surroundings in which every request of a run succeeds. -/
def quiet (_ : Nat) : World :=
  { fails := false
    readLimit := 65535
    written := 0
    kept := none }

/-- The disk after a method ran alone. -/
def afterAll {α : Type} (p : StoreM α) (d : Disk) : Disk := (runAlone Disk.exec quiet p 0 d).2.2

def emptyTreeSha256 : String := "e3b0c44298fc1c149afbf4c8996fb92427ae41e4649b934ca495991b7852b855"

/-- The other packages; SHA-256 on the values that occur here. -/
def sampleEnv : Env := textEnv (fun bytes => if bytes = [] then emptyTreeSha256 else "")

def sampleProject : ProjectRef := ⟨⟨1⟩, expectedProjectRoot ⟨1⟩⟩

/-- One empty project, with one checkpoint. -/
def sampleDisk : Disk :=
  afterAll (do
    initializeStore
    createDir projectsRoot (ProjectId.dirName sampleProject.id) ""
    let _ ← createCheckpoint sampleEnv sampleProject .manual (fun _ => 7) (some 1000)) freshDisk

/-- The exchange is the 24th request of a rollback there; nothing else fails. -/
def failedExchange : Faults :=
  { fails := fun n => n == 23
    readLimit := fun _ => 65535
    written := fun _ => 0 }

/-- What the rollback returns, and what it leaves. -/
theorem failed_exchange_run :
    sampleDisk.node (stagingDir (stagingName 9)) = none ∧
      (runAlone Disk.exec failedExchange.world (rollback sampleEnv sampleProject ⟨7⟩ 9) 0
        sampleDisk).1 = .error (checkpointError "checkpoint_atomic_exchange_failed") ∧
      (runAlone Disk.exec failedExchange.world (rollback sampleEnv sampleProject ⟨7⟩ 9) 0
        sampleDisk).2.2.node (stagingDir (stagingName 9)) = some .dir := by
  set_option maxRecDepth 20000 in decide

theorem failed_exchange_leaves_staging :
    ¬ AllOrNothing sampleEnv sampleProject ⟨7⟩ 9 failedExchange sampleDisk := by
  obtain ⟨hfree, hrun, hdir⟩ := failed_exchange_run
  exact not_allOrNothing hrun (by decide) hfree hdir

end VibeCoder.Checkpoint
