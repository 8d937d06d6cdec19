/-
  A process that dies during a rollback, and the starts after it.

  1. **The start-up clean-up** — it makes the fixed directories and removes staging directories,
     and touches nothing else (`Cleaned`, `wp_initializeStore`).

  2. **Crashes** — `crash w k p` is the disk when the process dies after `k` requests of `p`,
     `restarts` that after any number of starts, each of which may die too.

  3. **The law** — after a crash in a rollback and any starts, the live tree is the old one or the
     snapshot, and the checkpoint is there and can be rolled back to (`rollback_crash_safe`).
-/
import VibeCoder.Checkpoint.Rollback

namespace VibeCoder.Checkpoint

open Resume Files

variable {A : World → Prop} {J I : Disk → Prop} {d t u : Disk} {env : Env}
variable {project : ProjectRef} {checkpoint : CheckpointId}

/-! ## What the start-up clean-up touches -/

/-- The fixed directories. -/
def Fixed (q : Path) : Prop := q = [productRootName] ∨ q = projectsRoot ∨ q = checkpointsRoot

/-- What lies in a staging directory. -/
def Leftover (q : Path) : Prop :=
  (∃ name, isTempName rollbackTempPrefix name = true ∧ (projectsRoot ++ [name]) <+: q) ∨
    ∃ dir name, isTempName checkpointTempPrefix name = true ∧
      (checkpointsRoot ++ [dir] ++ [name]) <+: q

/-- The clean-up has done some of its work. -/
structure Cleaned (d t : Disk) : Prop where
  other : ∀ q, ¬ Leftover q → ¬ Fixed q → t.node q = d.node q
  fixed : ∀ q, Fixed q → d.node q ≠ none → t.node q = d.node q

theorem Cleaned.refl : Cleaned d d := ⟨fun _ _ _ => rfl, fun _ _ _ => rfl⟩

theorem Cleaned.trans (h : Cleaned d t) (h' : Cleaned t u) : Cleaned d u := by
  refine ⟨fun q hq hfixed => ?_, fun q hfixed hq => ?_⟩
  · rw [h'.other q hq hfixed, h.other q hq hfixed]
  · have hsame := h.fixed q hfixed hq
    rw [h'.fixed q hfixed (by rw [hsame]; exact hq), hsame]

theorem Fixed.length_le {q : Path} (h : Fixed q) : q.length ≤ 2 := by
  rcases h with rfl | rfl | rfl
  · decide
  · decide
  · decide

/-- Removing in a staging directory is cleaning up. -/
theorem Cleaned.of_outside {p : Path} (hlong : 2 < p.length)
    (hp : ∀ q, p <+: q → Leftover q) (h : Outside p d t) : Cleaned d t := by
  refine ⟨fun q hq _ => h q (fun hpre => hq (hp q hpre)), fun q hq _ => h q (fun hpre => ?_)⟩
  have hle := hpre.length_le
  have hfixed := hq.length_le
  omega

theorem cleaned_staging {name : String} (hname : isTempName rollbackTempPrefix name = true)
    (h : Outside (projectsRoot ++ [name]) d t) : Cleaned d t :=
  .of_outside (p := projectsRoot ++ [name]) (Nat.le_refl 3) (fun _ hpre => .inl ⟨name, hname, hpre⟩) h

theorem cleaned_temp {dir name : String} (hname : isTempName checkpointTempPrefix name = true)
    (h : Outside (checkpointsRoot ++ [dir] ++ [name]) d t) : Cleaned d t :=
  .of_outside (p := checkpointsRoot ++ [dir] ++ [name]) (Nat.le_succ 3)
    (fun _ hpre => .inr ⟨dir, name, hname, hpre⟩) h

/-- Making a fixed directory that was missing is cleaning up. -/
theorem cleaned_put {p : Path} {name : String} (hfixed : Fixed (p ++ [name]))
    (hnew : d.node (p ++ [name]) = none) (h : d.put p name .dir = some t) : Cleaned d t := by
  refine ⟨fun q _ hq => Disk.put_other h ?_, fun q _ hq => Disk.put_other h ?_⟩
  · rintro rfl
    exact hq hfixed
  · rintro rfl
    exact hq hnew

/-! ## Ids and staging names -/

theorem startsWith_of_isTempName {pfx name : String} (h : isTempName pfx name = true) :
    startsWith name pfx = true := by
  unfold isTempName at h
  rw [Bool.and_eq_true] at h
  exact h.1

/-- The directory of an id is no staging directory. -/
theorem hyphenated_not_temp {pfx : String} (hdot : pfx.toList.head? = some '.') {v : BitVec 128} :
    isTempName pfx (UuidText.hyphenated v) = false := by
  refine Bool.eq_false_iff.mpr (fun htemp => ?_)
  have hstarts := startsWith_of_isTempName htemp
  rw [hyphenated_not_dot hdot] at hstarts
  cases hstarts

/-- What lies in the project directory of an id is not cleaned up. -/
theorem project_not_leftover {id : ProjectId} {rel : Path} :
    ¬ Leftover (expectedProjectRoot id ++ rel) := by
  rintro (⟨name, htemp, hpre⟩ | ⟨dir, name, -, hpre⟩)
  · have hname : (projectsRoot ++ [name]) <+: projectsRoot ++ ProjectId.dirName id :: rel := hpre
    rw [List.prefix_append_right_inj, List.cons_prefix_cons] at hname
    obtain ⟨rfl, -⟩ := hname
    have hno : isTempName rollbackTempPrefix (ProjectId.dirName id) = false :=
      hyphenated_not_temp (by decide)
    rw [hno] at htemp
    cases htemp
  · have hroot : (checkpointsRoot ++ [dir, name]) <+: projectsRoot ++ ProjectId.dirName id :: rel :=
      hpre
    exact checkpoints_not_above hroot

/-- Nor is what lies in the checkpoint directory of an id, at any name without the prefix. -/
theorem child_not_leftover {dir name : String} {rel : Path}
    (hname : isTempName checkpointTempPrefix name = false) :
    ¬ Leftover (checkpointsRoot ++ [dir] ++ [name] ++ rel) := by
  rintro (⟨other, -, hpre⟩ | ⟨dir', other, htemp, hpre⟩)
  · have hroot : (projectsRoot ++ [other]) <+: checkpointsRoot ++ dir :: name :: rel := hpre
    exact not_prefix_checkpoints hroot
  · have hnames : (checkpointsRoot ++ [dir', other]) <+: checkpointsRoot ++ dir :: name :: rel :=
      hpre
    rw [List.prefix_append_right_inj, List.cons_prefix_cons, List.cons_prefix_cons] at hnames
    obtain ⟨-, rfl, -⟩ := hnames
    rw [hname] at htemp
    cases htemp

theorem not_fixed_of_length {q : Path} (h : 2 < q.length) : ¬ Fixed q := by
  intro hfixed
  have hle := hfixed.length_le
  omega

theorem Cleaned.liveTree (h : Cleaned d t) (id : ProjectId) :
    t.sub (expectedProjectRoot id) = d.sub (expectedProjectRoot id) := by
  funext rel
  refine h.other _ project_not_leftover (not_fixed_of_length ?_)
  rw [List.length_append]
  show 2 < 3 + rel.length
  omega

theorem Cleaned.child (h : Cleaned d t) {dir name : String}
    (hname : isTempName checkpointTempPrefix name = false) :
    t.sub (checkpointsRoot ++ [dir] ++ [name]) = d.sub (checkpointsRoot ++ [dir] ++ [name]) := by
  funext rel
  refine h.other _ (child_not_leftover hname) (not_fixed_of_length ?_)
  rw [List.length_append]
  show 2 < 4 + rel.length
  omega

theorem Cleaned.checkpointTree (h : Cleaned d t) (id : ProjectId) (checkpoint : CheckpointId) :
    t.sub (checkpointDir id checkpoint) = d.sub (checkpointDir id checkpoint) :=
  h.child (hyphenated_not_temp (by decide))

/-! ## The clean-up -/

/-- A request that removes under a path. -/
theorem wp_removal {o : Op} {code : String} {p : Path} (hJ : J d)
    (hperform : ∀ w, Outside p d (d.perform w o).2) (hafter : ∀ w, d.afterFailure w o = d) :
    Wp (Watch A J) () (io o code) (fun _ t => Outside p d t) (fun _ t => Outside p d t) d := by
  refine wp_ioAs hJ (fun w _ => ?_) (fun w _ _ _ => ?_)
  · have hout := hperform w
    revert hout
    cases (d.perform w o).1 with
    | ok v => exact id
    | error e => exact id
  · rw [hafter w]
    exact .refl p d

theorem removed_outside (w : World) (p : Path) : Outside p d (d.removed w p).2 := by
  intro q hq
  unfold Disk.removed
  cases w.kept with
  | none => exact FileTree.remove_other hq
  | some kept => exact FileTree.prune_other hq

theorem perform_removeFile_outside (w : World) (p : Path) :
    Outside p d (d.perform w (.removeFile p)).2 := by
  simp only [Disk.perform]
  split
  · exact removed_outside w p
  · exact .refl p d

theorem perform_removeDirAll_outside (w : World) (p : Path) :
    Outside p d (d.perform w (.removeDirAll p)).2 := by
  simp only [Disk.perform]
  split
  · exact removed_outside w p
  · exact .refl p d

/-- One entry: whatever survives changes in a staging directory survives its clean-up. -/
theorem wp_cleanupEntry {parent : Path} {pfx statCode removeCode invalidCode name : String}
    (hIJ : ∀ t, I t → J t)
    (hI : isTempName pfx name = true → ∀ t, Outside (parent ++ [name]) d t → I t) (hd : I d) :
    Wp (Watch A J) () (cleanupEntry parent pfx statCode removeCode invalidCode name)
      (fun _ => I) (fun _ => I) d := by
  unfold cleanupEntry
  by_cases htemp : isTempName pfx name = true
  swap
  · rw [if_neg htemp]
    exact wp_pure hd
  rw [if_pos htemp]
  refine wp_seq trivial (wp_symlinkMetadata (hIJ d hd)) ?_ ?_
  swap
  · rintro e t - ⟨rfl, -⟩
    exact hd
  rintro stat t - ⟨rfl, -⟩
  cases stat with
  | symlink =>
    exact Wp.mono trivial (wp_removal (o := .removeFile _) (hIJ t hd)
      (fun w => perform_removeFile_outside w _) (fun _ => rfl)) (fun _ u _ h => hI htemp u h)
      (fun _ u _ h => hI htemp u h)
  | dir =>
    exact Wp.mono trivial (wp_removal (o := .removeDirAll _) (hIJ t hd)
      (fun w => perform_removeDirAll_outside w _) (fun _ => rfl)) (fun _ u _ h => hI htemp u h)
      (fun _ u _ h => hI htemp u h)
  | file size executable links => exact wp_throw hd
  | special => exact wp_throw hd

/-- A loop keeps what each round keeps. -/
theorem wp_forEach {f : String → StoreM Unit} {names : List String}
    (hf : ∀ name t, I t → Wp (Watch A J) () (f name) (fun _ => I) (fun _ => I) t) (hd : I d) :
    Wp (Watch A J) () (forEach f names) (fun _ => I) (fun _ => I) d := by
  induction names generalizing d with
  | nil => exact wp_pure hd
  | cons name names ih =>
    exact wp_seq trivial (hf name d hd) (fun _ t _ ht => ih ht) (fun _ _ _ h => h)

theorem wp_cleanupRollbackStaging (hJ : ∀ t, Cleaned d t → J t) (ht : Cleaned d t) :
    Wp (Watch A J) () cleanupRollbackStaging (fun _ => Cleaned d) (fun _ => Cleaned d) t := by
  refine wp_seq trivial (wp_read (hJ t ht) (fun _ => rfl) (fun _ => rfl)) ?_ ?_
  · rintro names u - ⟨rfl, -⟩
    refine wp_forEach (I := Cleaned d) (fun name v hv => ?_) ht
    apply wp_cleanupEntry (I := Cleaned d)
    · exact hJ
    · intro htemp x hx
      have hstep := cleaned_staging htemp hx
      exact hv.trans hstep
    · exact hv
  · rintro e u - ⟨rfl, -⟩
    exact ht

theorem wp_cleanupCheckpointTemps (hJ : ∀ t, Cleaned d t → J t) (ht : Cleaned d t) :
    Wp (Watch A J) () cleanupCheckpointTemps (fun _ => Cleaned d) (fun _ => Cleaned d) t := by
  refine wp_seq trivial (wp_read (hJ t ht) (fun _ => rfl) (fun _ => rfl)) ?_ ?_
  swap
  · rintro e u - ⟨rfl, -⟩
    exact ht
  rintro projects u - ⟨rfl, -⟩
  refine wp_forEach (I := Cleaned d) (fun name v hv => ?_) ht
  refine wp_seq trivial (wp_symlinkMetadata (hJ v hv)) ?_ ?_
  swap
  · rintro e x - ⟨rfl, -⟩
    exact hv
  rintro stat x - ⟨rfl, -⟩
  refine wp_refuse (fun _ => hv) (fun _ => ?_)
  refine wp_seq trivial (wp_read (hJ x hv) (fun _ => rfl) (fun _ => rfl)) ?_ ?_
  · rintro names y - ⟨rfl, -⟩
    refine wp_forEach (I := Cleaned d) (fun entry z hz => ?_) hv
    apply wp_cleanupEntry (I := Cleaned d)
    · exact hJ
    · intro htemp x hx
      have hstep := cleaned_temp htemp hx
      exact hz.trans hstep
    · exact hz
  · rintro e y - ⟨rfl, -⟩
    exact hv

/-! ## The fixed directories -/

/-- The directory was there, or has been made. -/
def Ensured (d : Disk) (parent : Path) (name : String) (t : Disk) : Prop :=
  (t = d ∧ d.node (parent ++ [name]) ≠ none) ∨
    (d.node (parent ++ [name]) = none ∧ d.put parent name .dir = some t)

/-- A name that can be one component. -/
def PlainName (name : String) : Prop :=
  (name.isEmpty || name.toList.contains '/' || name.toList.contains '\\' || hasControl name) = false

/-- The directory can be made, or is there. -/
structure Makeable (d : Disk) (parent : Path) (name : String) : Prop where
  plain : PlainName name
  above : d.node parent = some .dir
  free : d.node (parent ++ [name]) = none ∨ d.node (parent ++ [name]) = some .dir

theorem wp_rejectSymlink {p : Path} {code : String} (hJ : J d) :
    Wp (Watch A J) () (rejectSymlink p code)
      (fun _ t => t = d ∧ d.node p ≠ some (.leaf .symlink))
      (fun _ t => t = d ∧ (Calm A → d.node p = some (.leaf .symlink))) d := by
  refine wp_seq trivial (wp_read hJ (fun _ => rfl) (fun _ => rfl)) ?_ ?_
  swap
  · rintro e t - ⟨rfl, he⟩
    refine ⟨rfl, fun hcalm => ?_⟩
    obtain ⟨e', he'⟩ := he hcalm
    cases he'
  rintro found t - ⟨rfl, hfound⟩
  cases hfound
  refine Wp.mono trivial (wp_resume (Q := fun _ u => u = t ∧ t.node p ≠ some (.leaf .symlink))
    (E := fun _ u => u = t ∧ t.node p = some (.leaf .symlink)) ?_) (fun _ _ _ h => h)
    (fun _ _ _ h => ⟨h.1, fun _ => h.2⟩)
  rcases hnode : t.node p with _ | _ | ⟨_, _, _⟩ | _ | _
  · exact ⟨rfl, fun hcontra => by cases hcontra⟩
  · exact ⟨rfl, fun hcontra => by cases hcontra⟩
  · exact ⟨rfl, fun hcontra => by cases hcontra⟩
  · exact ⟨rfl, rfl⟩
  · exact ⟨rfl, fun hcontra => by cases hcontra⟩

/-- A directory of a store is made, or is there. -/
theorem wp_createOrVerifyPrivateChild {parent : Path} {name : String} (hJ : J d)
    (hput : ∀ t, Ensured d parent name t → J t) :
    Wp (Watch A J) () (createOrVerifyPrivateChild parent name)
      (fun p t => p = parent ++ [name] ∧ Ensured d parent name t)
      (fun _ t => (t = d ∨ Ensured d parent name t) ∧ (Calm A → ¬ Makeable d parent name)) d := by
  refine wp_refuse (fun hbad => ?_) (fun hplain => ?_)
  · refine ⟨.inl rfl, fun _ h => ?_⟩
    have hplain := h.plain
    unfold PlainName at hplain
    rw [hbad] at hplain
    cases hplain
  have hmade : ∀ {t}, Ensured d parent name t → t.node (parent ++ [name]) ≠ none ∧
      (Makeable d parent name → t.node (parent ++ [name]) = some .dir) := by
    rintro t (⟨rfl, hthere⟩ | ⟨hnew, hput⟩)
    · exact ⟨hthere, fun h => h.free.resolve_left hthere⟩
    · have hself := Disk.put_self hput
      rw [hself]
      exact ⟨Option.some_ne_none _, fun _ => rfl⟩
  refine wp_seq trivial (wp_rejectSymlink hJ) ?_ ?_
  swap
  · rintro e t - ⟨rfl, hlink⟩
    refine ⟨.inl rfl, fun hcalm h => ?_⟩
    have hnode := hlink hcalm
    rcases h.free with hfree | hfree
    · rw [hfree] at hnode
      cases hnode
    · rw [hfree] at hnode
      cases hnode
  rintro _ t - ⟨rfl, -⟩
  -- the directory is there, or is made
  have hmake : Wp (Watch A J) ()
      (io (.createDir parent name) "checkpoint_fixed_child_create_failed")
      (fun _ u => Ensured t parent name u)
      (fun _ u => u = t ∧ (Calm A → ¬ Makeable t parent name)) t := by
    refine wp_ioAs hJ (fun w _ => ?_) (fun w hw hfails _ => ?_)
    · rcases hnode : t.node (parent ++ [name]) with _ | x
      · rcases hnew : t.put parent name .dir with _ | u
        · simp only [Disk.perform, hnode, hnew]
          refine ⟨rfl, fun _ h => ?_⟩
          obtain ⟨u, hu⟩ := put_new (x := .dir) h.above hnode
          rw [hu] at hnew
          cases hnew
        · simp only [Disk.perform, hnode, hnew]
          exact .inr ⟨hnode, hnew⟩
      · simp only [Disk.perform, hnode]
        refine .inl ⟨rfl, ?_⟩
        rw [hnode]
        exact Option.some_ne_none _
    · exact ⟨rfl, fun hcalm => (hcalm.fails hw hfails).elim⟩
  refine wp_seq trivial hmake ?_ (fun _ _ _ h => ⟨.inl h.1, h.2⟩)
  rintro _ u - hu
  have hJu : J u := hput u hu
  have hfollowed : ∀ {e}, u.followed (parent ++ [name]) = .error e →
      ¬ Makeable t parent name :=
    fun he h => not_dir_of_error he ((hmade hu).2 h)
  refine wp_seq trivial (wp_rejectSymlink hJu) ?_ ?_
  swap
  · rintro e v - ⟨rfl, hlink⟩
    refine ⟨.inr hu, fun hcalm h => ?_⟩
    have hnode := hlink hcalm
    rw [(hmade hu).2 h] at hnode
    cases hnode
  rintro _ v - ⟨rfl, -⟩
  refine wp_seq trivial
    (wp_followed (o := .canonicalize _) hJu (fun _ => rfl) (fun _ => rfl)) ?_ ?_
  swap
  · rintro e w - ⟨rfl, he⟩
    refine ⟨.inr hu, fun hcalm => ?_⟩
    obtain ⟨e', he'⟩ := he hcalm
    exact hfollowed he'
  rintro canonical w - ⟨rfl, -, -, rfl⟩
  refine wp_refuse (fun hbad => ?_) (fun _ => ?_)
  · rw [bne_self_eq_false, Bool.false_or, List.dropLast_concat, bne_self_eq_false] at hbad
    cases hbad
  refine wp_seq trivial (wp_setPrivateDirMode hJu) ?_ ?_
  · rintro _ x - rfl
    exact wp_pure ⟨rfl, hu⟩
  · rintro e x - ⟨rfl, hno⟩
    exact ⟨.inr hu, fun hcalm h => hno hcalm ((hmade hu).2 h)⟩

theorem Ensured.cleaned {parent : Path} {name : String} (hfixed : Fixed (parent ++ [name]))
    (h : Ensured d parent name t) : Cleaned d t := by
  rcases h with ⟨rfl, -⟩ | ⟨hnew, hput⟩
  · exact .refl
  · exact cleaned_put hfixed hnew hput

/-- A fixed directory, between two steps of a clean-up. -/
theorem wp_fixedChild {parent : Path} {name : String} (hfixed : Fixed (parent ++ [name]))
    (hJ : ∀ u, Cleaned d u → J u) (ht : Cleaned d t) :
    Wp (Watch A J) () (createOrVerifyPrivateChild parent name)
      (fun p u => p = parent ++ [name] ∧ Cleaned d u) (fun _ => Cleaned d) t := by
  refine Wp.mono trivial (wp_createOrVerifyPrivateChild (hJ t ht)
    (fun u hu => hJ u (ht.trans (hu.cleaned hfixed)))) ?_ ?_
  · rintro p u - ⟨hp, hu⟩
    exact ⟨hp, ht.trans (hu.cleaned hfixed)⟩
  · rintro e u - ⟨rfl | hu, -⟩
    · exact ht
    · exact ht.trans (hu.cleaned hfixed)

/-- **The start-up clean-up** touches nothing but the fixed directories and staging directories,
    and does so at every request. -/
theorem wp_initializeStore (hJ : ∀ t, Cleaned d t → J t) :
    Wp (Watch A J) () initializeStore (fun _ => Cleaned d) (fun _ => Cleaned d) d := by
  have hsame : ∀ {t : Disk} {P : Prop}, t = d ∧ P → Cleaned d t := by
    rintro t P ⟨rfl, -⟩
    exact .refl
  refine wp_seq trivial (wp_rejectSymlink (hJ d .refl)) ?_ (fun _ _ _ h => hsame h)
  rintro _ t - ⟨rfl, -⟩
  refine wp_seq trivial
    (wp_followed (o := .canonicalize []) (hJ t .refl) (fun _ => rfl) (fun _ => rfl)) ?_
    (fun _ _ _ h => hsame h)
  rintro root u - ⟨rfl, -, -, rfl⟩
  refine wp_seq trivial (wp_metadata (hJ u .refl)) ?_ (fun _ _ _ h => hsame h)
  rintro stat v - ⟨rfl, -⟩
  refine wp_refuse (fun _ => .refl) (fun _ => ?_)
  refine wp_seq trivial (wp_fixedChild (.inl rfl) hJ .refl) ?_ (fun _ _ _ h => h)
  rintro product t - ⟨rfl, ht⟩
  refine wp_seq trivial (wp_fixedChild (.inr (.inl rfl)) hJ ht) ?_ (fun _ _ _ h => h)
  rintro projects u - ⟨rfl, hu⟩
  refine wp_seq trivial (wp_fixedChild (.inr (.inr rfl)) hJ hu) ?_ (fun _ _ _ h => h)
  rintro checkpoints w - ⟨rfl, hw⟩
  refine wp_refuse (fun _ => hw) (fun _ => ?_)
  refine wp_seq trivial (wp_cleanupRollbackStaging hJ hw) ?_ (fun _ _ _ h => h)
  rintro _ x - hx
  exact wp_cleanupCheckpointTemps hJ hx

/-! ## Crashes -/

/-- The disk when the process dies after `k` requests of a method, if it does not end before. -/
def crash {α : Type} (w : Nat → World) (k : Nat) (p : StoreM α) (d : Disk) : Disk :=
  p.run.cut Disk.exec w k 0 d

/-- The disk after some starts, each in its own surroundings and dying after some request. -/
def restarts : List ((Nat → World) × Nat) → Disk → Disk
  | [], d => d
  | (w, k) :: starts, d => restarts starts (crash w k initializeStore d)

/-- A condition that holds at every request and at the end holds wherever the process dies. -/
theorem crash_of_wp {α : Type} {p : StoreM α} {w : Nat → World} {k : Nat}
    (h : Wp (Watch (During w) J) () p (fun _ => J) (fun _ => J) d) : J (crash w k p d) := by
  rcases safe_cut (w := w) (k := k) (n := 0) (fun n => ⟨n, rfl⟩) h with hJ | ⟨r, hr⟩
  · exact hJ
  · exact Post.both hr

/-- Starts clean up, however often they die. -/
theorem cleaned_restarts (starts : List ((Nat → World) × Nat)) : Cleaned d (restarts starts d) := by
  induction starts generalizing d with
  | nil => exact .refl
  | cons start starts ih =>
    have hfirst : Cleaned d (crash start.1 start.2 initializeStore d) :=
      crash_of_wp (wp_initializeStore (fun _ h => h))
    exact hfirst.trans ih

/-- What holds after a crash in a rollback. -/
structure CrashSafe (env : Env) (d : Disk) (project : ProjectRef) (checkpoint : CheckpointId)
    (t : Disk) : Prop where
  /-- The live tree is the old one or the snapshot. -/
  live : t.sub (expectedProjectRoot project.id) = d.sub (expectedProjectRoot project.id) ∨
    t.sub (expectedProjectRoot project.id) = d.sub (snapshotTree project.id checkpoint)
  /-- The checkpoint has not changed. -/
  kept : t.sub (checkpointDir project.id checkpoint) = d.sub (checkpointDir project.id checkpoint)
  /-- A checkpoint that could be rolled back to still can. -/
  restorable : (∃ m digest, Verified env d project checkpoint m digest) →
    ∀ (w : Nat → World) (uuid : BitVec 128), (∀ n, (w n).fails = false) →
      t.node (stagingDir (stagingName uuid)) = none →
      ∃ result after, runAlone Disk.exec w (rollback env project checkpoint uuid) 0 t =
          (.ok result, after) ∧
        after.2.sub (expectedProjectRoot project.id) = d.sub (snapshotTree project.id checkpoint)

theorem RollbackSafe.cleaned {staging : String}
    (h : RollbackSafe d project checkpoint staging t) (hclean : Cleaned t u) :
    (u.sub (expectedProjectRoot project.id) = d.sub (expectedProjectRoot project.id) ∨
      u.sub (expectedProjectRoot project.id) = d.sub (snapshotTree project.id checkpoint)) ∧
      u.sub (checkpointDir project.id checkpoint) =
        d.sub (checkpointDir project.id checkpoint) := by
  constructor
  · rw [hclean.liveTree]
    exact h.live
  · rw [hclean.checkpointTree]
    funext rel
    exact h.elsewhere.checkpoints _

theorem sub_snapshot {id : ProjectId}
    (h : t.sub (checkpointDir id checkpoint) = d.sub (checkpointDir id checkpoint)) :
    t.sub (snapshotTree id checkpoint) = d.sub (snapshotTree id checkpoint) := by
  funext rel
  unfold snapshotTree
  rw [FileTree.sub_append, FileTree.sub_append, h]

theorem Loaded.congr {id : ProjectId} {m : CheckpointMetadata}
    (h : Loaded env d id checkpoint m)
    (hkept : t.sub (checkpointDir id checkpoint) = d.sub (checkpointDir id checkpoint)) :
    Loaded env t id checkpoint m := by
  refine ⟨?_, ?_, h.valid, h.project, h.checkpoint⟩
  · rw [← FileTree.sub_nil, hkept, FileTree.sub_nil, h.dir]
  · obtain ⟨content, executable, hfile, hrest⟩ := h.file
    have hsame : t.node (checkpointDir id checkpoint ++ [metadataName]) =
        d.node (checkpointDir id checkpoint ++ [metadataName]) := congrFun hkept [metadataName]
    exact ⟨content, executable, hsame.trans hfile, hrest⟩

/-- A checkpoint is verified by its directory and by the live tree being there. -/
theorem Verified.congr {m : CheckpointMetadata} {digest : TreeDigest}
    (h : Verified env d project checkpoint m digest)
    (hlive : t.node (expectedProjectRoot project.id) = some .dir)
    (hkept : t.sub (checkpointDir project.id checkpoint) =
      d.sub (checkpointDir project.id checkpoint)) :
    Verified env t project checkpoint m digest := by
  refine ⟨⟨h.there.root, hlive⟩, h.loaded.congr hkept, ?_, h.sha256, h.fileCount, h.totalBytes⟩
  rw [treeDigest_congr (sub_snapshot hkept), h.snapshot]

/-- **Crash safety.**  Wherever a rollback dies, and wherever the starts after it die, the live tree
    is the old one or the snapshot, and the checkpoint can still be rolled back to. -/
theorem rollback_crash_safe (env : Env) (project : ProjectRef) (checkpoint : CheckpointId)
    (uuid : BitVec 128) (w : Nat → World) (k : Nat) (starts : List ((Nat → World) × Nat))
    (d : Disk) : CrashSafe env d project checkpoint
      (restarts starts (crash w k (rollback env project checkpoint uuid) d)) := by
  have hcrash : RollbackSafe d project checkpoint (stagingName uuid)
      (crash w k (rollback env project checkpoint uuid) d) :=
    crash_of_wp (Wp.mono trivial (wp_rollback (fun _ h => h)) (fun _ _ _ h => h.1)
      (fun _ _ _ h => h.1))
  obtain ⟨hlive, hkept⟩ := hcrash.cleaned (cleaned_restarts starts)
  refine ⟨hlive, hkept, ?_⟩
  rintro ⟨m, digest, hverified⟩ w' uuid' hquiet hfree
  have hdir : (restarts starts (crash w k (rollback env project checkpoint uuid) d)).node
      (expectedProjectRoot project.id) = some .dir := by
    rw [← FileTree.sub_nil]
    rcases hlive with hold | hsnapshot
    · rw [hold, FileTree.sub_nil]
      exact hverified.there.dir
    · rw [hsnapshot, FileTree.sub_nil]
      exact dir_of_treeDigest hverified.snapshot
  have hcalm : Calm (During w') := by
    rintro v ⟨n, rfl⟩
    exact hquiet n
  have hagain := hverified.congr hdir hkept
  rcases hrun : runAlone Disk.exec w' (rollback env project checkpoint uuid') 0
      (restarts starts (crash w k (rollback env project checkpoint uuid) d)) with ⟨e | r, after⟩
  · exact ((wp_during_error (wp_rollback (fun _ _ => trivial)) hrun).2 hcalm
      ⟨m, digest, hagain⟩ hfree).elim
  · refine ⟨r, after, rfl, ?_⟩
    rw [(wp_during_ok (wp_rollback (fun _ _ => trivial)) hrun).2, sub_snapshot hkept]

end VibeCoder.Checkpoint
