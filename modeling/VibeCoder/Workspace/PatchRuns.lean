/-
  A patch with one failure in it.

  Up to the creation of the temporary file nothing is changed.  After it an error means that the
  failure has been, so that the removal of the temporary file succeeds.

  1. **The plan** (`Planned`) — where the file is, what it holds and what the patch makes of it.
  2. **The temporary file** (`HasTemp`) — the disk is the old one but for that file.
  3. **`text_patch_atomic`** — the file is patched, or nothing has changed.
-/
import VibeCoder.Checkpoint.WalkLaws
import VibeCoder.Workspace.Looking
import VibeCoder.Workspace.PatchText

namespace VibeCoder.Workspace

open Resume Files Checkpoint

variable {writable : Bool} {d t : Disk}

/-! ## The plan -/

/-- What a patch that has passed all its checks goes on with. -/
structure Planned (project : ProjectRef) (relative : String) (hunks : List TextPatchHunk)
    (d : Disk) (plan : PatchPlan) (text result : List Char) : Prop where
  target : ∃ names, validateRelativePath relative = .ok names ∧
    plan.parent ++ [plan.name] = expectedProjectRoot project.id ++ names
  holds : HoldsFile d (plan.parent ++ [plan.name]) plan.original plan.executable
  bounded : plan.original.length ≤ maxFileWriteBytes
  original : plan.original = textBytes text
  patches : PatchesTo text hunks result
  updated : plan.updated = textBytes result

theorem looks_preparePatch {project : ProjectRef} {relative : String}
    {hunks : List TextPatchHunk} :
    Looks writable Anyhow d (preparePatch project relative hunks) (fun plan =>
      writable = true ∧ ∃ text result, Planned project relative hunks d plan text result) := by
  refine looks_bind looks_refuseIf (fun _ _ => ?_)
  refine looks_bind looks_resume (fun _ _ => ?_)
  refine looks_bind looks_resume (fun names hnames => ?_)
  refine looks_bind looks_openParent (fun found htarget => ?_)
  obtain ⟨parent, name⟩ := found
  refine looks_bind looks_inspect (fun found hfound => ?_)
  obtain ⟨content, executable, hholds, rfl⟩ := hfound
  refine looks_bind looks_refuseIf (fun _ hwritable => ?_)
  refine looks_bind looks_refuseIf (fun _ hsize => ?_)
  have hbounded : content.length ≤ maxFileWriteBytes :=
    Nat.not_lt.mp (of_decide_eq_false hsize)
  refine looks_bind (looks_readVerified hholds hbounded).anyhow (fun original horiginal => ?_)
  subst horiginal
  refine looks_bind looks_resume (fun text htext => ?_)
  have hutf8 : fromUtf8 original = some text := by
    revert htext
    cases fromUtf8 original with
    | none => exact fun htext => by cases htext
    | some read =>
      intro htext
      cases htext
      rfl
  refine looks_bind looks_resume (fun result hresult => looks_pure ⟨?_, text, result, ?_⟩)
  · rw [Bool.not_eq_false'] at hwritable
    exact hwritable
  · exact {
      target := ⟨names, hnames, htarget⟩
      holds := hholds
      bounded := hbounded
      original := (textBytes_fromUtf8 hutf8).symm
      patches := applyHunks_patches hresult
      updated := rfl }

/-! ## The temporary file -/

variable {parent : Path} {name temp : String} {executable : Bool} {content bytes : List UInt8}

/-- The disk is `d` with a temporary file. -/
def HasTemp (d : Disk) (temp : Path) (executable : Bool) (content : List UInt8) (t : Disk) : Prop :=
  t.node = Function.update d.node temp (some (.leaf (.file content executable 1)))

theorem put_node {x : Node Leaf} (h : d.put parent name x = some t) :
    t.node = Function.update d.node (parent ++ [name]) (some x) := by
  obtain ⟨hp, hn, rfl⟩ := Disk.put_eq_some.mp h
  rfl

theorem HasTemp.self {p : Path} (h : HasTemp d p executable content t) :
    t.node p = some (.leaf (.file content executable 1)) := by
  rw [h, Function.update_self]

theorem HasTemp.other {p q : Path} (h : HasTemp d p executable content t) (hq : q ≠ p) :
    t.node q = d.node q := by
  rw [h, Function.update_of_ne hq]

theorem HasTemp.append {more : List UInt8} {u : Disk}
    (h : HasTemp d (parent ++ [temp]) executable content t)
    (happend : t.append parent temp more = some u) :
    HasTemp d (parent ++ [temp]) executable (content ++ more) u := by
  unfold Disk.append at happend
  rw [h.self] at happend
  have hnode := put_node happend
  rw [h, Function.update_idem] at hnode
  exact hnode

/-- More bytes can be written to it. -/
theorem HasTemp.append_some (h : HasTemp d (parent ++ [temp]) executable content t)
    (more : List UInt8) : ∃ u, t.append parent temp more = some u := by
  unfold Disk.append
  rw [h.self]
  have hdir : t.node parent = some .dir := t.rooted parent temp (by
    rw [h.self]
    exact Option.some_ne_none _)
  refine ⟨_, Disk.put_eq_some.mpr ⟨hdir, ?_, rfl⟩⟩
  rw [h.self]
  intro hcontra
  cases hcontra

/-- Without it the disk is the old one. -/
theorem HasTemp.removed {p : Path} (hnew : d.node p = none)
    (h : HasTemp d p executable content t) : (t.remove p).node = d.node := by
  funext q
  by_cases hq : p <+: q
  · rw [FileTree.remove_under hq]
    obtain ⟨rel, rfl⟩ := hq
    by_cases hrel : rel = []
    · rw [hrel, List.append_nil, hnew]
    · refine (d.none_below ?_ hrel).symm
      rw [hnew]
      exact (Option.some_ne_none _).symm
  · rw [FileTree.remove_other hq]
    refine h.other ?_
    rintro rfl
    exact hq (List.prefix_refl _)

theorem not_under_sibling {a b : String} (hne : a ≠ b) (rel : Path) :
    ¬ (parent ++ [b]) <+: parent ++ [a] ++ rel := by
  intro hpre
  rw [List.append_assoc, List.prefix_append_right_inj] at hpre
  exact hne (List.cons_prefix_cons.mp hpre).1.symm

/-- Renamed over the target, it is the target. -/
theorem HasTemp.renamed {old : List UInt8} (hnew : d.node (parent ++ [temp]) = none)
    (hold : HoldsFile d (parent ++ [name]) old executable)
    (h : HasTemp d (parent ++ [temp]) executable content t) :
    ∃ u, t.renamed parent temp name = some u ∧ u.node = Function.update d.node (parent ++ [name])
      (some (.leaf (.file content executable 1))) := by
  have hleaf : d.node (parent ++ [name]) = some (.leaf (.file old executable 1)) := hold
  have hne : temp ≠ name := by
    rintro rfl
    rw [hnew] at hleaf
    cases hleaf
  have hpath : parent ++ [name] ≠ parent ++ [temp] := by
    intro heq
    exact hne (List.append_inj' heq rfl |>.2 |> List.cons.inj |>.1).symm
  have htarget : t.node (parent ++ [name]) = some (.leaf (.file old executable 1)) := by
    rw [h.other hpath, hleaf]
  have hbelow : ∀ {v : Disk} {p : Path} {x : Leaf} {rel : Path}, v.node p = some (.leaf x) →
      rel ≠ [] → v.node (p ++ rel) = none := by
    intro v p x rel hx hrel
    refine v.none_below ?_ hrel
    rw [hx]
    intro hcontra
    cases hcontra
  refine ⟨(t.remove (parent ++ [name])).exchange parent temp name, ?_, ?_⟩
  · unfold Disk.renamed
    rw [h.self, htarget]
  funext q
  by_cases hname : (parent ++ [name]) <+: q
  · -- at the target, and below it, is what was at the temporary name
    obtain ⟨rel, rfl⟩ := hname
    have hsub := congrFun (FileTree.exchange_right (t := t.remove (parent ++ [name]))
      (p := parent) (a := temp) (b := name)) rel
    unfold FileTree.sub at hsub
    rw [hsub, FileTree.remove_other (not_under_sibling hne rel)]
    by_cases hrel : rel = []
    · rw [hrel, List.append_nil, List.append_nil, h.self, Function.update_self]
    · rw [hbelow h.self hrel, Function.update_of_ne, hbelow hleaf hrel]
      exact fun heq => hrel (List.append_right_eq_self.mp heq)
  · have hq : q ≠ parent ++ [name] := by
      rintro rfl
      exact hname (List.prefix_refl _)
    rw [Function.update_of_ne hq]
    by_cases htemp : (parent ++ [temp]) <+: q
    · -- at the temporary name there is nothing any more, as there was nothing before
      obtain ⟨rel, rfl⟩ := htemp
      have hsub := congrFun (FileTree.exchange_left (t := t.remove (parent ++ [name]))
        (p := parent) (a := temp) (b := name)) rel
      unfold FileTree.sub at hsub
      rw [hsub, FileTree.remove_under (List.prefix_append _ _)]
      by_cases hrel : rel = []
      · rw [hrel, List.append_nil, hnew]
      · refine (d.none_below ?_ hrel).symm
        rw [hnew]
        exact (Option.some_ne_none _).symm
    · rw [FileTree.exchange_other htemp hname, FileTree.remove_other hname]
      refine h.other ?_
      rintro rfl
      exact htemp (List.prefix_refl _)

/-! ## Filling it -/

/-- The failure has been, and has left the temporary file and nothing else. -/
def Leftover (d : Disk) (temp : Path) (executable : Bool) (s : Disk × Bool) : Prop :=
  s.2 = true ∧ ∃ content, HasTemp d temp executable content s.1

variable {α β : Type} {spent : Bool}

/-- A part that only looks while the temporary file is there. -/
theorem wp_looking {p : FileM α} {f : α → FileM β} {R : α → Prop} {Q : β → Disk × Bool → Prop}
    {path : Path} (ht : HasTemp d path executable content t) (hp : Looks writable Broken t p R)
    (hf : ∀ a, R a → ∀ mark, Wp (Single writable) () (f a) Q
      (fun _ => Leftover d path executable) (t, mark)) :
    Wp (Single writable) () (p >>= f) Q (fun _ => Leftover d path executable) (t, spent) := by
  refine wp_seq trivial (hp spent) (fun a s _ hs => ?_) (fun e s _ hs => ?_)
  · obtain ⟨u, mark⟩ := s
    obtain ⟨rfl, hR⟩ : u = t ∧ R a := hs
    exact hf a hR mark
  · obtain ⟨rfl, hbroken⟩ := hs
    exact ⟨hbroken, content, ht⟩

/-- The bytes are in the temporary file, or the failure has been. -/
theorem wp_fillTemp {codes : ReplaceCodes} (ht : HasTemp d (parent ++ [temp]) executable [] t) :
    Wp (Single writable) () (fillTemp codes parent temp bytes)
      (fun _ s => HasTemp d (parent ++ [temp]) executable bytes s.1)
      (fun _ => Leftover d (parent ++ [temp]) executable) (t, spent) := by
  have hmode : Looks writable Broken t (diskIo (.setMode (parent ++ [temp])) codes.mode)
      (· = ()) := by
    refine looks_performed rfl (fun w => ?_)
    simp only [Disk.perform, Disk.followed, ht.self]
    rfl
  have hstat : Looks writable Broken t (diskIo (.statFile (parent ++ [temp])) codes.stat)
      (· = .file 0 executable 1) := by
    refine looks_performed rfl (fun w => ?_)
    simp only [Disk.perform, ht.self]
    rfl
  refine wp_looking ht hmode (fun _ _ _ => wp_looking ht hstat (fun stat hstat _ => ?_))
  subst hstat
  refine wp_looking ht (looks_regular rfl rfl) (fun _ _ mark => ?_)
  obtain ⟨u, hu⟩ := ht.append_some bytes
  have hfilled : HasTemp d (parent ++ [temp]) executable bytes u := by
    have happended := ht.append hu
    rw [List.nil_append] at happended
    exact happended
  refine wp_bind (wp_performed (u := u) (v := ()) rfl (fun w => ?_) (fun mark => ?_) (fun w => ⟨rfl, ?_⟩))
  · simp only [Disk.perform, hu]
    rfl
  · have hsync : Looks writable Broken u (diskIo (.syncFile (parent ++ [temp])) codes.fileSync)
        (· = ()) := by
      refine looks_performed rfl (fun w => ?_)
      simp only [Disk.perform, hfilled.self]
    refine Wp.mono trivial (hsync mark) (fun _ s _ hs => ?_) (fun _ s _ hs => ?_)
    · rw [hs.1]
      exact hfilled
    · exact ⟨hs.2, bytes, hs.1 ▸ hfilled⟩
  · -- a write that fails leaves some of the bytes
    obtain ⟨v, hv⟩ := ht.append_some (bytes.take w.written)
    simp only [Disk.afterFailure, hv, Option.getD_some]
    exact ⟨_, ht.append hv⟩

/-! ## Removing it -/

/-- After the failure the removal succeeds. -/
theorem wp_dropTemp {path : Path} {s : Disk × Bool} (hnew : d.node path = none)
    (hs : Leftover d path executable s) :
    Wp (Single writable) () (drop (.disk (.removeFile path))) (fun _ u => u.1.node = d.node)
      (fun _ _ => False) s := by
  obtain ⟨u, mark⟩ := s
  obtain ⟨hmark, content, ht⟩ := hs
  replace hmark : mark = true := hmark
  subst hmark
  refine wp_bind (wp_settle (wp_attempt trivial (fun w hw v hrely _ => ?_)))
  have hstill : Still writable (afterFault World.faulty World.still true w) := outside_spent hw
  have hleaf : u.node path = some (.leaf (.file content executable 1)) := ht.self
  have hexec : exec (afterFault World.faulty World.still true w) (.disk (.removeFile path)) u =
      (.ok (), u.remove path) := by
    simp only [exec, Disk.exec, Op.removal, Bool.not_true, Bool.and_false, Bool.false_eq_true,
      if_false, Disk.perform, hleaf, Disk.removed, hstill.kept]
  have hdone : spending World.faulty World.still exec w (.disk (.removeFile path)) (u, true) =
      (.ok (), (u.remove path, true)) := by
    unfold spending
    rw [hexec]
    rfl
  have hv : (spending World.faulty World.still exec w (.disk (.removeFile path)) (u, true)).2 = v :=
    hrely
  show Post _ _ (spending World.faulty World.still exec w (.disk (.removeFile path)) (u, true)).1 v
  rw [← hv, hdone]
  exact wp_pure (HasTemp.removed hnew ht)

/-! ## The whole replacement -/

section Plan

variable {project : ProjectRef} {relative : String} {hunks : List TextPatchHunk}
variable {plan : PatchPlan} {text result : List Char}

/-- The target is still as it was. -/
theorem looks_recheckTarget {path : Path} (hplan : Planned project relative hunks d plan text result)
    (hnew : d.node path = none) (ht : HasTemp d path plan.executable content t) :
    Looks true Broken t (recheckTarget plan) (fun _ => True) := by
  have hholds : HoldsFile t (plan.parent ++ [plan.name]) plan.original plan.executable := by
    unfold HoldsFile
    rw [ht.other]
    · exact hplan.holds
    · rintro rfl
      have hsome : d.node (plan.parent ++ [plan.name]) = _ := hplan.holds
      rw [hnew] at hsome
      cases hsome
  refine looks_bind (looks_inspect_sure hholds) (fun found hfound => ?_)
  subst hfound
  refine looks_bind (looks_pass ?_) (fun _ _ => ?_)
  · show (plan.executable != plan.executable || !true) = false
    rw [bne_self_eq_false]
    rfl
  refine looks_bind (looks_readVerified hholds hplan.bounded) (fun current hcurrent => ?_)
  subst hcurrent
  exact looks_pass (bne_self_eq_false _)

/-- The temporary file takes the target's place, or is removed again. -/
theorem wp_replaceFile {uuid : BitVec 128}
    (hplan : Planned project relative hunks d plan text result) :
    Wp (Single true) () (replaceFile patchCodes plan.parent plan.name (tempFileName uuid)
        plan.executable plan.updated (recheckTarget plan))
      (fun _ s => s.1.node = Function.update d.node (plan.parent ++ [plan.name])
        (some (.leaf (.file plan.updated plan.executable 1))))
      (fun _ s => s.1.node = d.node) (d, spent) := by
  generalize tempFileName uuid = temp
  rcases hnew : d.node (plan.parent ++ [temp]) with _ | x
  · have hdir : d.node plan.parent = some .dir := by
      refine d.rooted plan.parent plan.name ?_
      have hsome : d.node (plan.parent ++ [plan.name]) = _ := hplan.holds
      rw [hsome]
      exact Option.some_ne_none _
    obtain ⟨u, hu⟩ := put_new (x := .leaf (.file [] plan.executable 1)) hdir hnew
    have ht : HasTemp d (plan.parent ++ [temp]) plan.executable [] u := put_node hu
    refine wp_bind (wp_performed (u := u) (v := ()) rfl (fun w => ?_) (fun mark => ?_)
      (fun w => rfl))
    · simp only [Disk.perform, hnew, hu]
      rfl
    have hfilled : Wp (Single true) () (do
          fillTemp patchCodes plan.parent temp plan.updated
          recheckTarget plan
          diskIo (.rename plan.parent temp plan.name) patchCodes.rename)
        (fun _ s => s.1.node = Function.update d.node (plan.parent ++ [plan.name])
          (some (.leaf (.file plan.updated plan.executable 1))))
        (fun _ => Leftover d (plan.parent ++ [temp]) plan.executable) (u, mark) := by
      refine wp_seq trivial (wp_fillTemp ht) (fun _ s _ hs => ?_) (fun _ _ _ h => h)
      obtain ⟨v, mark'⟩ := s
      replace hs : HasTemp d (plan.parent ++ [temp]) plan.executable plan.updated v := hs
      refine wp_looking hs (looks_recheckTarget hplan hnew hs) (fun _ _ mark'' => ?_)
      obtain ⟨r, hr, hnode⟩ := hs.renamed hnew hplan.holds
      refine wp_performed (u := r) (v := ()) rfl (fun w => ?_) (fun _ => hnode)
        (fun w => ⟨rfl, _, hs⟩)
      simp only [Disk.perform, hr]
      rfl
    refine wp_bind (wp_settle (Wp.mono trivial hfilled (fun _ _ _ h => h) (fun e s _ hs => ?_)))
    exact wp_seq_total trivial (wp_dropTemp hnew hs) (fun _ _ _ h => wp_throw h)
  · -- the name is taken, and nothing is there to clean up
    have htaken : ∀ w : World, (exec w (.disk (.createFile plan.parent temp plan.executable)) d) =
        (.error ioError, d) := by
      intro w
      simp only [exec, Disk.exec]
      split
      · rfl
      · simp only [Disk.perform, hnew]
    refine wp_bind (wp_io (fun w _ => ?_) (fun w _ => ?_))
    · rw [htaken]
      rfl
    · rw [htaken]
      rfl

/-- A patch that changes no byte writes nothing, and the file is what the patch makes of it. -/
theorem wp_commitPatch {uuid : BitVec 128}
    (hplan : Planned project relative hunks d plan text result) :
    Wp (Single true) () (commitPatch plan uuid)
      (fun _ s => s.1.node = Function.update d.node (plan.parent ++ [plan.name])
        (some (.leaf (.file plan.updated plan.executable 1))))
      (fun _ s => s.1.node = d.node) (d, spent) := by
  unfold commitPatch
  split
  · rename_i hsame
    refine wp_pure ?_
    have hholds : d.node (plan.parent ++ [plan.name]) = _ := hplan.holds
    rw [hsame, ← hholds, Function.update_eq_self]
  · exact wp_replaceFile hplan

end Plan

/-! ## The law -/

/-- The target holds what the patch makes of it, nothing else has changed, and the numbers are
    those of the two texts. -/
def Patched (project : ProjectRef) (relative : String) (hunks : List TextPatchHunk) (d : Disk)
    (report : TextPatchResult) (t : Disk) : Prop :=
  ∃ names text result executable,
    validateRelativePath relative = .ok names ∧
    HoldsFile d (expectedProjectRoot project.id ++ names) (textBytes text) executable ∧
    PatchesTo text hunks result ∧
    t.node = Function.update d.node (expectedProjectRoot project.id ++ names)
      (some (.leaf (.file (textBytes result) executable 1))) ∧
    report = {
      hunksApplied := hunks.length
      bytesBefore := (textBytes text).length
      bytesAfter := (textBytes result).length }

/-- What a patch may end in: the patched file, or an error that leaves everything as it was, unless
    it is the one about the synchronisation that follows the renaming. -/
def PatchOutcome (project : ProjectRef) (relative : String) (hunks : List TextPatchHunk)
    (d : Disk) : Result TextPatchResult → Disk → Prop
  | .ok report, t => Patched project relative hunks d report t
  | .error e, t => e ≠ workspaceError "text_edit_parent_sync_failed" → t.node = d.node

variable {project : ProjectRef} {relative : String} {hunks : List TextPatchHunk}

theorem wp_applyTextPatchPairs {uuid : BitVec 128} :
    Wp (Single writable) () (applyTextPatchPairs project relative hunks uuid)
      (fun report s => Patched project relative hunks d report s.1)
      (fun e s => e ≠ workspaceError "text_edit_parent_sync_failed" → s.1.node = d.node)
      (d, spent) := by
  refine wp_seq trivial (looks_preparePatch spent) (fun plan s _ hs => ?_) (fun _ s _ hs _ => ?_)
  · obtain ⟨u, mark⟩ := s
    obtain ⟨rfl, rfl, text, result, hplan⟩ : u = d ∧ writable = true ∧ ∃ text result,
      Planned project relative hunks d plan text result := hs
    refine wp_seq trivial (wp_commitPatch hplan) (fun _ s _ hpatched => ?_)
      (fun _ _ _ hs _ => hs)
    obtain ⟨names, hnames, htarget⟩ := hplan.target
    obtain ⟨v, mark'⟩ := s
    have hdone : Patched project relative hunks u
        { hunksApplied := hunks.length
          bytesBefore := plan.original.length
          bytesAfter := plan.updated.length } v := by
      refine ⟨names, text, result, plan.executable, hnames, ?_, hplan.patches, ?_, ?_⟩
      · rw [← htarget, ← hplan.original]
        exact hplan.holds
      · rw [← htarget, ← hplan.updated]
        exact hpatched
      · rw [← hplan.original, ← hplan.updated]
    unfold syncPatch
    split
    · exact wp_bind (wp_pure (wp_pure hdone))
    · -- the only error from here on is that of the synchronisation
      have hsync : ∀ w, (exec w (.disk (.syncDir plan.parent)) v).2 = v := exec_quiet rfl
      refine wp_bind (wp_io (fun w _ => ?_) (fun w _ => ?_))
      · rw [hsync]
        cases (exec w (.disk (.syncDir plan.parent)) v).1 with
        | ok _ => exact wp_pure hdone
        | error _ => exact fun hne => absurd rfl hne
      · rw [hsync]
        cases (exec w (.disk (.syncDir plan.parent)) v).1 with
        | ok _ => exact wp_pure hdone
        | error _ => exact fun hne => absurd rfl hne
  · rw [hs.1]

/-- **Patches are atomic.**  With at most one failing request, whatever the disk, the file and the
    hunks: a patch that succeeds leaves the target as the hunks make it one after the other, with
    the numbers it reports, and one that fails before the renaming leaves everything as it was, with
    no temporary file. -/
theorem text_patch_atomic (schedule : Schedule) (project : ProjectRef) (relative : String)
    (uuid : BitVec 128) (d : Disk) :
    (∀ hunks, PatchOutcome project relative hunks d
      (runAlone exec schedule.world (applyTextPatch project relative hunks uuid) 0 d).1
      (runAlone exec schedule.world (applyTextPatch project relative hunks uuid) 0 d).2.2) ∧
    ∀ expected replacement, PatchOutcome project relative
      [{ expected := expected, replacement := replacement }] d
      ((runAlone exec schedule.world
        (editTextFile project relative expected replacement uuid) 0 d).1.map fun report =>
          { hunksApplied := report.replacements
            bytesBefore := report.bytesBefore
            bytesAfter := report.bytesAfter })
      (runAlone exec schedule.world
        (editTextFile project relative expected replacement uuid) 0 d).2.2 := by
  have hadmits : ∀ n, (schedule.world n).writable = schedule.writable := fun _ => rfl
  constructor
  · intro hunks
    have hwp : Wp (Single schedule.writable) () (applyTextPatch project relative hunks uuid)
        (fun report s => Patched project relative hunks d report s.1)
        (fun e s => e ≠ workspaceError "text_edit_parent_sync_failed" → s.1.node = d.node)
        (d, false) := wp_refuseIf (fun _ _ => rfl) (fun _ => wp_applyTextPatchPairs)
    obtain ⟨spent, hpost⟩ := wp_single hadmits schedule.single hwp
    revert hpost
    cases (runAlone exec schedule.world (applyTextPatch project relative hunks uuid) 0 d).1 with
    | ok report => exact id
    | error e => exact id
  · intro expected replacement
    have hwp : Wp (Single schedule.writable) ()
        (editTextFile project relative expected replacement uuid)
        (fun report s => Patched project relative
          [{ expected := expected, replacement := replacement }] d
          { hunksApplied := report.replacements
            bytesBefore := report.bytesBefore
            bytesAfter := report.bytesAfter } s.1)
        (fun e s => e ≠ workspaceError "text_edit_parent_sync_failed" → s.1.node = d.node)
        (d, false) :=
      wp_seq trivial wp_applyTextPatchPairs (fun _ _ _ h => wp_pure h) (fun _ _ _ h => h)
    obtain ⟨spent, hpost⟩ := wp_single hadmits schedule.single hwp
    revert hpost
    cases (runAlone exec schedule.world
      (editTextFile project relative expected replacement uuid) 0 d).1 with
    | ok report => exact id
    | error e => exact id

end VibeCoder.Workspace
