/-
  What a listing returns, whatever fails on the way.

  Any request of a run may fail; a run is `calm` when none does.

  1. **`Peeks`** — a program that leaves the disk as it is, proved exit by exit.
  2. **`Listed`** — an entry is what there is to tell of the file at a path.
  3. **`Walked`** — what a part of the walk adds: entries of files below it, each once, and, when the
     run is calm and the walk is not cut short, those of all files whose first name is one of its.
     Parts of a directory are put together by `Walked.trans`, a directory and its parent by
     `Walked.below`.
  4. **`peeks_walkProjectDir`** — induction on the levels, with an induction on the names in it.
-/
import VibeCoder.Checkpoint.DigestLaw
import VibeCoder.Workspace.Looking
import VibeCoder.Workspace.Search

namespace VibeCoder.Workspace

open Resume Files Checkpoint
open Digest (pathText toList_pathText)

/-! ## Programs that look -/

/-- One program; when the run is `calm` no request fails. -/
abbrev Asking (calm : Prop) := Setting.solo exec (fun w : World => calm → w.fails = false)

variable {α β : Type} {calm F : Prop} {d : Disk}

/-- The program leaves the disk as it is; it returns a value with `R`, or fails where `F` holds. -/
def Peeks (calm : Prop) (d : Disk) (F : Prop) (p : FileM α) (R : α → Prop) : Prop :=
  Wp (Asking calm) () p (fun a s => s = d ∧ R a) (fun _ s => s = d ∧ F) d

theorem peeks_pure {a : α} {R : α → Prop} (h : R a) : Peeks calm d F (pure a) R :=
  wp_pure ⟨rfl, h⟩

theorem peeks_throw {e : VibeCoderError} {R : α → Prop} (h : F) :
    Peeks calm d F (throw e : FileM α) R := wp_throw ⟨rfl, h⟩

theorem peeks_seq {p : FileM β} {f : β → FileM α} {R : β → Prop} {R' : α → Prop}
    (hp : Peeks calm d F p R) (hf : ∀ b, R b → Peeks calm d F (f b) R') :
    Peeks calm d F (p >>= f) R' := by
  refine wp_seq trivial hp (fun b s _ hs => ?_) (fun _ _ _ hs => hs)
  obtain ⟨rfl, hR⟩ := hs
  exact hf b hR

theorem Peeks.mono {p : FileM α} {F' : Prop} {R R' : α → Prop} (h : Peeks calm d F p R)
    (hF : F → F') (hR : ∀ a, R a → R' a) : Peeks calm d F' p R' :=
  Wp.mono trivial h (fun a _ _ hs => ⟨hs.1, hR a hs.2⟩) (fun _ _ _ hs => ⟨hs.1, hF hs.2⟩)

theorem peeks_refuseIf {c : Bool} {code : String} (h : c = true → F) :
    Peeks calm d F (refuseIf c code) (fun _ => c = false) := by
  refine wp_resume ?_
  cases c with
  | true => exact ⟨rfl, h rfl⟩
  | false => exact ⟨rfl, rfl⟩

/-- A part whose failure is looked at. -/
theorem peeks_settle {G : Prop} {p : FileM α} {R : α → Prop} (h : Peeks calm d F p R) :
    Peeks calm d G (settle p) (fun r => (∀ a, r = .ok a → R a) ∧ (∀ e, r = .error e → F)) := by
  refine wp_settle (Wp.mono trivial h (fun a s _ hs => ?_) (fun e s _ hs => ?_))
  · refine ⟨hs.1, fun b hb => ?_, fun e he => ?_⟩
    · cases hb
      exact hs.2
    · cases he
  · refine ⟨hs.1, fun b hb => ?_, fun _ _ => hs.2⟩
    cases hb

/-- One request that changes nothing. -/
theorem peeks_attempt {o : Op} {R : o.Val → Prop} (ho : o.quiet = true)
    (hR : ∀ w v, w.fails = false → (exec w o d).1 = .ok v → R v)
    (hF : ∀ w e, w.fails = false → (exec w o d).1 = .error e → F) (hcalm : ¬calm → F) :
    Peeks calm d F (attempt o) R := by
  refine wp_attempt trivial (fun w hw u hrely _ => ?_)
  have hu : (exec w o d).2 = u := hrely
  rw [← hu, exec_quiet ho]
  show Post _ _ (exec w o d).1 d
  cases hfails : w.fails with
  | true =>
    rw [exec_quiet_fails ho hfails]
    refine ⟨rfl, hcalm (fun h => ?_)⟩
    rw [hw h] at hfails
    cases hfails
  | false =>
    rcases hanswer : (exec w o d).1 with e | v
    · exact ⟨rfl, hF w e hfails hanswer⟩
    · exact ⟨rfl, hR w v hfails hanswer⟩

theorem peeks_io {o : Op} {code : String} {R : o.Val → Prop} (ho : o.quiet = true)
    (hR : ∀ w v, w.fails = false → (exec w o d).1 = .ok v → R v)
    (hF : ∀ w e, w.fails = false → (exec w o d).1 = .error e → F) (hcalm : ¬calm → F) :
    Peeks calm d F (io o code) R := by
  refine peeks_seq (peeks_settle (peeks_attempt ho hR hF hcalm)) (fun r hr => ?_)
  cases r with
  | error e => exact peeks_throw (hr.2 e rfl)
  | ok v => exact peeks_pure (hr.1 v rfl)

/-- What succeeds where nothing fails. -/
theorem peeks_surely : Surely d (fun p R => Peeks calm d (¬calm) p R) where
  ret := peeks_pure
  seq := peeks_seq
  ask := by
    intro o code R ho hanswer
    refine peeks_io ho (fun w v hw hv => ?_) (fun w e hw he => ?_) id
    · obtain ⟨u, hu, hR⟩ := hanswer w hw
      rw [hu] at hv
      cases hv
      exact hR
    · obtain ⟨u, hu, -⟩ := hanswer w hw
      rw [hu] at he
      cases he

/-- A request of which nothing is known. -/
theorem peeks_any {o : Op} {code : String} (ho : o.quiet = true) :
    Peeks calm d True (io o code) (fun _ => True) :=
  peeks_io ho (fun _ _ _ _ => trivial) (fun _ _ _ _ => trivial) (fun _ => trivial)

theorem peeks_check {c : Bool} {code : String} :
    Peeks calm d True (refuseIf c code) (fun _ => c = false) := peeks_refuseIf (fun _ => trivial)

/-! ## The project -/

/-- The project is where its id says. -/
structure ProjectThere (d : Disk) (project : ProjectRef) : Prop where
  root : project.root = expectedProjectRoot project.id
  dir : d.node (expectedProjectRoot project.id) = some .dir

theorem peeks_openExistingDirAt (p : Path) :
    Peeks calm d True (openExistingDirAt p) (fun _ => d.node p = some .dir) := by
  have hopen : Peeks calm d True (io (.openAt p) "project_path_parent_not_directory_or_symlink")
      (fun found => found = true → d.node p = some .dir) := by
    refine peeks_io rfl (fun w found hw hv hfound => ?_) (fun _ _ _ _ => trivial)
      (fun _ => trivial)
    simp only [exec, hw, Bool.false_eq_true, if_false] at hv
    split at hv
    · assumption
    · cases hv
      cases hfound
    · cases hv
  refine peeks_seq hopen (fun found hfound => peeks_check.mono id (fun _ hpass => hfound ?_))
  rwa [Bool.not_eq_false'] at hpass

/-- A project that passes its checks is there. -/
theorem peeks_openVerifiedProjectRoot {project : ProjectRef} :
    Peeks calm d True (openVerifiedProjectRoot project)
      (fun root => root = expectedProjectRoot project.id ∧ ProjectThere d project) := by
  have hverify : Peeks calm d True (verifyProject project)
      (fun _ => project.root = expectedProjectRoot project.id) := by
    refine peeks_seq peeks_check (fun _ hroot => ?_)
    rw [bne_eq_false_iff_eq] at hroot
    have hsymlink : ∀ p code, Peeks calm d True (rejectSymlinkIfPresent p code) (fun _ => True) :=
      fun p code => peeks_seq (peeks_any rfl) (fun _ _ => peeks_check.mono id (fun _ _ => trivial))
    have hcanonical : ∀ p code, Peeks calm d True (canonicalExistingDir p code) (fun _ => True) :=
      fun p code => peeks_seq (peeks_any rfl) (fun _ _ => peeks_seq peeks_check (fun _ _ =>
        peeks_any rfl))
    refine peeks_seq (hsymlink _ _) (fun _ _ => peeks_seq (hcanonical _ _) (fun _ _ => ?_))
    exact peeks_seq peeks_check (fun _ _ => peeks_pure hroot)
  refine peeks_seq hverify (fun _ hroot => ?_)
  refine peeks_seq (peeks_any rfl) (fun _ _ => ?_)
  refine peeks_seq (peeks_openExistingDirAt _) (fun _ _ => ?_)
  refine peeks_seq (peeks_openExistingDirAt _) (fun _ _ => ?_)
  refine peeks_seq (peeks_openExistingDirAt _) (fun _ hdir => ?_)
  refine peeks_seq (peeks_any rfl) (fun _ _ => ?_)
  refine peeks_seq peeks_check (fun _ _ => peeks_seq peeks_check (fun _ _ => ?_))
  refine peeks_seq (peeks_any rfl) (fun _ _ => peeks_seq peeks_check (fun _ _ => ?_))
  exact peeks_pure ⟨rfl, hroot, hdir⟩

/-! ## Entries -/

/-- What there is to tell of the file at `rel` below a directory. -/
structure Listed (d : Disk) (dir : Path) (pfx : String) (rel : Path) (e : ProjectFileEntry) :
    Prop where
  nonempty : rel ≠ []
  names : ∀ name ∈ rel, OrdinaryName name
  path : e.relativePath = pathText pfx rel
  short : len e.relativePath ≤ maxRelativePathBytes
  file : ∃ content, HoldsFile d (dir ++ rel) content e.ownerExecutable ∧
    e.sizeBytes = content.length

variable {dir rel : Path} {pfx name : String} {e e' : ProjectFileEntry}

/-- There is one thing to tell of a file. -/
theorem Listed.unique (h : Listed d dir pfx rel e) (h' : Listed d dir pfx rel e') : e = e' := by
  obtain ⟨content, hfile, hsize⟩ := h.file
  obtain ⟨content', hfile', hsize'⟩ := h'.file
  have hsame := hfile.symm.trans hfile'
  rw [Option.some.injEq, Node.leaf.injEq, Leaf.file.injEq] at hsame
  cases e with
  | mk path size executable =>
    cases e' with
    | mk path' size' executable' =>
      rw [ProjectFileEntry.mk.injEq]
      refine ⟨h.path.trans h'.path.symm, ?_, hsame.2.1⟩
      show size = size'
      rw [show size = _ from hsize, show size' = _ from hsize', hsame.1]

/-- The entry of a file in a directory below. -/
theorem Listed.below_iff (hname : OrdinaryName name)
    (hdir : d.node (dir ++ [name]) = some .dir) :
    Listed d dir pfx (name :: rel) e ↔ Listed d (dir ++ [name]) (relativePath pfx name) rel e := by
  have hpath : dir ++ name :: rel = dir ++ [name] ++ rel := by simp
  constructor
  · intro h
    refine ⟨?_, fun other hother => h.names other (List.mem_cons_of_mem _ hother), h.path, h.short,
      ?_⟩
    · -- a directory is no file
      rintro rfl
      obtain ⟨content, hfile, -⟩ := h.file
      rw [HoldsFile, hdir] at hfile
      cases hfile
    · rw [← hpath]
      exact h.file
  · intro h
    refine ⟨List.cons_ne_nil _ _, fun other hother => ?_, h.path, h.short, ?_⟩
    · rcases List.mem_cons.mp hother with rfl | hother
      · exact hname
      · exact h.names other hother
    · rw [hpath]
      exact h.file

/-- Below what is not a directory there is at most the file itself. -/
theorem Listed.leaf (h : Listed d dir pfx (name :: rel) e)
    (hdir : d.node (dir ++ [name]) ≠ some .dir) : rel = [] := by
  by_contra hrel
  obtain ⟨content, hfile, -⟩ := h.file
  have hnone := d.none_below hdir hrel
  rw [HoldsFile, show dir ++ name :: rel = dir ++ [name] ++ rel by simp, hnone] at hfile
  cases hfile

/-! ## What a part of the walk adds -/

/-- The first name of the path is one of these. -/
def First (P : String → Prop) (rel : Path) : Prop := ∃ name rest, rel = name :: rest ∧ P name

/-- The walk has come from `state` to `after` and has added these entries. -/
structure Adds (calm : Prop) (d : Disk) (dir : Path) (pfx : String) (P : String → Prop)
    (state after : WalkState) (added : List (Path × ProjectFileEntry)) : Prop where
  files : after.files = state.files ++ added.map Prod.snd
  truncated : state.truncated = true → after.truncated = true
  listed : ∀ x ∈ added, Listed d dir pfx x.1 x.2 ∧ First P x.1
  once : (added.map Prod.fst).Nodup
  complete : calm → after.truncated = false → ∀ rel e, Listed d dir pfx rel e → First P rel →
    (rel, e) ∈ added

def Walked (calm : Prop) (d : Disk) (dir : Path) (pfx : String) (P : String → Prop)
    (state after : WalkState) : Prop := ∃ added, Adds calm d dir pfx P state after added

variable {P Q : String → Prop} {state mid after : WalkState}

/-- Nothing to add, or the walk is cut short. -/
theorem walked_none (hfiles : after.files = state.files)
    (htruncated : state.truncated = true → after.truncated = true)
    (hnone : calm → after.truncated = false → ∀ rel e, Listed d dir pfx rel e → ¬First P rel) :
    Walked calm d dir pfx P state after := by
  refine ⟨[], ?_, htruncated, fun x hx => absurd hx List.not_mem_nil, List.nodup_nil, ?_⟩
  · rw [hfiles, List.map_nil, List.append_nil]
  · intro hcalm hcut rel e hlisted hfirst
    exact absurd hfirst (hnone hcalm hcut rel e hlisted)

/-- The walk is cut short. -/
theorem walked_cut (hfiles : after.files = state.files) (hcut : after.truncated = true) :
    Walked calm d dir pfx P state after := by
  refine walked_none hfiles (fun _ => hcut) (fun _ hno => ?_)
  rw [hcut] at hno
  cases hno

theorem Walked.truncated (h : Walked calm d dir pfx P state after)
    (hcut : state.truncated = true) : after.truncated = true := by
  obtain ⟨added, hadds⟩ := h
  exact hadds.truncated hcut

/-- What counts of the state before is its files and whether it is cut short. -/
theorem Walked.start {before : WalkState} (h : Walked calm d dir pfx P state after)
    (hfiles : state.files = before.files) (htruncated : state.truncated = before.truncated) :
    Walked calm d dir pfx P before after := by
  obtain ⟨added, hadds⟩ := h
  exact ⟨added, hfiles ▸ hadds.files, htruncated ▸ hadds.truncated, hadds.listed, hadds.once,
    hadds.complete⟩

/-- A walk that is cut short has added nothing else. -/
theorem Walked.cut (h : Walked calm d dir pfx P state after) (hcut : after.truncated = true)
    (hPQ : ∀ name, P name → Q name) : Walked calm d dir pfx Q state after := by
  obtain ⟨added, hadds⟩ := h
  refine ⟨added, hadds.files, hadds.truncated, fun x hx => ?_, hadds.once, ?_⟩
  · obtain ⟨hlisted, name, rest, hrel, hP⟩ := hadds.listed x hx
    exact ⟨hlisted, name, rest, hrel, hPQ name hP⟩
  · intro _ hno
    rw [hcut] at hno
    cases hno

/-- Other names with the same files. -/
theorem Walked.congr (h : Walked calm d dir pfx P state after)
    (hPQ : ∀ rel e, Listed d dir pfx rel e → (First P rel ↔ First Q rel)) :
    Walked calm d dir pfx Q state after := by
  obtain ⟨added, hadds⟩ := h
  refine ⟨added, hadds.files, hadds.truncated, fun x hx => ?_, hadds.once, ?_⟩
  · obtain ⟨hlisted, hfirst⟩ := hadds.listed x hx
    exact ⟨hlisted, (hPQ _ _ hlisted).mp hfirst⟩
  · intro hcalm hcut rel e hlisted hfirst
    exact hadds.complete hcalm hcut rel e hlisted ((hPQ _ _ hlisted).mpr hfirst)

/-- One part after another. -/
theorem Walked.trans (h : Walked calm d dir pfx P state mid)
    (h' : Walked calm d dir pfx Q mid after) (hapart : ∀ name, P name → ¬Q name) :
    Walked calm d dir pfx (fun name => P name ∨ Q name) state after := by
  obtain ⟨added, hadds⟩ := h
  obtain ⟨more, hmore⟩ := h'
  refine ⟨added ++ more, ?_, fun hcut => hmore.truncated (hadds.truncated hcut), ?_, ?_, ?_⟩
  · rw [hmore.files, hadds.files, List.map_append, List.append_assoc]
  · intro x hx
    rcases List.mem_append.mp hx with hx | hx
    · obtain ⟨hlisted, name, rest, hrel, hP⟩ := hadds.listed x hx
      exact ⟨hlisted, name, rest, hrel, .inl hP⟩
    · obtain ⟨hlisted, name, rest, hrel, hQ⟩ := hmore.listed x hx
      exact ⟨hlisted, name, rest, hrel, .inr hQ⟩
  · rw [List.map_append, List.nodup_append]
    refine ⟨hadds.once, hmore.once, ?_⟩
    rintro rel hrel other hother rfl
    obtain ⟨x, hx, rfl⟩ := List.mem_map.mp hrel
    obtain ⟨y, hy, hsame⟩ := List.mem_map.mp hother
    obtain ⟨-, name, rest, hfirst, hP⟩ := hadds.listed x hx
    obtain ⟨-, name', rest', hfirst', hQ⟩ := hmore.listed y hy
    rw [hsame, hfirst, List.cons.injEq] at hfirst'
    exact hapart name hP (hfirst'.1 ▸ hQ)
  · intro hcalm hcut rel e hlisted hfirst
    have hmid : mid.truncated = false := by
      cases hmid : mid.truncated with
      | false => rfl
      | true =>
        rw [hmore.truncated hmid] at hcut
        cases hcut
    obtain ⟨name, rest, hrel, hP | hQ⟩ := hfirst
    · exact List.mem_append_left _ (hadds.complete hcalm hmid rel e hlisted ⟨name, rest, hrel, hP⟩)
    · exact List.mem_append_right _ (hmore.complete hcalm hcut rel e hlisted ⟨name, rest, hrel, hQ⟩)

/-- The walk of a directory below. -/
theorem Walked.below (hname : OrdinaryName name) (hdir : d.node (dir ++ [name]) = some .dir)
    (h : Walked calm d (dir ++ [name]) (relativePath pfx name) (fun _ => True) state after) :
    Walked calm d dir pfx (· = name) state after := by
  obtain ⟨added, hadds⟩ := h
  refine ⟨added.map (fun x => (name :: x.1, x.2)), ?_, hadds.truncated, ?_, ?_, ?_⟩
  · rw [hadds.files, List.map_map]
    rfl
  · intro x hx
    obtain ⟨y, hy, rfl⟩ := List.mem_map.mp hx
    exact ⟨(Listed.below_iff hname hdir).mpr (hadds.listed y hy).1, name, y.1, rfl, rfl⟩
  · rw [List.map_map]
    have hcons : (Prod.fst ∘ fun x : Path × ProjectFileEntry => (name :: x.1, x.2)) =
        (List.cons name) ∘ Prod.fst := rfl
    rw [hcons, ← List.map_map]
    exact hadds.once.map List.cons_injective
  · rintro hcalm hcut rel e hlisted ⟨_, rest, rfl, rfl⟩
    have hbelow := (Listed.below_iff hname hdir).mp hlisted
    obtain ⟨other, more, hmore⟩ := List.exists_cons_of_ne_nil hbelow.nonempty
    exact List.mem_map.mpr ⟨(rest, e),
      hadds.complete hcalm hcut rest e hbelow ⟨other, more, hmore, trivial⟩, rfl⟩

/-! ## One entry -/

/-- No name on the disk has a slash in it. -/
def RealNames (d : Disk) : Prop :=
  ∀ dir name, d.node (dir ++ [name]) ≠ none → '/' ∉ name.toList

theorem listableName_iff : listableName name = true ↔ name ≠ "" ∧ len name ≤ maxComponentBytes ∧
    ∀ c ∈ name.toList, c ≠ '\\' ∧ isControl c = false := by
  unfold listableName
  rw [Bool.not_eq_true', Bool.or_eq_false_iff, Bool.or_eq_false_iff, Bool.or_eq_false_iff,
    decide_eq_false_iff_not, Nat.not_lt, hasControl, List.any_eq_false]
  constructor
  · rintro ⟨⟨⟨hempty, hshort⟩, hcontrol⟩, hslash⟩
    refine ⟨fun heq => ?_, hshort, fun c hc => ⟨?_, Bool.eq_false_iff.mpr (hcontrol c hc)⟩⟩
    · rw [heq] at hempty
      cases hempty
    · rintro rfl
      rw [List.contains_iff_mem.mpr hc] at hslash
      cases hslash
  · rintro ⟨hempty, hshort, hchars⟩
    refine ⟨⟨⟨?_, hshort⟩, fun c hc => ?_⟩, ?_⟩
    · exact Bool.eq_false_iff.mpr (fun h => hempty (String.isEmpty_iff.mp h))
    · rw [(hchars c hc).2]
      exact Bool.false_ne_true
    · exact Bool.eq_false_iff.mpr (fun h => (hchars _ (List.contains_iff_mem.mp h)).1 rfl)

/-- A name that is kept and is no temporary name is ordinary. -/
theorem ordinary_of_listable (hname : listableName name = true) (hdot : name ≠ ".")
    (hparent : name ≠ "..") (hslash : '/' ∉ name.toList)
    (htemp : startsWith name workspaceTempPrefix = false) : OrdinaryName name := by
  obtain ⟨hempty, hshort, hchars⟩ := listableName_iff.mp hname
  refine ⟨hempty, hdot, hparent, hshort, fun c hc => ⟨?_, hchars c hc⟩, htemp⟩
  rintro rfl
  exact hslash hc

theorem OrdinaryName.listable (h : OrdinaryName name) : listableName name = true :=
  listableName_iff.mpr ⟨h.nonempty, h.short, fun c hc => (h.chars c hc).2⟩

/-- What is listed begins with a name of the directory. -/
theorem Listed.first (h : Listed d dir pfx (name :: rel) e) : d.node (dir ++ [name]) ≠ none := by
  obtain ⟨content, hfile, -⟩ := h.file
  rw [HoldsFile, show dir ++ name :: rel = dir ++ [name] ++ rel by simp] at hfile
  by_cases hrel : rel = []
  · rw [hrel, List.append_nil] at hfile
    rw [hfile]
    exact Option.some_ne_none _
  · rw [d.dir_above hrel (by rw [hfile]; exact Option.some_ne_none _)]
    exact Option.some_ne_none _

/-- What is listed at a leaf. -/
theorem Listed.of_leaf {leaf : Leaf} (h : Listed d dir pfx rel e) (hfirst : First (· = name) rel)
    (hleaf : d.node (dir ++ [name]) = some (.leaf leaf)) :
    rel = [name] ∧ e.relativePath = relativePath pfx name ∧
      ∃ content, leaf = .file content e.ownerExecutable 1 ∧ e.sizeBytes = content.length := by
  obtain ⟨_, rest, rfl, rfl⟩ := hfirst
  have hrest : rest = [] := by
    refine h.leaf ?_
    rw [hleaf]
    intro heq
    cases heq
  subst hrest
  obtain ⟨content, hfile, hsize⟩ := h.file
  rw [HoldsFile, hleaf, Option.some.injEq, Node.leaf.injEq] at hfile
  exact ⟨rfl, h.path, content, hfile, hsize⟩

/-- An entry is dealt with; where the loop returns the walk is cut short. -/
def Visits (calm : Prop) (d : Disk) (dir : Path) (pfx name : String) (state : WalkState)
    (r : WalkState × Bool) : Prop :=
  Walked calm d dir pfx (· = name) state r.1 ∧ (r.2 = true → r.1.truncated = true)

/-- The directories below are walked. -/
def ChildWalks (calm : Prop) (d : Disk)
    (child : Option (Path → String → WalkState → FileM WalkState)) : Prop :=
  ∀ walk, child = some walk → ∀ dir pfx state,
    Peeks calm d True (walk dir pfx state) (Walked calm d dir pfx (fun _ => True) state)

variable {child : Option (Path → String → WalkState → FileM WalkState)}

/-- A file is pushed. -/
theorem walked_push {content : List UInt8} {executable : Bool} (hname : OrdinaryName name)
    (hshort : len (relativePath pfx name) ≤ maxRelativePathBytes)
    (hfile : HoldsFile d (dir ++ [name]) content executable) :
    Walked calm d dir pfx (· = name) state
      (state.push ⟨relativePath pfx name, content.length, executable⟩) := by
  have hlisted : Listed d dir pfx [name] ⟨relativePath pfx name, content.length, executable⟩ := by
    refine ⟨List.cons_ne_nil _ _, fun other hother => ?_, rfl, hshort, content, hfile, rfl⟩
    rw [List.mem_singleton.mp hother]
    exact hname
  refine ⟨[([name], ⟨relativePath pfx name, content.length, executable⟩)], rfl, id, ?_,
    List.nodup_singleton _, ?_⟩
  · intro x hx
    rw [List.mem_singleton.mp hx]
    exact ⟨hlisted, name, [], rfl, rfl⟩
  · intro _ _ rel e h hfirst
    obtain ⟨rfl, -⟩ := h.of_leaf hfirst hfile
    rw [h.unique hlisted]
    exact List.mem_singleton_self _

/-- A leaf that is no file with one name is passed over. -/
theorem walked_passed {leaf : Leaf} (hleaf : d.node (dir ++ [name]) = some (.leaf leaf))
    (hno : ∀ content executable, leaf ≠ .file content executable 1) (n : Nat) :
    Walked calm d dir pfx (· = name) state (state.skip n) := by
  refine walked_none rfl id (fun _ _ rel e h hfirst => ?_)
  obtain ⟨-, -, content, hfile, -⟩ := h.of_leaf hfirst hleaf
  exact hno _ _ hfile

theorem peeks_walkFound (hchild : ChildWalks calm d child) (hname : OrdinaryName name)
    (hshort : len (relativePath pfx name) ≤ maxRelativePathBytes) {x : Node Leaf}
    (hx : d.node (dir ++ [name]) = some x) :
    Peeks calm d True (walkFound child (dir ++ [name]) (relativePath pfx name) state (Stat.of x))
      (Visits calm d dir pfx name state) := by
  cases x with
  | dir =>
    cases child with
    | none => exact peeks_pure ⟨walked_cut rfl rfl, fun h => by cases h⟩
    | some walk =>
      have hopen : Peeks calm d True (attempt (Workspace.Op.openAt (dir ++ [name])) : FileM Bool)
          (fun _ => True) :=
        peeks_attempt rfl (fun _ _ _ _ => trivial) (fun _ _ _ _ => trivial) (fun _ => trivial)
      refine peeks_seq (peeks_settle hopen) (fun r _ => ?_)
      match r with
      | .ok true =>
        refine peeks_seq (hchild walk rfl _ _ _) (fun after hafter => peeks_pure ?_)
        exact ⟨Walked.below hname hx hafter, id⟩
      | .ok false => exact peeks_pure ⟨walked_cut rfl rfl, fun h => by cases h⟩
      | .error _ => exact peeks_pure ⟨walked_cut rfl rfl, fun h => by cases h⟩
  | leaf leaf =>
    cases leaf with
    | symlink =>
      exact peeks_pure ⟨walked_passed hx (fun _ _ h => by cases h) 1, fun h => by cases h⟩
    | special =>
      exact peeks_pure ⟨walked_passed hx (fun _ _ h => by cases h) 1, fun h => by cases h⟩
    | file content executable links =>
      show Peeks calm d True (if links ≠ 1 then _ else _) _
      by_cases hlinks : links = 1
      · subst hlinks
        rw [if_neg (fun h => h rfl)]
        split
        · exact peeks_pure ⟨walked_cut rfl rfl, fun _ => rfl⟩
        · exact peeks_pure ⟨walked_push hname hshort hx, fun h => by cases h⟩
      · rw [if_pos hlinks]
        refine peeks_pure ⟨walked_passed hx (fun _ _ h => hlinks ?_) 1, fun h => by cases h⟩
        rw [Leaf.file.injEq] at h
        exact h.2.2

theorem peeks_statEntryNofollow {p : Path} (h : d.node p ≠ none) :
    Peeks calm d (¬calm) (statEntryNofollow p) (fun stat => ∃ x, d.node p = some x ∧
      stat = Stat.of x) := by
  obtain ⟨x, hx⟩ := Option.ne_none_iff_exists'.mp h
  have hask : Peeks calm d (¬calm) (io (.statAt p) "project_list_entry_stat_failed")
      (fun found => ∃ writable, found = some (Stat.of x, writable)) := by
    refine peeks_surely.ask rfl (fun w hw => ⟨_, ?_, w.writable, rfl⟩)
    simp only [exec, hw, Bool.false_eq_true, if_false, hx]
    rfl
  refine peeks_seq hask (fun found hfound => ?_)
  obtain ⟨writable, rfl⟩ := hfound
  exact peeks_pure ⟨x, hx, rfl⟩

theorem peeks_walkEntry (hchild : ChildWalks calm d child) (hnode : d.node (dir ++ [name]) ≠ none)
    (hname : startsWith name workspaceTempPrefix = false → OrdinaryName name) :
    Peeks calm d True (walkEntry child dir pfx name state) (Visits calm d dir pfx name state) := by
  unfold walkEntry
  split
  · exact peeks_pure ⟨walked_cut rfl rfl, fun _ => rfl⟩
  split
  · -- no file is listed under a temporary name
    rename_i htemp
    refine peeks_pure ⟨walked_none rfl id (fun _ _ rel e h hfirst => ?_), fun h => by cases h⟩
    obtain ⟨_, rest, rfl, rfl⟩ := hfirst
    rw [(h.names _ List.mem_cons_self).not_temp] at htemp
    cases htemp
  rename_i htemp
  refine peeks_seq (peeks_settle (peeks_statEntryNofollow hnode)) (fun r hr => ?_)
  cases r with
  | error e =>
    refine peeks_pure ⟨walked_none rfl id (fun hcalm _ => ?_), fun h => by cases h⟩
    exact absurd hcalm (hr.2 e rfl)
  | ok stat =>
    obtain ⟨x, hx, rfl⟩ := hr.1 stat rfl
    show Peeks calm d True (if _ then _ else _) _
    split
    · rename_i hlong
      refine peeks_pure ⟨?_, fun h => by cases h⟩
      cases x with
      | dir => exact walked_cut rfl rfl
      | leaf leaf =>
        have hleaf : Stat.of (.leaf leaf) ≠ .dir := by
          cases leaf with
          | _ => exact fun h => by cases h
        rw [if_neg hleaf]
        refine walked_none rfl id (fun _ _ rel e h hfirst => ?_)
        obtain ⟨-, hpath, -⟩ := h.of_leaf hfirst hx
        have hshort := h.short
        rw [hpath] at hshort
        exact absurd hshort (Nat.not_le.mpr hlong)
    · rename_i hlong
      refine (peeks_walkFound hchild (hname (Bool.eq_false_iff.mpr htemp)) (Nat.not_lt.mp hlong)
        hx).mono id (fun r hr => ?_)
      exact ⟨hr.1.start rfl rfl, hr.2⟩

/-! ## The walk -/

/-- The loop, by induction on the names; the names before and after one are apart. -/
theorem peeks_walkEach {body : String → WalkState → FileM (WalkState × Bool)}
    {names : List String} (hnames : names.Nodup)
    (hbody : ∀ name ∈ names, ∀ state,
      Peeks calm d True (body name state) (Visits calm d dir pfx name state)) :
    Peeks calm d True (walkEach body names state)
      (Walked calm d dir pfx (· ∈ names) state) := by
  induction names generalizing state with
  | nil =>
    refine peeks_pure (walked_none rfl id (fun _ _ rel e _ hfirst => ?_))
    obtain ⟨name, rest, -, hmem⟩ := hfirst
    exact absurd hmem List.not_mem_nil
  | cons name names ih =>
    obtain ⟨hnew, hnames⟩ := List.nodup_cons.mp hnames
    refine peeks_seq (hbody name List.mem_cons_self state) (fun r hr => ?_)
    obtain ⟨after, returns⟩ := r
    obtain ⟨hwalked, hreturns⟩ := hr
    cases returns with
    | true =>
      refine peeks_pure (hwalked.cut (hreturns rfl) (fun other hother => ?_))
      rw [hother]
      exact List.mem_cons_self
    | false =>
      have hrest : Peeks calm d True (walkEach body names after)
          (Walked calm d dir pfx (· ∈ names) after) :=
        ih hnames (fun other hother => hbody other (List.mem_cons_of_mem _ hother))
      refine hrest.mono id (fun last hlast => ?_)
      have hboth := hwalked.trans hlast (fun other hother hmem => hnew (hother ▸ hmem))
      refine hboth.congr (fun rel _ _ => ?_)
      simp only [First, List.mem_cons]

theorem peeks_readDirNames {foreign : Path → Nat} :
    Peeks calm d True (readDirNames foreign dir) (fun found => found.1.Nodup ∧
      ∀ name, name ∈ found.1 ↔ d.node (dir ++ [name]) ≠ none ∧ name ≠ "." ∧ name ≠ ".." ∧
        listableName name = true) := by
  have hread : Peeks calm d True (diskIo (.readDir dir) "project_list_readdir_failed")
      (fun raw => raw = d.names dir) := by
    refine peeks_io rfl (fun w raw hw hraw => ?_) (fun _ _ _ _ => trivial) (fun _ => trivial)
    simp only [exec, Disk.exec, hw, Bool.false_and, Bool.false_eq_true, if_false,
      Disk.perform] at hraw
    split at hraw
    · exact (Except.ok.inj hraw).symm
    · cases hraw
  refine peeks_seq (peeks_any rfl) (fun _ _ => peeks_seq (peeks_any rfl) (fun _ _ => ?_))
  refine peeks_seq hread (fun raw hraw => peeks_pure ⟨?_, fun name => ?_⟩)
  · rw [(List.perm_insertionSort _ _).nodup_iff, hraw]
    exact ((d.nodup_names dir).filter _).filter _
  · rw [List.mem_insertionSort, List.mem_filter, List.mem_filter, hraw, FileTree.mem_names,
      Bool.and_eq_true, bne_iff_ne, bne_iff_ne]
    constructor
    · rintro ⟨⟨hnode, hdot, hparent⟩, hlistable⟩
      exact ⟨hnode, hdot, hparent, hlistable⟩
    · rintro ⟨hnode, hdot, hparent, hlistable⟩
      exact ⟨⟨hnode, hdot, hparent⟩, hlistable⟩

/-- One directory: its names are all that a file below it can begin with. -/
theorem peeks_walkDir (hd : RealNames d) (hchild : ChildWalks calm d child)
    {foreign : Path → Nat} :
    Peeks calm d True (walkDir foreign child dir pfx state)
      (Walked calm d dir pfx (fun _ => True) state) := by
  unfold walkDir
  split
  · rename_i hcut
    exact peeks_pure (walked_cut rfl hcut)
  refine peeks_seq peeks_readDirNames (fun found hfound => ?_)
  obtain ⟨names, skippedNames⟩ := found
  obtain ⟨hnodup, hmem⟩ := hfound
  have hbody : ∀ name ∈ names, ∀ state, Peeks calm d True (walkEntry child dir pfx name state)
      (Visits calm d dir pfx name state) := by
    intro name hname state
    obtain ⟨hnode, hdot, hparent, hlistable⟩ := (hmem name).mp hname
    exact peeks_walkEntry hchild hnode
      (ordinary_of_listable hlistable hdot hparent (hd dir name hnode))
  refine (peeks_walkEach hnodup hbody).mono id (fun after hafter => ?_)
  have hstart : Walked calm d dir pfx (· ∈ names) state after := hafter.start rfl rfl
  refine hstart.congr (fun rel e h => ?_)
  constructor
  · rintro ⟨name, rest, hrel, -⟩
    exact ⟨name, rest, hrel, trivial⟩
  · rintro ⟨name, rest, rfl, -⟩
    have hname := h.names name List.mem_cons_self
    exact ⟨name, rest, rfl, (hmem name).mpr ⟨h.first, hname.not_dot, hname.not_parent,
      hname.listable⟩⟩

/-- **The walk**, by induction on the levels. -/
theorem peeks_walkProjectDir (hd : RealNames d) {foreign : Path → Nat} {levels : Nat} :
    Peeks calm d True (walkProjectDir foreign levels dir pfx state)
      (Walked calm d dir pfx (fun _ => True) state) := by
  induction levels generalizing dir pfx state with
  | zero =>
    refine peeks_walkDir hd (fun walk hwalk => ?_)
    cases hwalk
  | succ levels ih =>
    refine peeks_walkDir hd (fun walk hwalk dir pfx state => ?_)
    cases hwalk
    exact ih

/-! ## The listing -/

/-- The path of a listed file is its names joined. -/
theorem pathText_join (hrel : rel ≠ []) (h : ∀ name ∈ rel, OrdinaryName name) :
    pathText "" rel = "/".intercalate rel := by
  obtain ⟨name, rest, rfl⟩ := List.exists_cons_of_ne_nil hrel
  have hname : name.isEmpty = false :=
    Bool.eq_false_iff.mpr (fun hp => (h name List.mem_cons_self).nonempty (String.isEmpty_iff.mp hp))
  refine String.toList_injective ?_
  rw [pathText, show relativePath "" name = name from rfl, toList_pathText hname,
    String.toList_intercalate, List.map_cons]
  rfl

theorem Listed.join (h : Listed d dir "" rel e) : e.relativePath = "/".intercalate rel :=
  h.path.trans (pathText_join h.nonempty h.names)

/-- **The validator accepts the path** and reads the names of the file in it. -/
theorem Listed.accepted (h : Listed d dir "" rel e) :
    validateRelativePath e.relativePath = .ok rel := by
  rw [h.join]
  exact validateRelativePath_join h.nonempty h.names (h.join ▸ h.short)

/-- A path is listed for one file. -/
theorem Listed.rel_unique {rel' : Path} (h : Listed d dir "" rel e) (h' : Listed d dir "" rel' e')
    (hpath : e.relativePath = e'.relativePath) : rel = rel' := by
  have hsame := h.accepted
  rw [hpath, h'.accepted] at hsame
  exact (Except.ok.inj hsame).symm

/-- What a listing says of the project. -/
structure Listing (calm : Prop) (d : Disk) (project : ProjectRef) (listing : ProjectFileList) :
    Prop where
  there : ProjectThere d project
  sorted : listing.files.Pairwise (fun a b => a.relativePath < b.relativePath)
  listed : ∀ e ∈ listing.files, ∃ names, Listed d (expectedProjectRoot project.id) "" names e
  complete : calm → listing.truncated = false → ∀ names e,
    Listed d (expectedProjectRoot project.id) "" names e → e ∈ listing.files

/-- What the walk has added, in the order of the paths. -/
theorem Adds.listing {project : ProjectRef} {added : List (Path × ProjectFileEntry)}
    (hthere : ProjectThere d project) (hstate : state.files = [])
    (h : Adds calm d (expectedProjectRoot project.id) "" (fun _ => True) state after added) :
    Listing calm d project {
      files := after.files.insertionSort (fun a b => a.relativePath ≤ b.relativePath)
      skippedEntries := after.skipped
      truncated := after.truncated } := by
  have hfiles : after.files = added.map Prod.snd := by
    rw [h.files, hstate, List.nil_append]
  have hperm := List.perm_insertionSort
    (fun a b : ProjectFileEntry => a.relativePath ≤ b.relativePath) after.files
  refine ⟨hthere, ?_, fun e he => ?_, fun hcalm hcut names e he => ?_⟩
  · -- in order, and no path twice
    have htotal : Std.Total (fun a b : ProjectFileEntry => a.relativePath ≤ b.relativePath) :=
      ⟨fun a b => Std.Total.total a.relativePath b.relativePath⟩
    have htrans : IsTrans ProjectFileEntry (fun a b => a.relativePath ≤ b.relativePath) :=
      ⟨fun a b c hab hbc => le_trans hab hbc⟩
    have hsorted := List.pairwise_insertionSort
      (fun a b : ProjectFileEntry => a.relativePath ≤ b.relativePath) after.files
    have hdistinct : (after.files.insertionSort
        (fun a b => a.relativePath ≤ b.relativePath)).Pairwise
        (fun a b => a.relativePath ≠ b.relativePath) := by
      refine (hperm.pairwise_iff (fun hne => Ne.symm hne)).mpr ?_
      rw [hfiles, List.pairwise_map]
      refine (List.pairwise_map.mp h.once).imp_of_mem (fun {x y} hx hy hne hpath => hne ?_)
      exact (h.listed x hx).1.rel_unique (h.listed y hy).1 hpath
    exact (hsorted.and hdistinct).imp (fun hboth => lt_of_le_of_ne hboth.1 hboth.2)
  · rw [List.mem_insertionSort, hfiles] at he
    obtain ⟨x, hx, rfl⟩ := List.mem_map.mp he
    exact ⟨x.1, (h.listed x hx).1⟩
  · obtain ⟨name, rest, hrel⟩ := List.exists_cons_of_ne_nil he.nonempty
    rw [List.mem_insertionSort, hfiles]
    exact List.mem_map.mpr
      ⟨(names, e), h.complete hcalm hcut names e he ⟨name, rest, hrel, trivial⟩, rfl⟩

theorem peeks_listProjectFiles (hd : RealNames d) {foreign : Path → Nat} {project : ProjectRef}
    {maxEntries : Nat} :
    Peeks calm d True (listProjectFiles foreign project maxEntries) (Listing calm d project) := by
  refine peeks_seq peeks_check (fun _ _ => ?_)
  refine peeks_seq peeks_openVerifiedProjectRoot (fun root hroot => ?_)
  obtain ⟨rfl, hthere⟩ := hroot
  refine peeks_seq (peeks_walkProjectDir hd) (fun after hafter => ?_)
  obtain ⟨added, hadds⟩ := hafter
  exact peeks_pure (hadds.listing hthere rfl)

end VibeCoder.Workspace
