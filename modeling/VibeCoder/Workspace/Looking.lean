/-
  The parts of a file operation that only look, with one failing request.

  A run has any one of its requests fail (`Schedule`).  The mark of `spending` says whether that
  has been, and `Looks` proves a part in one of two ways: an error says nothing (`Anyhow`), as
  before anything has changed, or it says that the failure has been (`Broken`), as where
  something is left to clean up.

  1. **`wp_io`** — one request: what it does without a failure, and what a failure leaves.
  2. **`Surely`** — the rules of a judgement about programs that look, for requests which fail only
     when the surroundings let them.
  3. **`Surely.readToEnd`** — the loop of `read_to_end` returns the content, by induction on the fuel;
     what has been read is the front of the content.
  4. **`looks_openParent`** — the directory and the name put together are the path that was asked for.
-/
import VibeCoder.Lib.SingleFault
import VibeCoder.Workspace.Files

namespace VibeCoder.Workspace

open Resume Files Checkpoint

/-! ## One failure -/

/-- The failing request, if there is one, and what else the surroundings decide. -/
structure Schedule where
  fault : Option Nat
  readLimit : Nat → Nat
  /-- How much of a write that fails is there, and what is kept of a removal that does. -/
  written : Nat
  kept : Path → Bool
  /-- Whether the owner may write the file. -/
  writable : Bool

/-- The surroundings of each request. -/
def Schedule.world (schedule : Schedule) (n : Nat) : World :=
  { fails := schedule.fault == some n
    readLimit := schedule.readLimit n
    written := schedule.written
    kept := if schedule.fault = some n then some schedule.kept else none
    writable := schedule.writable }

/-- The request fails. -/
def World.faulty (w : World) : Bool := w.fails || w.kept.isSome

/-- The same surroundings without the failure. -/
def World.still (w : World) : World := { w with fails := false, kept := none }

theorem Schedule.faulty_iff {schedule : Schedule} {n : Nat} :
    (schedule.world n).faulty = true ↔ schedule.fault = some n := by
  unfold Schedule.world World.faulty
  by_cases h : schedule.fault = some n
  · simp [h]
  · simp [h]

theorem Schedule.single (schedule : Schedule) : SingleFault World.faulty schedule.world := by
  intro m n hm hn
  have hsame := (Schedule.faulty_iff.mp hm).symm.trans (Schedule.faulty_iff.mp hn)
  exact Option.some.inj hsame

/-- One program, one failure, and an owner who may or may not write. -/
abbrev Single (writable : Bool) :=
  Setting.solo (spending World.faulty World.still exec) (fun w => w.writable = writable)

/-- The surroundings without a failure. -/
structure Still (writable : Bool) (w : World) : Prop where
  fails : w.fails = false
  kept : w.kept = none
  writable : w.writable = writable

variable {α β : Type} {writable : Bool} {d t : Disk}

/-- What comes to pass is a failure that is marked, or no failure. -/
theorem outside_cases {w : World} (hw : w.writable = writable) (spent : Bool) :
    (spent || w.faulty) = true ∨
      (spent || w.faulty) = spent ∧ Still writable (afterFault World.faulty World.still spent w) := by
  unfold afterFault
  by_cases hfault : w.faulty = true
  · exact .inl (by rw [hfault, Bool.or_true])
  · right
    have hno := Bool.eq_false_iff.mpr hfault
    have hparts : w.fails = false ∧ w.kept = none := by
      unfold World.faulty at hno
      rw [Bool.or_eq_false_iff, Option.isSome_eq_false_iff, Option.isNone_iff_eq_none] at hno
      exact hno
    rw [hno, Bool.or_false, Bool.false_and]
    exact ⟨rfl, hparts.1, hparts.2, hw⟩

/-- Where a failure is marked there is none any more. -/
theorem outside_spent {w : World} (hw : w.writable = writable) :
    Still writable (afterFault World.faulty World.still true w) := by
  unfold afterFault
  rw [Bool.and_true]
  by_cases hfault : w.faulty = true
  · rw [if_pos hfault]
    exact ⟨rfl, rfl, hw⟩
  · rw [if_neg hfault]
    unfold World.faulty at hfault
    rw [Bool.not_eq_true, Bool.or_eq_false_iff, Option.isSome_eq_false_iff,
      Option.isNone_iff_eq_none] at hfault
    exact ⟨hfault.1, hfault.2, hw⟩

/-! ## Requests -/

/-- One request: what it does without a failure, and what a failure leaves. -/
theorem wp_io {o : Op} {code : String} {spent : Bool} {Q : o.Val → Disk × Bool → Prop}
    {E : VibeCoderError → Disk × Bool → Prop}
    (hstill : ∀ w, Still writable w →
      Post (fun v u => Q v (u, spent)) (fun _ u => E (workspaceError code) (u, spent))
        (exec w o d).1 (exec w o d).2)
    (hfault : ∀ w, w.writable = writable →
      Post (fun v u => Q v (u, true)) (fun _ u => E (workspaceError code) (u, true))
        (exec w o d).1 (exec w o d).2) :
    Wp (Single writable) () (io o code) Q E (d, spent) := by
  refine wp_bind (wp_settle (wp_attempt trivial (fun w hw u hrely _ => ?_)))
  have hu : (spending World.faulty World.still exec w o (d, spent)).2 = u := hrely
  rw [← hu]
  show Post _ _ (exec (afterFault World.faulty World.still spent w) o d).1
    ((exec (afterFault World.faulty World.still spent w) o d).2, spent || w.faulty)
  have hwritable : (afterFault World.faulty World.still spent w).writable = writable := by
    unfold afterFault
    split
    · exact hw
    · exact hw
  have hpost : Post (fun v u => Q v (u, spent || w.faulty))
      (fun _ u => E (workspaceError code) (u, spent || w.faulty))
      (exec (afterFault World.faulty World.still spent w) o d).1
      (exec (afterFault World.faulty World.still spent w) o d).2 := by
    rcases outside_cases hw spent with hmark | ⟨hmark, hcalm⟩
    · rw [hmark]
      exact hfault _ hwritable
    · rw [hmark]
      exact hstill _ hcalm
  revert hpost
  cases (exec (afterFault World.faulty World.still spent w) o d).1 with
  | error e => exact fun hpost => wp_throw hpost
  | ok v => exact fun hpost => wp_pure hpost

/-- A request of the stores that is no removal and succeeds unless the failure hits it. -/
theorem wp_performed {o : Checkpoint.Op} {code : String} {spent : Bool} {u : Disk} {v : o.Val}
    {Q : o.Val → Disk × Bool → Prop} {E : VibeCoderError → Disk × Bool → Prop}
    (ho : o.removal = false) (hperform : ∀ w, d.perform w o = (.ok v, u))
    (hQ : ∀ mark, Q v (u, mark))
    (hE : ∀ w, E (workspaceError code) (d.afterFailure w o, true)) :
    Wp (Single writable) () (diskIo o code) Q E (d, spent) := by
  refine wp_io (fun w hw => ?_) (fun w _ => ?_)
  · simp only [exec, Disk.exec, hw.fails, Bool.false_and, Bool.false_eq_true, if_false, hperform]
    exact hQ spent
  · simp only [exec, Disk.exec, ho, Bool.not_false, Bool.and_true]
    split
    · exact hE w.toWorld
    · rw [hperform]
      exact hQ true

theorem wp_refuseIf {c : Bool} {code : String} {f : Unit → FileM α} {s : Disk × Bool}
    {Q : α → Disk × Bool → Prop} {E : VibeCoderError → Disk × Bool → Prop}
    (htrue : c = true → E (workspaceError code) s)
    (hfalse : c = false → Wp (Single writable) () (f ()) Q E s) :
    Wp (Single writable) () (refuseIf c code >>= f) Q E s := by
  refine wp_bind (wp_resume ?_)
  cases c with
  | true => exact htrue rfl
  | false => exact hfalse rfl

/-! ## Looking -/

/-- The part leaves the disk as it is; it returns a value with `R`, or an error after which the
    mark satisfies `E`. -/
def Looks (writable : Bool) (E : Bool → Prop) (d : Disk) (p : FileM α) (R : α → Prop) : Prop :=
  ∀ spent, Wp (Single writable) () p (fun a s => s.1 = d ∧ R a) (fun _ s => s.1 = d ∧ E s.2)
    (d, spent)

/-- An error says nothing. -/
def Anyhow : Bool → Prop := fun _ => True

/-- An error says that the failure has been. -/
def Broken : Bool → Prop := fun spent => spent = true

variable {E : Bool → Prop}

theorem looks_bind {p : FileM β} {f : β → FileM α} {R : β → Prop} {R' : α → Prop}
    (hp : Looks writable E d p R) (hf : ∀ b, R b → Looks writable E d (f b) R') :
    Looks writable E d (p >>= f) R' := by
  intro spent
  refine wp_seq trivial (hp spent) (fun b s _ hs => ?_) (fun _ _ _ hs => hs)
  obtain ⟨u, mark⟩ := s
  obtain ⟨rfl, hR⟩ : u = d ∧ R b := hs
  exact hf b hR mark

theorem looks_pure {a : α} {R : α → Prop} (h : R a) : Looks writable E d (pure a) R :=
  fun _ => wp_pure ⟨rfl, h⟩

theorem looks_resume {r : Result α} : Looks writable Anyhow d (resume r) (fun a => r = .ok a) := by
  intro spent
  refine wp_resume ?_
  cases r with
  | ok a => exact ⟨rfl, rfl⟩
  | error e => exact ⟨rfl, trivial⟩

theorem looks_refuseIf {c : Bool} {code : String} :
    Looks writable Anyhow d (refuseIf c code) (fun _ => c = false) := by
  intro spent
  refine wp_resume ?_
  cases c with
  | true => exact ⟨rfl, trivial⟩
  | false => exact ⟨rfl, rfl⟩

/-- A check that passes. -/
theorem looks_pass {c : Bool} {code : String} (h : c = false) :
    Looks writable E d (refuseIf c code) (fun _ => True) := by
  subst h
  exact fun _ => wp_resume ⟨rfl, trivial⟩

theorem Looks.mono {p : FileM α} {R R' : α → Prop} (h : Looks writable E d p R)
    (hR : ∀ a, R a → R' a) : Looks writable E d p R' :=
  fun spent => Wp.mono trivial (h spent) (fun a _ _ hs => ⟨hs.1, hR a hs.2⟩) (fun _ _ _ hs => hs)

theorem Looks.forget {p : FileM α} {R : α → Prop} (h : Looks writable E d p R) :
    Looks writable E d p (fun _ => True) := h.mono (fun _ _ => trivial)

theorem Looks.anyhow {p : FileM α} {R : α → Prop} (h : Looks writable E d p R) :
    Looks writable Anyhow d p R :=
  fun spent => Wp.mono trivial (h spent) (fun _ _ _ hs => hs) (fun _ _ _ hs => ⟨hs.1, trivial⟩)

/-- The requests that change nothing. -/
def Op.quiet : Op → Bool
  | .disk (.lstat _) | .disk (.exists _) | .disk (.metadata _) | .disk (.canonicalize _)
  | .disk (.openDir _) | .disk (.readDir _) | .disk (.openFile _) | .disk (.statFile _)
  | .disk (.read _ _ _) | .disk (.setMode _) | .disk (.syncFile _) | .disk (.syncDir _)
  | .openAt _ | .statAt _ => true
  | .disk _ | .removeDir _ => false

theorem exec_quiet {o : Op} (ho : o.quiet = true) (w : World) : (exec w o d).2 = d := by
  cases o with
  | disk o =>
    show (Disk.exec w.toWorld o d).2 = d
    unfold Disk.exec
    split
    · cases o with
      | writeAll p name bytes => cases ho
      | _ => rfl
    · cases o with
      | createDir p name => cases ho
      | createFile p name executable => cases ho
      | writeAll p name bytes => cases ho
      | rename p a b => cases ho
      | exchange p a b => cases ho
      | removeFile p => cases ho
      | removeDirAll p => cases ho
      | _ => rfl
  | openAt p =>
    simp only [exec]
    split
    · rfl
    · split
      · rfl
      · rfl
      · rfl
  | statAt p =>
    simp only [exec]
    split
    · rfl
    · rfl
  | removeDir p => cases ho

/-- A request that changes nothing. -/
theorem looks_io {o : Op} {code : String} (ho : o.quiet = true) :
    Looks writable Anyhow d (io o code)
      (fun v => ∃ w, w.writable = writable ∧ (exec w o d).1 = .ok v) := by
  intro spent
  have hboth : ∀ w, w.writable = writable → ∀ mark,
      Post (fun v u => u = d ∧ ∃ w, w.writable = writable ∧ (exec w o d).1 = .ok v)
        (fun _ u => u = d ∧ Anyhow mark) (exec w o d).1 (exec w o d).2 := by
    intro w hw mark
    rcases hanswer : (exec w o d).1 with e | v
    · exact ⟨exec_quiet ho w, trivial⟩
    · exact ⟨exec_quiet ho w, w, hw, hanswer⟩
  exact wp_io (fun w hw => hboth w hw.writable spent) (fun w hw => hboth w hw true)

/-- A request that changes nothing and succeeds where nothing fails. -/
theorem looks_sure {o : Op} {code : String} {R : o.Val → Prop} (ho : o.quiet = true)
    (hanswer : ∀ w, w.writable = writable → ∀ v, (exec w o d).1 = .ok v → R v)
    (hstill : ∀ w, Still writable w → ∃ v, (exec w o d).1 = .ok v) :
    Looks writable Broken d (io o code) R := by
  intro spent
  refine wp_io (fun w hw => ?_) (fun w hw => ?_)
  · obtain ⟨v, hv⟩ := hstill w hw
    rw [hv]
    exact ⟨exec_quiet ho w, hanswer w hw.writable v hv⟩
  · rcases hv : (exec w o d).1 with e | v
    · exact ⟨exec_quiet ho w, rfl⟩
    · exact ⟨exec_quiet ho w, hanswer w hw v hv⟩

/-- A request of the stores that changes nothing and has one answer. -/
theorem looks_performed {o : Checkpoint.Op} {code : String} {v : o.Val}
    (ho : (Op.disk o).quiet = true) (hperform : ∀ w, (d.perform w o).1 = .ok v) :
    Looks writable Broken d (diskIo o code) (· = v) := by
  refine looks_sure ho (fun w _ x hx => ?_) (fun w hw => ⟨v, ?_⟩)
  · simp only [exec, Disk.exec] at hx
    split at hx
    · cases hx
    · rw [hperform] at hx
      exact (Except.ok.inj hx).symm
  · simp only [exec, Disk.exec, hw.fails, Bool.false_and, Bool.false_eq_true, if_false]
    exact hperform _

/-! ## Requests that fail only from outside -/

/-- A request that changes nothing answers an error when it fails. -/
theorem exec_quiet_fails {o : Op} (ho : o.quiet = true) {w : World} (hw : w.fails = true) :
    (exec w o d).1 = .error ioError := by
  cases o with
  | disk o =>
    have hkeeps : o.removal = false := by
      cases o with
      | removeFile p => cases ho
      | removeDirAll p => cases ho
      | _ => rfl
    simp only [exec, Disk.exec, hw, hkeeps, Bool.not_false, Bool.and_true, if_true]
  | openAt p => simp only [exec, hw, if_true]
  | statAt p => simp only [exec, hw, if_true]
  | removeDir p => cases ho

/-- `J` proves programs that only look, from what each request answers where nothing fails. -/
structure Surely (d : Disk) (J : ∀ {α : Type}, FileM α → (α → Prop) → Prop) : Prop where
  ret {α : Type} {a : α} {R : α → Prop} : R a → J (pure a) R
  seq {α β : Type} {p : FileM β} {f : β → FileM α} {R : β → Prop} {R' : α → Prop} :
    J p R → (∀ b, R b → J (f b) R') → J (p >>= f) R'
  ask {o : Op} {code : String} {R : o.Val → Prop} : o.quiet = true →
    (∀ w, w.fails = false → ∃ v, (exec w o d).1 = .ok v ∧ R v) → J (io o code) R

theorem looks_surely : Surely d (fun p R => Looks writable Broken d p R) where
  ret := looks_pure
  seq := looks_bind
  ask := by
    intro o code R ho hanswer
    refine looks_sure ho (fun w _ v hv => ?_) (fun w hw => ?_)
    · cases hfails : w.fails with
      | true =>
        rw [exec_quiet_fails ho hfails] at hv
        cases hv
      | false =>
        obtain ⟨u, hu, hR⟩ := hanswer w hfails
        rw [hu] at hv
        cases hv
        exact hR
    · obtain ⟨v, hv, -⟩ := hanswer w hw.fails
      exact ⟨v, hv⟩

section

variable {J : ∀ {α : Type}, FileM α → (α → Prop) → Prop}

/-- A check that passes. -/
theorem Surely.pass (hJ : Surely d J) {c : Bool} {code : String} (h : c = false) :
    J (refuseIf c code) (fun _ => True) := by
  subst h
  exact hJ.ret (a := ()) trivial

/-- A request of the stores that has one answer. -/
theorem Surely.performed (hJ : Surely d J) {o : Checkpoint.Op} {code : String} {v : o.Val}
    (ho : (Op.disk o).quiet = true) (hperform : ∀ w, (d.perform w o).1 = .ok v) :
    J (diskIo o code) (· = v) := by
  refine hJ.ask ho (fun w hw => ⟨v, ?_, rfl⟩)
  simp only [exec, Disk.exec, hw, Bool.false_and, Bool.false_eq_true, if_false]
  exact hperform _

end

/-! ## The file -/

/-- A regular file with one name is at the path. -/
def HoldsFile (d : Disk) (p : Path) (content : List UInt8) (executable : Bool) : Prop :=
  d.node p = some (.leaf (.file content executable 1))

variable {p : Path} {content : List UInt8} {executable : Bool}

theorem looks_regular {stat : Stat} {invalidCode hardLinkCode : String}
    (hfile : stat.isFile = true) (hlinks : stat.links = 1) :
    Looks writable E d (requireSingleLinkRegular stat invalidCode hardLinkCode)
      (fun _ => True) := by
  refine looks_bind (looks_pass ?_) (fun _ _ => looks_pass ?_)
  · rw [hfile]
    rfl
  · rw [hlinks]
    rfl

/-- What is read of a file that is there. -/
theorem exec_read (h : HoldsFile d p content executable) {w : World} (hfails : w.fails = false)
    (offset want : Nat) : (exec w (.disk (.read p offset want)) d).1 =
      .ok (((content.drop offset).take want).take (w.readLimit + 1)) := by
  simp only [exec, Disk.exec, hfails, Bool.false_and, Bool.false_eq_true, if_false, Disk.perform,
    show d.node p = _ from h]

section

variable {J : ∀ {α : Type}, FileM α → (α → Prop) → Prop}

theorem Surely.regular (hJ : Surely d J) {stat : Stat} {invalidCode hardLinkCode : String}
    (hfile : stat.isFile = true) (hlinks : stat.links = 1) :
    J (requireSingleLinkRegular stat invalidCode hardLinkCode) (fun _ => True) := by
  refine hJ.seq (hJ.pass ?_) (fun _ _ => hJ.pass ?_)
  · rw [hfile]
    rfl
  · rw [hlinks]
    rfl

/-- The loop returns the content. -/
theorem Surely.readToEnd (hJ : Surely d J) (h : HoldsFile d p content executable) {code : String}
    {fuel offset left : Nat} {bytes : List UInt8} (hbytes : bytes = content.take offset)
    (hoffset : offset ≤ content.length) (hfuel : left ≤ fuel)
    (hleft : content.length < offset + left) :
    J (Workspace.readToEnd p code fuel offset left bytes) (· = content) := by
  induction fuel generalizing offset left bytes with
  | zero => omega
  | succ fuel ih =>
    unfold Workspace.readToEnd
    have hpositive : left ≠ 0 := by omega
    rw [if_neg hpositive]
    have hread : J (diskIo (.read p offset (min bufferBytes left)) code)
        (fun more => ∃ k, 0 < k ∧ k ≤ left ∧ more = (content.drop offset).take k) := by
      refine hJ.ask rfl (fun w hw => ⟨_, exec_read h hw offset _, ?_⟩)
      refine ⟨min (w.readLimit + 1) (min bufferBytes left), ?_, ?_, List.take_take⟩
      · have hbuffer : 0 < bufferBytes := by decide
        omega
      · omega
    refine hJ.seq hread (fun more hmore => ?_)
    obtain ⟨k, hk, hkleft, rfl⟩ := hmore
    have hlength : ((content.drop offset).take k).length = min k (content.length - offset) := by
      rw [List.length_take, List.length_drop]
    split
    · -- nothing was read: the end of the file
      rename_i hempty
      rw [List.isEmpty_iff] at hempty
      rw [hempty, List.length_nil] at hlength
      have hend : content.length ≤ offset := by omega
      refine hJ.ret ?_
      rw [hbytes, List.take_of_length_le hend]
    · rename_i hsome
      rw [List.isEmpty_iff, ← List.length_eq_zero_iff] at hsome
      refine ih ?_ ?_ ?_ ?_
      · -- what was read continues what was there
        rw [hbytes, hlength, ← List.take_add]
        rcases Nat.le_total k (content.length - offset) with hle | hle
        · rw [Nat.min_eq_left hle]
        · rw [Nat.min_eq_right hle, List.take_of_length_le (by omega),
            List.take_of_length_le (by omega)]
      · omega
      · omega
      · omega

/-- A file that is there is read. -/
theorem Surely.readVerified (hJ : Surely d J) (h : HoldsFile d p content executable)
    {maxBytes : Nat} (hsize : content.length ≤ maxBytes) :
    J (readVerifiedRegularAt p maxBytes) (· = content) := by
  unfold readVerifiedRegularAt
  have hopen : J (diskIo (.openFile p) "file_read_open_failed") (· = ()) := by
    refine hJ.performed rfl (fun w => ?_)
    simp only [Disk.perform, Disk.followed, show d.node p = _ from h]
    rfl
  have hstat : J (diskIo (.statFile p) "file_read_stat_failed")
      (· = .file content.length executable 1) := by
    refine hJ.performed rfl (fun w => ?_)
    simp only [Disk.perform, show d.node p = _ from h]
    rfl
  refine hJ.seq hopen (fun _ _ => hJ.seq hstat (fun stat hstat => ?_))
  subst hstat
  refine hJ.seq (hJ.regular rfl rfl) (fun _ _ => ?_)
  refine hJ.seq (hJ.pass ?_) (fun _ _ => ?_)
  · exact decide_eq_false (Nat.not_lt.mpr hsize)
  refine hJ.seq (hJ.readToEnd h ?_ (Nat.zero_le _) (Nat.le_refl _) (by omega)) ?_
  · rfl
  rintro output rfl
  refine hJ.seq (hJ.pass ?_) (fun _ _ => hJ.ret rfl)
  exact decide_eq_false (Nat.not_lt.mpr hsize)

end

/-- A file that is there is read, or the failure hits. -/
theorem looks_readVerified (h : HoldsFile d p content executable) {maxBytes : Nat}
    (hsize : content.length ≤ maxBytes) :
    Looks writable Broken d (readVerifiedRegularAt p maxBytes) (· = content) :=
  looks_surely.readVerified h hsize

/-- What the first look at a target that passes tells. -/
theorem looks_inspect : Looks writable Anyhow d (inspectExistingReadTarget p) (fun found =>
    ∃ content executable, HoldsFile d p content executable ∧
      found = (.file content.length executable 1, writable)) := by
  refine looks_bind (R := fun found => ∀ stat, found = some stat →
    ∃ content executable, HoldsFile d p content executable ∧
      stat = (.file content.length executable 1, writable)) ?_ (fun found hfound => ?_)
  · refine looks_bind (looks_io rfl) (fun found hanswer => ?_)
    obtain ⟨w, hw, hanswer⟩ := hanswer
    have hfound : (d.node p).map (fun x => (Stat.of x, w.writable)) = found := by
      simp only [exec] at hanswer
      split at hanswer
      · cases hanswer
      · exact Except.ok.inj hanswer
    rw [hw] at hfound
    subst hfound
    rcases hnode : d.node p with _ | x
    · exact looks_pure (fun _ h => by cases h)
    refine looks_bind looks_refuseIf (fun _ _ => ?_)
    refine looks_bind (looks_bind looks_refuseIf (fun _ hfile => Looks.mono looks_refuseIf
      (fun _ hlinks => And.intro hfile hlinks))) (fun _ hregular => looks_pure ?_)
    intro stat hstat
    cases hstat
    -- the two checks leave a regular file with one name
    cases x with
    | dir => cases hregular.1
    | leaf x =>
      cases x with
      | symlink => cases hregular.1
      | special => cases hregular.1
      | file content executable links =>
        have hlinks : links = 1 := by
          have hone := hregular.2
          rw [bne_eq_false_iff_eq] at hone
          exact hone
        subst hlinks
        exact ⟨content, executable, hnode, rfl⟩
  · cases found with
    | none => exact fun _ => wp_throw ⟨rfl, trivial⟩
    | some stat => exact looks_pure (hfound stat rfl)

/-- A target that is there passes. -/
theorem looks_inspect_sure (h : HoldsFile d p content executable) :
    Looks writable Broken d (inspectExistingReadTarget p)
      (fun found => found = (.file content.length executable 1, writable)) := by
  have hstat : Looks writable Broken d (io (.statAt p) "file_read_target_metadata_failed")
      (fun found => found = some (.file content.length executable 1, writable)) := by
    refine looks_sure rfl (fun w hw v hv => ?_)
      (fun w hw => ⟨some (.file content.length executable 1, w.writable), ?_⟩)
    · simp only [exec] at hv
      split at hv
      · cases hv
      · rw [show d.node p = _ from h, hw] at hv
        exact (Except.ok.inj hv).symm
    · simp only [exec, hw.fails, Bool.false_eq_true, if_false, show d.node p = _ from h]
      rfl
  refine looks_bind (R := fun found => found = some (.file content.length executable 1, writable))
    (looks_bind hstat ?_) ?_
  · rintro found rfl
    refine looks_bind (looks_pass rfl) (fun _ _ => ?_)
    exact looks_bind (looks_regular rfl rfl) (fun _ _ => looks_pure rfl)
  · rintro found rfl
    exact looks_pure rfl

/-! ## Finding the file -/

/-- A project that passes its checks is where its id says. -/
theorem looks_openVerifiedProjectRoot {project : ProjectRef} :
    Looks writable Anyhow d (openVerifiedProjectRoot project)
      (· = expectedProjectRoot project.id) := by
  have hverify : Looks writable Anyhow d (verifyProject project) (fun _ => True) := by
    refine looks_bind looks_refuseIf (fun _ _ => ?_)
    refine looks_bind (looks_bind (looks_io rfl) (fun _ _ => looks_refuseIf.forget)) (fun _ _ => ?_)
    refine looks_bind (R := fun _ => True) ?_ (fun _ _ => ?_)
    · refine looks_bind (looks_io rfl) (fun _ _ => ?_)
      exact looks_bind looks_refuseIf (fun _ _ => (looks_io rfl).forget)
    · exact looks_bind looks_refuseIf (fun _ _ => looks_pure trivial)
  have hopen : ∀ q, Looks writable Anyhow d (openExistingDirAt q) (fun _ => True) := fun q =>
    looks_bind (looks_io rfl) (fun _ _ => looks_refuseIf.forget)
  refine looks_bind hverify (fun _ _ => ?_)
  refine looks_bind (looks_io rfl) (fun _ _ => ?_)
  refine looks_bind (hopen _) (fun _ _ => ?_)
  refine looks_bind (hopen _) (fun _ _ => ?_)
  refine looks_bind (hopen _) (fun _ _ => ?_)
  refine looks_bind (looks_io rfl) (fun _ _ => ?_)
  refine looks_bind looks_refuseIf (fun _ _ => ?_)
  refine looks_bind looks_refuseIf (fun _ _ => ?_)
  refine looks_bind (looks_io rfl) (fun _ _ => ?_)
  exact looks_bind looks_refuseIf (fun _ _ => looks_pure rfl)

theorem looks_openParents {current : Path} {names : List String} :
    Looks writable Anyhow d (openParents current names) (· = current ++ names) := by
  induction names generalizing current with
  | nil => exact looks_pure (List.append_nil current).symm
  | cons name names ih =>
    refine looks_bind (R := fun _ => True) ?_ (fun _ _ => ?_)
    · exact looks_bind (looks_io rfl)
        (fun _ _ => looks_refuseIf.forget)
    · refine Looks.mono ih (fun parent hparent => ?_)
      rw [hparent, List.append_assoc]
      rfl

theorem looks_openParent {project : ProjectRef} {names : List String} :
    Looks writable Anyhow d (openParent project names)
      (fun found => found.1 ++ [found.2] = expectedProjectRoot project.id ++ names) := by
  unfold openParent
  rcases hlast : names.getLast? with _ | name
  · exact fun _ => wp_throw ⟨rfl, trivial⟩
  refine looks_bind looks_openVerifiedProjectRoot (fun root hroot => ?_)
  refine looks_bind looks_openParents (fun parent hparent => looks_pure ?_)
  subst hroot
  subst hparent
  show _ ++ names.dropLast ++ [name] = _
  rw [List.append_assoc, List.dropLast_append_getLast? name hlast]

end VibeCoder.Workspace
