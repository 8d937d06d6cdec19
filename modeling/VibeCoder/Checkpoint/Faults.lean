/-
  The parts of the store's methods that give up at the first request that fails.

  * `Faults`   — which requests of a run fail; no removal is cut short;
  * `Quits`    — every request of the program is followed by `?`, no error of it is the dedicated
    recovery error, and it removes nothing;
  * `run_eq_calm`, `quits_fault` — such a program runs as if nothing failed while nothing does, and
    returns an error when one of the requests of that run fails.
-/
import VibeCoder.Checkpoint.StoreLaws

namespace VibeCoder.Checkpoint

open Resume Files

variable {α β : Type} {env : Env}

/-! ## Faults -/

/-- Which requests fail, and how much is read and written.  A removal is never cut short. -/
structure Faults where
  fails : Nat → Bool
  readLimit : Nat → Nat
  written : Nat → Nat

/-- The surroundings with these faults. -/
def Faults.world (faults : Faults) (n : Nat) : World :=
  { fails := faults.fails n
    readLimit := faults.readLimit n
    written := faults.written n
    kept := none }

/-- The same surroundings where nothing fails. -/
def Faults.calm (faults : Faults) (n : Nat) : World := (faults.world n).calm

/-- What the surroundings can be during a run. -/
def During (w : Nat → World) (v : World) : Prop := ∃ n, w n = v

/-- What a method establishes in a run. -/
theorem wp_during {w : Nat → World} {p : StoreM α} {Q : α → Disk → Prop}
    {E : VibeCoderError → Disk → Prop} {d : Disk}
    (h : Wp (Watch (During w) (fun _ => True)) () p Q E d) (n : Nat) :
    Post Q E (runAlone Disk.exec w p n d).1 (runAlone Disk.exec w p n d).2.2 :=
  safe_watched_run (fun n => ⟨n, rfl⟩) h

theorem wp_during_ok {w : Nat → World} {p : StoreM α} {Q : α → Disk → Prop}
    {E : VibeCoderError → Disk → Prop} {n : Nat} {d : Disk} {a : α} {after : Nat × Disk}
    (h : Wp (Watch (During w) (fun _ => True)) () p Q E d)
    (hrun : runAlone Disk.exec w p n d = (.ok a, after)) : Q a after.2 := by
  have hpost := wp_during h n
  rw [hrun] at hpost
  exact hpost

theorem wp_during_error {w : Nat → World} {p : StoreM α} {Q : α → Disk → Prop}
    {E : VibeCoderError → Disk → Prop} {n : Nat} {d : Disk} {e : VibeCoderError}
    {after : Nat × Disk} (h : Wp (Watch (During w) (fun _ => True)) () p Q E d)
    (hrun : runAlone Disk.exec w p n d = (.error e, after)) : E e after.2 := by
  have hpost := wp_during h n
  rw [hrun] at hpost
  exact hpost

theorem Faults.whole {faults : Faults} : Whole (During faults.world) := by
  rintro w ⟨n, rfl⟩
  rfl

theorem Faults.calm_calm {faults : Faults} : Calm (During faults.calm) := by
  rintro w ⟨n, rfl⟩
  rfl

theorem Faults.world_eq_calm {faults : Faults} {k : Nat} (h : faults.fails k = false) :
    faults.world k = faults.calm k := by
  unfold Faults.calm Faults.world World.calm
  rw [h]

/-- Up to the first fault a run is one in which nothing fails. -/
theorem run_eq_calm {faults : Faults} {p : StoreM α} {n : Nat} {d : Disk}
    (h : ∀ k, n ≤ k → k < (runAlone Disk.exec faults.calm p n d).2.1 → faults.fails k = false) :
    runAlone Disk.exec faults.world p n d = runAlone Disk.exec faults.calm p n d :=
  Proc.run_congr Disk.exec p.run n d (fun k hk hlt => Faults.world_eq_calm (h k hk hlt))

/-- At most one request fails. -/
def Faults.Single (faults : Faults) : Prop :=
  ∀ m n, faults.fails m = true → faults.fails n = true → m = n

/-- The first request that fails. -/
def Faults.First (faults : Faults) (k : Nat) : Prop :=
  faults.fails k = true ∧ ∀ j, j < k → faults.fails j = false

theorem Faults.Single.first {faults : Faults} (h : faults.Single) {k : Nat}
    (hk : faults.fails k = true) : faults.First k := by
  refine ⟨hk, fun j hj => Bool.eq_false_iff.mpr (fun hfails => ?_)⟩
  have hsame := h j k hfails hk
  omega

/-- A part that ends before the first fault runs as if nothing failed. -/
theorem Faults.First.same {faults : Faults} {k : Nat} (h : faults.First k) {p : StoreM α} {n : Nat}
    {d : Disk} {r : Result α} {after : Nat × Disk}
    (hcalm : runAlone Disk.exec faults.calm p n d = (r, after)) (hafter : after.1 ≤ k) :
    runAlone Disk.exec faults.world p n d = (r, after) := by
  rw [run_eq_calm (fun j _ hlt => h.2 j ?_), hcalm]
  rw [hcalm] at hlt
  exact Nat.lt_of_lt_of_le hlt hafter

theorem Faults.First.calm {faults : Faults} {k : Nat} (h : faults.First k) {p : StoreM α} {n : Nat}
    {d : Disk} {r : Result α} {after : Nat × Disk} (hafter : after.1 ≤ k)
    (hrun : runAlone Disk.exec faults.world p n d = (r, after)) :
    runAlone Disk.exec faults.calm p n d = (r, after) := by
  rw [← hrun]
  refine Proc.run_congr Disk.exec p.run n d (fun j _ hlt => ?_)
  rw [show Proc.run _ _ _ _ _ = _ from hrun] at hlt
  exact (Faults.world_eq_calm (h.2 j (Nat.lt_of_lt_of_le hlt hafter))).symm

/-- If something fails up to a step and nothing before another, the first failure is between. -/
theorem Faults.first_between {faults : Faults} {n m : Nat}
    (hbefore : ∀ j, j < n → faults.fails j = false)
    (h : ¬ ∀ k, n ≤ k → k < m → faults.fails k = false) :
    ∃ k, faults.First k ∧ n ≤ k ∧ k < m := by
  have hsome : ∃ k, faults.fails k = true ∧ k < m := by
    by_contra hno
    refine h (fun k _ hlt => Bool.eq_false_iff.mpr (fun hfails => hno ⟨k, hfails, hlt⟩))
  have hfound := Nat.find_spec hsome
  refine ⟨Nat.find hsome, ⟨hfound.1, fun j hj => ?_⟩, ?_, hfound.2⟩
  · refine Bool.eq_false_iff.mpr (fun hfails => Nat.find_min hsome hj ⟨hfails, ?_⟩)
    exact Nat.lt_trans hj hfound.2
  · by_contra hlt
    have hno := hbefore (Nat.find hsome) (by omega)
    rw [hfound.1] at hno
    cases hno

/-- A run that fails, and would not fail if nothing did, met a fault. -/
theorem some_fault {faults : Faults} {p : StoreM α} {n : Nat} {d : Disk} {a : α}
    {e : VibeCoderError} {after : Nat × Disk}
    (h : (runAlone Disk.exec faults.world p n d).1 = .error e)
    (hcalm : runAlone Disk.exec faults.calm p n d = (.ok a, after)) :
    ∃ k, faults.fails k = true ∧ n ≤ k ∧ k < after.1 := by
  by_contra hnone
  have hsame : runAlone Disk.exec faults.world p n d = runAlone Disk.exec faults.calm p n d := by
    refine run_eq_calm (fun k hk hlt => Bool.eq_false_iff.mpr (fun hfails => ?_))
    rw [hcalm] at hlt
    exact hnone ⟨k, hfails, hk, hlt⟩
  rw [hsame, hcalm] at h
  cases h

theorem met_fault {faults : Faults} {p : StoreM α} {n : Nat} {d : Disk} {a : α}
    {e : VibeCoderError} {after : Nat × Disk}
    (h : (runAlone Disk.exec faults.world p n d).1 = .error e)
    (hcalm : runAlone Disk.exec faults.calm p n d = (.ok a, after))
    (hbefore : ∀ j, j < n → faults.fails j = false) :
    ∃ k, faults.First k ∧ n ≤ k ∧ k < after.1 := by
  refine Faults.first_between hbefore (fun hnone => ?_)
  obtain ⟨k, hfails, hle, hlt⟩ := some_fault h hcalm
  rw [hnone k hle hlt] at hfails
  cases hfails

/-! ## Giving up -/

/-- The program returns an error as soon as a request fails. -/
def Quits (p : StoreM α) : Prop := Strict (fun o => o.removal = false) (· ≠ recoveryFailed) p

theorem exec_calm {faults : Faults} {n : Nat} {o : Op} {d : Disk}
    (h : ¬ faults.fails n = true) :
    Disk.exec (faults.world n) o d = Disk.exec (faults.calm n) o d := by
  rw [Faults.world_eq_calm (Bool.eq_false_iff.mpr h)]

theorem exec_fault {faults : Faults} {n : Nat} {o : Op} {d : Disk} (ho : o.removal = false)
    (h : faults.fails n = true) : ∃ e, (Disk.exec (faults.world n) o d).1 = .error e := by
  have hfails : (faults.world n).fails = true := h
  unfold Disk.exec
  rw [hfails, ho, Bool.not_false, Bool.and_true, if_pos rfl]
  exact ⟨_, rfl⟩

theorem quits_fault {faults : Faults} {p : StoreM α} (hp : Quits p) {n k : Nat} {d : Disk}
    (hk : n ≤ k) (hlt : k < (runAlone Disk.exec faults.calm p n d).2.1)
    (hfails : faults.fails k = true) :
    ∃ e, (runAlone Disk.exec faults.world p n d).1 = .error e :=
  strict_fault (F := fun w => w.fails = true) (fun _ _ _ _ hno => exec_calm hno)
    (fun _ _ _ ho hno => exec_fault ho hno) hp ⟨k, hk, hlt, hfails⟩

theorem quits_raises {faults : Faults} {p : StoreM α} (hp : Quits p) {n : Nat} {d : Disk}
    {e : VibeCoderError} (h : (runAlone Disk.exec faults.world p n d).1 = .error e) :
    e ≠ recoveryFailed := strict_raises hp h

/-- The first fault ends the part it falls in. -/
theorem Faults.First.fault {faults : Faults} {k : Nat} (h : faults.First k) {p : StoreM α}
    (hp : Quits p) {n : Nat} {d : Disk} {a : α} {after : Nat × Disk}
    (hcalm : runAlone Disk.exec faults.calm p n d = (.ok a, after)) (hle : n ≤ k)
    (hlt : k < after.1) :
    ∃ e u, runAlone Disk.exec faults.world p n d = (.error e, u) ∧ e ≠ recoveryFailed := by
  obtain ⟨e, he⟩ := quits_fault hp hle (by rw [hcalm]; exact hlt) h.1
  exact ⟨e, _, Prod.ext he rfl, quits_raises hp he⟩

/-- A run that succeeds met no fault. -/
theorem quits_ok {faults : Faults} {p : StoreM α} (hp : Quits p) {n : Nat} {d : Disk} {a : α}
    {after : Nat × Disk} (h : runAlone Disk.exec faults.world p n d = (.ok a, after)) :
    runAlone Disk.exec faults.calm p n d = (.ok a, after) ∧
      ∀ k, n ≤ k → k < after.1 → faults.fails k = false := by
  have hnone : ∀ k, n ≤ k → k < (runAlone Disk.exec faults.calm p n d).2.1 →
      faults.fails k = false := by
    intro k hk hlt
    refine Bool.eq_false_iff.mpr (fun hfails => ?_)
    obtain ⟨e, he⟩ := quits_fault hp hk hlt hfails
    rw [h] at he
    cases he
  have hsame := run_eq_calm hnone
  rw [h] at hsame
  rw [← hsame] at hnone
  exact ⟨hsame.symm, hnone⟩

/-! ## The parts -/

theorem quits_pure (a : α) : Quits (pure a) := strict_pure a

theorem quits_bind {p : StoreM β} {f : β → StoreM α} (hp : Quits p) (hf : ∀ b, Quits (f b)) :
    Quits (p >>= f) := strict_bind hp hf

theorem quits_throw {code : String} (h : code ≠ "checkpoint_rollback_recovery_failed") :
    Quits (throw (checkpointError code) : StoreM α) := by
  refine strict_throw (fun heq => h ?_)
  injection heq

theorem quits_resume {r : Result α} (h : ∀ e, r = .error e → e ≠ recoveryFailed) :
    Quits (resume r) := strict_resume h

theorem quits_io {o : Op} {code : String} (ho : o.removal = false)
    (h : code ≠ "checkpoint_rollback_recovery_failed") : Quits (io o code) := by
  have hne : checkpointError code ≠ recoveryFailed := by
    intro heq
    injection heq with hcode
    exact h hcode
  unfold Quits io ioAs
  refine strict_settle (P := fun o : Op => o.removal = false) (o := o) ho
    (fun _ => ⟨checkpointError code, hne, ?_⟩) (fun v => ?_)
  · rfl
  · exact strict_pure v

theorem quits_refuseIf {c : Bool} {code : String}
    (h : code ≠ "checkpoint_rollback_recovery_failed") : Quits (refuseIf c code) := by
  refine quits_resume (fun e he heq => h ?_)
  cases c with
  | true =>
    cases he
    injection heq
  | false => cases he

theorem quits_symlinkMetadata {p : Path} {code : String}
    (h : code ≠ "checkpoint_rollback_recovery_failed") : Quits (symlinkMetadata p code) := by
  refine quits_bind (quits_io rfl h) (fun found => quits_resume (fun e he heq => h ?_))
  cases found with
  | none =>
    cases he
    injection heq
  | some stat => cases he

theorem quits_createDir {p : Path} {name code : String}
    (h : code ≠ "checkpoint_rollback_recovery_failed") : Quits (createDir p name code) :=
  quits_bind (quits_io rfl h) (fun _ => quits_refuseIf h)

theorem quits_setPrivateDirMode {p : Path} : Quits (setPrivateDirMode p) :=
  quits_bind (quits_io rfl (by decide)) (fun _ => quits_io rfl (by decide))

theorem quits_syncDir {p : Path} : Quits (syncDir p) :=
  quits_bind (quits_io rfl (by decide)) (fun _ => quits_io rfl (by decide))

theorem quits_exchangeChildren {p : Path} {a b : String} : Quits (exchangeChildren p a b) :=
  quits_bind (quits_io rfl (by decide)) (fun _ => quits_io rfl (by decide))

theorem quits_pinDirectory {p : Path} : Quits (pinDirectory p) := by
  refine quits_bind (quits_io rfl (by decide)) (fun _ => ?_)
  refine quits_bind (quits_io rfl (by decide)) (fun _ => ?_)
  refine quits_bind (quits_refuseIf (by decide)) (fun _ => ?_)
  refine quits_bind (quits_io rfl (by decide)) (fun _ => ?_)
  exact quits_bind (quits_refuseIf (by decide)) (fun _ => quits_pure _)

theorem quits_beginFile {relative : String} {size : Nat} {executable : Bool} {s : DigestState} :
    Quits (resume (s.beginFile relative size executable)) := by
  refine quits_resume (fun e he => ?_)
  unfold DigestState.beginFile at he
  split_ifs at he
  all_goals
    cases he
    decide

theorem quits_hashContents {p : Path} {fuel offset remaining : Nat} {s : DigestState} :
    Quits (hashContents p fuel offset remaining s) := by
  induction fuel generalizing offset remaining s with
  | zero => exact quits_pure s
  | succ fuel ih =>
    unfold hashContents
    split
    · exact quits_pure s
    · refine quits_bind (quits_io rfl (by decide)) (fun _ => ?_)
      exact quits_bind (quits_refuseIf (by decide)) (fun _ => ih)

theorem quits_copyContents {p dest : Path} {name : String} {fuel offset remaining : Nat}
    {s : DigestState} : Quits (copyContents p dest name fuel offset remaining s) := by
  induction fuel generalizing offset remaining s with
  | zero => exact quits_pure s
  | succ fuel ih =>
    unfold copyContents
    split
    · exact quits_pure s
    · refine quits_bind (quits_io rfl (by decide)) (fun _ => ?_)
      refine quits_bind (quits_refuseIf (by decide)) (fun _ => ?_)
      exact quits_bind (quits_io rfl (by decide)) (fun _ => ih)

theorem quits_hashFile {p : Path} {relative : String} {size links : Nat} {executable : Bool}
    {s : DigestState} : Quits (hashFile p relative size executable links s) := by
  refine quits_bind (quits_refuseIf (by decide)) (fun _ => ?_)
  refine quits_bind quits_beginFile (fun _ => ?_)
  refine quits_bind (quits_io rfl (by decide)) (fun _ => ?_)
  refine quits_bind (quits_io rfl (by decide)) (fun _ => ?_)
  refine quits_bind (quits_refuseIf (by decide)) (fun _ => ?_)
  refine quits_bind quits_hashContents (fun _ => ?_)
  refine quits_bind (quits_io rfl (by decide)) (fun _ => ?_)
  refine quits_bind (quits_refuseIf (by decide)) (fun _ => ?_)
  refine quits_bind (quits_symlinkMetadata (by decide)) (fun _ => ?_)
  exact quits_bind (quits_refuseIf (by decide)) (fun _ => quits_pure _)

theorem quits_copyFile {p dest : Path} {name relative : String} {size links : Nat}
    {executable : Bool} {s : DigestState} :
    Quits (copyFile p dest name relative size executable links s) := by
  refine quits_bind (quits_refuseIf (by decide)) (fun _ => ?_)
  refine quits_bind quits_beginFile (fun _ => ?_)
  refine quits_bind (quits_io rfl (by decide)) (fun _ => ?_)
  refine quits_bind (quits_io rfl (by decide)) (fun _ => ?_)
  refine quits_bind (quits_refuseIf (by decide)) (fun _ => ?_)
  refine quits_bind (quits_io rfl (by decide)) (fun _ => ?_)
  refine quits_bind quits_copyContents (fun _ => ?_)
  refine quits_bind (quits_io rfl (by decide)) (fun _ => ?_)
  refine quits_bind (quits_refuseIf (by decide)) (fun _ => ?_)
  refine quits_bind (quits_io rfl (by decide)) (fun _ => ?_)
  refine quits_bind (quits_symlinkMetadata (by decide)) (fun _ => ?_)
  exact quits_bind (quits_refuseIf (by decide)) (fun _ => quits_pure _)

theorem quits_eachName {f : String → DigestState → StoreM DigestState}
    (hf : ∀ name s, Quits (f name s)) {names : List String} {s : DigestState} :
    Quits (eachName f names s) := by
  induction names generalizing s with
  | nil => exact quits_pure s
  | cons name names ih => exact quits_bind (hf name s) (fun _ => ih)

theorem quits_hashDirRecursive {levels : Nat} {root : Path} {pfx : String} {s : DigestState} :
    Quits (hashDirRecursive levels root pfx s) := by
  induction levels generalizing root pfx s with
  | zero => exact quits_throw (by decide)
  | succ levels ih =>
    refine quits_bind quits_pinDirectory (fun names => quits_eachName (fun name s => ?_))
    refine quits_bind (quits_symlinkMetadata (by decide)) (fun stat => ?_)
    cases stat with
    | dir => exact ih
    | file size executable links => exact quits_hashFile
    | symlink => exact quits_throw (by decide)
    | special => exact quits_throw (by decide)

theorem quits_copyDirRecursive {levels : Nat} {source dest : Path} {pfx : String}
    {s : DigestState} : Quits (copyDirRecursive levels source dest pfx s) := by
  induction levels generalizing source dest pfx s with
  | zero => exact quits_throw (by decide)
  | succ levels ih =>
    refine quits_bind quits_pinDirectory (fun names => ?_)
    refine quits_bind quits_pinDirectory (fun _ => quits_eachName (fun name s => ?_))
    refine quits_bind (quits_symlinkMetadata (by decide)) (fun stat => ?_)
    cases stat with
    | dir =>
      refine quits_bind (quits_createDir (by decide)) (fun _ => ?_)
      refine quits_bind quits_setPrivateDirMode (fun _ => ?_)
      exact quits_bind ih (fun _ => quits_bind quits_syncDir (fun _ => quits_pure _))
    | file size executable links => exact quits_copyFile
    | symlink => exact quits_throw (by decide)
    | special => exact quits_throw (by decide)

theorem quits_digestTree {root : Path} : Quits (digestTree env.sha256 root) :=
  quits_bind quits_hashDirRecursive (fun _ => quits_pure _)

theorem quits_copyTreeAndDigest {source dest : Path} :
    Quits (copyTreeAndDigest env.sha256 source dest) :=
  quits_bind quits_copyDirRecursive (fun _ => quits_pure _)

/-! ## Before the exchange -/

theorem quits_readToEnd {p : Path} {code : String}
    (h : code ≠ "checkpoint_rollback_recovery_failed") {fuel offset left : Nat}
    {bytes : List UInt8} : Quits (readToEnd p code fuel offset left bytes) := by
  induction fuel generalizing offset left bytes with
  | zero => exact quits_pure bytes
  | succ fuel ih =>
    unfold readToEnd
    split
    · exact quits_pure bytes
    · refine quits_bind (quits_io rfl h) (fun more => ?_)
      split
      · exact quits_pure bytes
      · exact ih

theorem validate_ne_recoveryFailed {m : CheckpointMetadata} :
    ∀ e, m.validate = .error e → e ≠ recoveryFailed := by
  intro e he
  unfold CheckpointMetadata.validate at he
  split_ifs at he
  all_goals
    cases he
    decide

theorem quits_loadMetadata {project : ProjectId} {checkpoint : CheckpointId} :
    Quits (loadMetadata env project checkpoint) := by
  refine quits_bind (quits_io rfl (by decide)) (fun found => ?_)
  cases found with
  | none => exact quits_pure none
  | some stat =>
    refine quits_bind (quits_refuseIf (by decide)) (fun _ => ?_)
    refine quits_bind (quits_io rfl (by decide)) (fun _ => ?_)
    refine quits_bind (quits_io rfl (by decide)) (fun _ => ?_)
    refine quits_bind (quits_refuseIf (by decide)) (fun _ => ?_)
    refine quits_bind (quits_readToEnd (by decide)) (fun bytes => ?_)
    refine quits_bind (quits_refuseIf (by decide)) (fun _ => ?_)
    refine quits_bind (quits_resume (fun e he => ?_)) (fun m => ?_)
    · cases hdecode : env.decode bytes with
      | none =>
        rw [hdecode] at he
        cases he
        decide
      | some m =>
        rw [hdecode] at he
        cases he
    · refine quits_bind (quits_resume validate_ne_recoveryFailed) (fun _ => ?_)
      exact quits_bind (quits_refuseIf (by decide)) (fun _ => quits_pure _)

theorem quits_verifyProject {project : ProjectRef} : Quits (verifyProject project) := by
  refine quits_bind (quits_refuseIf (by decide)) (fun _ => ?_)
  refine quits_bind (quits_symlinkMetadata (by decide)) (fun _ => ?_)
  refine quits_bind (quits_refuseIf (by decide)) (fun _ => ?_)
  exact quits_bind (quits_io rfl (by decide)) (fun _ => quits_refuseIf (by decide))

theorem quits_verifySnapshot {project : ProjectRef} {checkpoint : CheckpointId} :
    Quits (verifySnapshot env project checkpoint) := by
  refine quits_bind quits_verifyProject (fun _ => ?_)
  refine quits_bind quits_loadMetadata (fun found => ?_)
  refine quits_bind (quits_resume (fun e he => ?_)) (fun m => ?_)
  · cases found with
    | none =>
      cases he
      decide
    | some m => cases he
  · refine quits_bind quits_digestTree (fun _ => ?_)
    exact quits_bind (quits_refuseIf (by decide)) (fun _ => quits_pure _)

theorem quits_beginStaging {project : ProjectRef} {checkpoint : CheckpointId} {staging : String} :
    Quits (beginStaging env project checkpoint staging) := by
  refine quits_bind quits_verifySnapshot (fun _ => ?_)
  exact quits_bind (quits_createDir (by decide)) (fun _ => quits_pure _)

theorem quits_exchangeStaged {project : ProjectRef} {staging : String}
    {staged digest : TreeDigest} : Quits (exchangeStaged env project staging staged digest) := by
  refine quits_bind ?_ (fun intact => ?_)
  · unfold stagedIntact
    split
    · exact quits_pure false
    · exact quits_bind quits_digestTree (fun _ => quits_pure _)
  · cases intact with
    | false => exact quits_pure false
    | true => exact quits_bind quits_exchangeChildren (fun _ => quits_pure true)

end VibeCoder.Checkpoint
