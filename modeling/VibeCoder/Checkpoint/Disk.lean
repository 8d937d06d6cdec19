/-
  The file system under the local stores, as far as they use it.

  A `Disk` is a tree of directories and leaves, addressed by the components of a path below the
  application-private directory.  `Op` are the requests a store makes; a request fails when the
  state does not allow it, or when the surroundings (`World`) let it fail:

  * a failed write may leave some of the bytes behind, a removal that is cut short leaves any part
    of the tree behind, and every other failed request changes nothing;
  * a read may return fewer bytes than were asked for, but not none before the end of the file.

  Nothing but the stores changes the disk while one of their methods runs, so that the device and
  inode numbers the source compares twice always agree; those comparisons are left out.  Left out
  too: names that are not UTF-8, modes other than the owner's execute bit, and the symbolic links
  of `canonicalize`, which every caller refuses first.
-/
import VibeCoder.Contracts
import VibeCoder.Lib.Crash
import VibeCoder.Lib.FileTree

namespace VibeCoder.Checkpoint

open Resume Files

/-- The components of a path. -/
abbrev Path := List String

/-- What is not a directory. -/
inductive Leaf where
  | file (content : List UInt8) (executable : Bool) (links : Nat)
  | symlink
  | special
  deriving DecidableEq, Repr

abbrev Disk := FileTree String Leaf

/-- `fs::Metadata`, the part the stores read. -/
inductive Stat where
  | dir
  | file (size : Nat) (executable : Bool) (links : Nat)
  | symlink
  | special
  deriving DecidableEq, Repr

/-- The metadata of a node. -/
def Stat.of : Node Leaf → Stat
  | .dir => .dir
  | .leaf (.file content executable links) => .file content.length executable links
  | .leaf .symlink => .symlink
  | .leaf .special => .special

/-- `Metadata::is_file`. -/
def Stat.isFile : Stat → Bool
  | .file _ _ _ => true
  | .dir | .symlink | .special => false

/-- `Metadata::len` of a file. -/
def Stat.size : Stat → Nat
  | .file size _ _ => size
  | .dir | .symlink | .special => 0

/-- `Metadata::nlink` of a file. -/
def Stat.links : Stat → Nat
  | .file _ _ links => links
  | .dir | .symlink | .special => 1

/-- What the surroundings decide about one request. -/
structure World where
  fails : Bool
  /-- A read returns at most one byte more than this. -/
  readLimit : Nat
  /-- How many bytes a failed write leaves behind. -/
  written : Nat
  /-- What a removal that is cut short leaves behind. -/
  kept : Option (Path → Bool)

/-- Nothing fails. -/
def World.calm (w : World) : World := { w with fails := false }

/-- The requests of the stores. -/
inductive Op where
  /-- `fs::symlink_metadata`; a missing path is no failure. -/
  | lstat (p : Path)
  /-- `Path::exists`. -/
  | exists (p : Path)
  /-- `fs::metadata`, and `File::metadata` of an open directory. -/
  | metadata (p : Path)
  | canonicalize (p : Path)
  /-- `open` with `O_DIRECTORY | O_NOFOLLOW`. -/
  | openDir (p : Path)
  | readDir (p : Path)
  /-- `open` with `O_NOFOLLOW`. -/
  | openFile (p : Path)
  | statFile (p : Path)
  | read (p : Path) (offset want : Nat)
  /-- `fs::create_dir`; the answer is false when the name is taken. -/
  | createDir (p : Path) (name : String)
  | setMode (p : Path)
  /-- `open` with `create_new`. -/
  | createFile (p : Path) (name : String) (executable : Bool)
  | writeAll (p : Path) (name : String) (bytes : List UInt8)
  | syncFile (p : Path)
  | syncDir (p : Path)
  | rename (p : Path) (a b : String)
  /-- `renameat2` with `RENAME_EXCHANGE`. -/
  | exchange (p : Path) (a b : String)
  | removeFile (p : Path)
  | removeDirAll (p : Path)
  deriving DecidableEq

/-- What a request answers when it does not fail. -/
abbrev Op.Val : Op → Type
  | .lstat _ => Option Stat
  | .metadata _ => Stat
  | .exists _ | .createDir _ _ => Bool
  | .canonicalize _ => Path
  | .readDir _ => List String
  | .statFile _ => Stat
  | .read _ _ _ => List UInt8
  | .openDir _ | .openFile _ | .setMode _ | .createFile _ _ _ | .writeAll _ _ _
  | .syncFile _ | .syncDir _ | .rename _ _ _ | .exchange _ _ _ | .removeFile _
  | .removeDirAll _ => Unit

/-- A removal; whether it is cut short is not the `fails` of the world. -/
def Op.removal : Op → Bool
  | .removeFile _ | .removeDirAll _ => true
  | _ => false

/-- The error of a request; every caller replaces it by a code of its own. -/
def ioError : VibeCoderError := .checkpoint "io"

namespace Disk

/-- Write a leaf, or make a directory, unless a directory has the name. -/
def put (d : Disk) (p : Path) (name : String) (x : Node Leaf) : Option Disk :=
  if h : d.node p = some .dir ∧ d.node (p ++ [name]) ≠ some .dir then
    some (d.insert p name x h.1 h.2)
  else none

/-- The answer to a request that succeeds when there is a new disk. -/
def answer (d : Disk) : Option Disk → Result Unit × Disk
  | some d' => (.ok (), d')
  | none => (.error ioError, d)

/-- More bytes at the end of a file. -/
def append (d : Disk) (p : Path) (name : String) (bytes : List UInt8) : Option Disk :=
  match d.node (p ++ [name]) with
  | some (.leaf (.file content executable links)) =>
    d.put p name (.leaf (.file (content ++ bytes) executable links))
  | _ => none

/-- `rename`: the target is missing, or a leaf that another leaf replaces, or an empty directory
    that another directory replaces. -/
def renamed (d : Disk) (p : Path) (a b : String) : Option Disk :=
  match d.node (p ++ [a]), d.node (p ++ [b]) with
  | some _, none => some (d.exchange p a b)
  | some (.leaf _), some (.leaf _) => some ((d.remove (p ++ [b])).exchange p a b)
  | some .dir, some .dir =>
    if d.names (p ++ [b]) = [] then some ((d.remove (p ++ [b])).exchange p a b) else none
  | _, _ => none

/-- A removal, possibly cut short. -/
def removed (d : Disk) (w : World) (p : Path) : Result Unit × Disk :=
  match w.kept with
  | none => (.ok (), d.remove p)
  | some kept => (.error ioError, d.prune p kept)

/-- What a path stands for, if it is no symbolic link. -/
def followed (d : Disk) (p : Path) : Result Stat :=
  match d.node p with
  | some (.leaf .symlink) | none => .error ioError
  | some x => .ok (Stat.of x)

/-- A request that the surroundings let through. -/
def perform (w : World) (d : Disk) : (o : Op) → Result o.Val × Disk
  | .lstat p => (.ok ((d.node p).map Stat.of), d)
  | .exists p => (.ok (d.node p).isSome, d)
  | .metadata p => (d.followed p, d)
  | .canonicalize p => ((d.followed p).map fun _ => p, d)
  | .setMode p | .openFile p => ((d.followed p).map fun _ => (), d)
  | .openDir p | .syncDir p => (if d.node p = some .dir then .ok () else .error ioError, d)
  | .readDir p => (if d.node p = some .dir then .ok (d.names p) else .error ioError, d)
  | .syncFile p =>
    (match d.node p with
      | some (.leaf (.file _ _ _)) => .ok ()
      | _ => .error ioError, d)
  | .statFile p =>
    (match d.node p with
      | some x => .ok (Stat.of x)
      | none => .error ioError, d)
  | .read p offset want =>
    (match d.node p with
      | some (.leaf (.file content _ _)) =>
        .ok (((content.drop offset).take want).take (w.readLimit + 1))
      | _ => .error ioError, d)
  | .createDir p name =>
    match d.node (p ++ [name]), d.put p name .dir with
    | some _, _ => (.ok false, d)
    | none, some d' => (.ok true, d')
    | none, none => (.error ioError, d)
  | .createFile p name executable =>
    match d.node (p ++ [name]) with
    | some _ => (.error ioError, d)
    | none => d.answer (d.put p name (.leaf (.file [] executable 1)))
  | .writeAll p name bytes => d.answer (d.append p name bytes)
  | .rename p a b => d.answer (d.renamed p a b)
  | .exchange p a b =>
    match d.node (p ++ [a]), d.node (p ++ [b]) with
    | some _, some _ => (.ok (), d.exchange p a b)
    | _, _ => (.error ioError, d)
  | .removeFile p =>
    match d.node p with
    | some (.leaf _) => d.removed w p
    | _ => (.error ioError, d)
  | .removeDirAll p =>
    match d.node p with
    | some .dir => d.removed w p
    | _ => (.error ioError, d)

/-- What a request leaves behind that the surroundings let fail. -/
def afterFailure (w : World) (d : Disk) : Op → Disk
  | .writeAll p name bytes => (d.append p name (bytes.take w.written)).getD d
  | _ => d

/-- The meaning of a request. -/
def exec (w : World) (o : Op) (d : Disk) : Result o.Val × Disk :=
  if w.fails && !o.removal then (.error ioError, d.afterFailure w o) else d.perform w o

end Disk

/-- A method of a store. -/
abbrev StoreM : Type → Type := Prog VibeCoderError Op Op.Val

/-- A request whose failure is reported under `e`: `.map_err(|_| e)?`. -/
def ioAs (e : VibeCoderError) (o : Op) : StoreM o.Val := do
  match ← settle (attempt o) with
  | .ok v => pure v
  | .error _ => throw e

/-- `.map_err(|_| checkpoint_error(code))?`. -/
def io (o : Op) (code : String) : StoreM o.Val := ioAs (checkpointError code) o

/-- `if c { return Err(e) }`. -/
def refuse (c : Bool) (e : VibeCoderError) : StoreM Unit :=
  resume (if c then .error e else .ok ())

/-- `if c { return Err(checkpoint_error(code)) }`. -/
def refuseIf (c : Bool) (code : String) : StoreM Unit := refuse c (checkpointError code)

/-- `let _ = p`. -/
def attemptOnly (p : StoreM Unit) : StoreM Unit := do
  let _ ← settle p
  pure ()

/-! ## What a request changes -/

/-- The disks agree outside the tree at `p`. -/
def Outside (p : Path) (d t : Disk) : Prop := ∀ q, ¬ p <+: q → t.node q = d.node q

/-- The disks agree outside what lies strictly below `p`. -/
def Below (p : Path) (d t : Disk) : Prop := ∀ q, (∀ rel, rel ≠ [] → q ≠ p ++ rel) → t.node q = d.node q

theorem Below.refl (p : Path) (d : Disk) : Below p d d := fun _ _ => rfl

theorem Below.trans {p : Path} {d t u : Disk} (h : Below p d t) (h' : Below p t u) : Below p d u :=
  fun q hq => (h' q hq).trans (h q hq)

/-- The node itself stays. -/
theorem Below.self {p : Path} {d t : Disk} (h : Below p d t) : t.node p = d.node p :=
  h p (fun _ hrel heq => hrel (List.append_right_eq_self.mp heq.symm))

theorem Below.outside {p : Path} {d t : Disk} (h : Below p d t) : Outside p d t := by
  intro q hq
  refine h q (fun rel _ heq => hq ?_)
  rw [heq]
  exact List.prefix_append p rel

theorem Outside.refl (p : Path) (d : Disk) : Outside p d d := fun _ _ => rfl

theorem Outside.trans {p : Path} {d t u : Disk} (h : Outside p d t) (h' : Outside p t u) :
    Outside p d u := fun q hq => (h' q hq).trans (h q hq)

/-- What changes in the tree of a child changes below the parent. -/
theorem Outside.below {p : Path} {name : String} {d t : Disk} (h : Outside (p ++ [name]) d t) :
    Below p d t := by
  intro q hq
  refine h q ?_
  rintro ⟨rel, rfl⟩
  rw [List.append_assoc] at hq
  exact hq (name :: rel) (List.cons_ne_nil _ _) rfl

theorem Outside.widen {p q : Path} {d t : Disk} (h : Outside (p ++ q) d t) : Outside p d t :=
  fun r hr => h r fun hpre => hr ((List.prefix_append p q).trans hpre)

/-- A path that does not meet another one keeps its subtree. -/
theorem Outside.sub {p q : Path} {d t : Disk} (h : Outside p d t) (hpq : ¬ p <+: q)
    (hqp : ¬ q <+: p) : t.sub q = d.sub q := by
  funext rel
  refine h _ (fun hpre => ?_)
  rcases List.prefix_or_prefix_of_prefix hpre (List.prefix_append q rel) with h1 | h1
  · exact hpq h1
  · exact hqp h1

namespace Disk

variable {d t : Disk} {p q : Path} {name : String}

theorem put_eq_some {x : Node Leaf} : d.put p name x = some t ↔
    ∃ hp hn, d.insert p name x hp hn = t := by
  unfold put
  split
  · rename_i h
    rw [Option.some.injEq]
    exact ⟨fun heq => ⟨h.1, h.2, heq⟩, fun ⟨_, _, heq⟩ => heq⟩
  · rename_i h
    constructor
    · intro hcontra
      cases hcontra
    · rintro ⟨hp, hn, -⟩
      exact absurd ⟨hp, hn⟩ h

theorem put_self {x : Node Leaf} (h : d.put p name x = some t) :
    t.node (p ++ [name]) = some x := by
  obtain ⟨hp, hn, rfl⟩ := put_eq_some.mp h
  exact FileTree.insert_self

theorem put_other {x : Node Leaf} (h : d.put p name x = some t) (hq : q ≠ p ++ [name]) :
    t.node q = d.node q := by
  obtain ⟨hp, hn, rfl⟩ := put_eq_some.mp h
  exact FileTree.insert_other hq

theorem put_outside {x : Node Leaf} (h : d.put p name x = some t) : Outside (p ++ [name]) d t := by
  intro q hq
  refine put_other h ?_
  rintro rfl
  exact hq (List.prefix_refl _)

theorem append_outside {bytes : List UInt8} (h : d.append p name bytes = some t) :
    Outside (p ++ [name]) d t := by
  unfold append at h
  split at h
  · exact put_outside h
  · cases h

/-- A new directory is empty. -/
theorem put_dir_empty {d t : Disk} (hnew : d.node (p ++ [name]) = none)
    (h : d.put p name .dir = some t) {rel : Path} (hrel : rel ≠ []) :
    t.node (p ++ [name] ++ rel) = none := by
  rw [put_other h]
  · refine d.none_below ?_ hrel
    rw [hnew]
    exact (Option.some_ne_none _).symm
  · intro heq
    exact hrel (List.append_right_eq_self.mp heq)

end Disk

end VibeCoder.Checkpoint
