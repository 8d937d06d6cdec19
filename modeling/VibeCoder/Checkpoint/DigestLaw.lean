/-
  What the digest of a tree says of the tree.

  1. **Records** — what is fed to the hash is one record after another, one for each entry of the
     tree: a directory, or a file with its contents.  Records delimit themselves (`delimits_encode`).

  2. **Trees** — the records of a tree are those of its entries, each under its path (`mem_records`).
     Names have no slash in them, so that a path tells the names it is made of.

  3. **Faithful** — equal bytes are fed for equal trees, and for no others; and a tree that has been
     copied has the digest that was computed meanwhile.
-/
import VibeCoder.Checkpoint.Rollback
import VibeCoder.Lib.Encoding
import VibeCoder.Lib.Text
import VibeCoder.Lib.Utf8

namespace VibeCoder.Checkpoint.Digest

open Resume Files Encoding

/-! ## Bytes -/

/-- The bytes of a number, the highest first. -/
theorem beBytes_eq (n : Nat) : beBytes n = (leBytes 8 n).reverse := by
  simp [beBytes, List.range_succ, leBytes, Nat.div_div_eq_div_mul]

theorem length_beBytes (n : Nat) : (beBytes n).length = 8 := by
  rw [beBytes_eq, List.length_reverse, length_leBytes]

theorem delimits_beBytes : Delimits { n | n < 2 ^ 64 } beBytes := by
  refine .of_length (fun n _ => length_beBytes n) ?_
  intro m hm n hn h
  rw [beBytes_eq, beBytes_eq, List.reverse_inj] at h
  exact leBytes_injOn 8 hm hn h

theorem length_utf8 (text : String) : (utf8 text).length = len text := by
  show (Chars.encode text.toList).length = len text
  rw [Chars.length_encode, len, Text.utf8ByteSize_eq_sum]
  rfl

theorem utf8_injective {p q : String} (h : utf8 p = utf8 q) : p = q :=
  String.toList_inj.mp (Chars.encode_injective h)

/-- A text after its length. -/
theorem delimits_path :
    Delimits { p : String | len p < 2 ^ 64 } (fun p => beBytes (len p) ++ utf8 p) := by
  intro p hp q hq x y h
  rw [List.append_assoc, List.append_assoc] at h
  obtain ⟨hlen, hrest⟩ := delimits_beBytes hp hq h
  obtain ⟨htext, hxy⟩ := List.append_inj hrest (by rw [length_utf8, length_utf8, hlen])
  exact ⟨utf8_injective htext, hxy⟩

/-! ## Records -/

/-- What is fed to the hash for one entry. -/
inductive Record where
  | dir (path : String)
  | file (path : String) (content : List UInt8) (executable : Bool)
  deriving DecidableEq

namespace Record

def path : Record → String
  | .dir path => path
  | .file path _ _ => path

def contents : Record → List UInt8
  | .dir _ => []
  | .file _ content _ => content

/-- The lengths fit into eight bytes. -/
def Fits (r : Record) : Prop := len r.path < 2 ^ 64 ∧ r.contents.length < 2 ^ 64

def encode : Record → List UInt8
  | .dir path => utf8 "D" ++ (beBytes (len path) ++ utf8 path)
  | .file path content executable =>
    utf8 "F" ++ ((beBytes (len path) ++ utf8 path) ++
      (beBytes content.length ++ ([if executable then 1 else 0] ++ content)))

/-- **Records delimit themselves.** -/
theorem delimits_encode : Delimits { r : Record | r.Fits } encode := by
  have hD : utf8 "D" = [68] := by decide
  have hF : utf8 "F" = [70] := by decide
  intro r hr r' hr' x y h
  cases r with
  | dir path =>
    cases r' with
    | dir path' =>
      simp only [encode, hD, List.append_assoc, List.cons_append, List.nil_append,
        List.cons.injEq, true_and] at h
      rw [← List.append_assoc, ← List.append_assoc] at h
      obtain ⟨rfl, hxy⟩ := delimits_path hr.1 hr'.1 h
      exact ⟨rfl, hxy⟩
    | file path' content' executable' =>
      simp only [encode, hD, hF, List.append_assoc, List.cons_append, List.nil_append,
        List.cons.injEq] at h
      exact absurd h.1 (by decide)
  | file path content executable =>
    cases r' with
    | dir path' =>
      simp only [encode, hD, hF, List.append_assoc, List.cons_append, List.nil_append,
        List.cons.injEq] at h
      exact absurd h.1 (by decide)
    | file path' content' executable' =>
      have hpath : (beBytes (len path) ++ utf8 path) ++
            (beBytes content.length ++ ((if executable then 1 else 0) :: (content ++ x))) =
          (beBytes (len path') ++ utf8 path') ++
            (beBytes content'.length ++ ((if executable' then 1 else 0) :: (content' ++ y))) := by
        simpa only [encode, hF, List.append_assoc, List.cons_append, List.nil_append,
          List.cons.injEq, true_and] using h
      obtain ⟨hp, hafter⟩ := delimits_path hr.1 hr'.1 hpath
      obtain ⟨hlen, hafter⟩ := delimits_beBytes hr.2 hr'.2 hafter
      obtain ⟨hexecutable, hafter⟩ := List.cons.inj hafter
      obtain ⟨rfl, hxy⟩ := List.append_inj hafter hlen
      obtain rfl : path = path' := hp
      cases executable <;> cases executable'
      · exact ⟨rfl, hxy⟩
      · exact absurd hexecutable (by decide)
      · exact absurd hexecutable (by decide)
      · exact ⟨rfl, hxy⟩

/-- **Lists of records** are told by the bytes of all their records. -/
theorem flatMap_encode {rs rs' : List Record} (h : ∀ r ∈ rs, r.Fits) (h' : ∀ r ∈ rs', r.Fits)
    (heq : rs.flatMap encode = rs'.flatMap encode) : rs = rs' := by
  have hstops : Stops { r : Record | r.Fits } encode [] := by
    intro r _ rest hnil
    cases r with
    | dir path => cases hnil
    | file path content executable => cases hnil
  refine (delimits_encode.flatMap h h' hstops hstops ?_).1
  rw [heq]

end Record

/-! ## Trees -/

/-- The records of an entry. -/
def entryRecords (child : Path → String → List Record) (d : Disk) (root : Path) (pfx name : String) :
    List Record :=
  match d.node (root ++ [name]) with
  | some .dir => .dir (relativePath pfx name) :: child (root ++ [name]) (relativePath pfx name)
  | some (.leaf (.file content executable _)) => [.file (relativePath pfx name) content executable]
  | some (.leaf .symlink) | some (.leaf .special) | none => []

/-- The records of a directory, in the order of a walk. -/
def treeRecords (d : Disk) : (levels : Nat) → (root : Path) → (pfx : String) → List Record
  | 0, _, _ => []
  | levels + 1, root, pfx =>
    (d.sortedNames root).flatMap (entryRecords (treeRecords d levels) d root pfx)

/-- What a directory of the store can hold. -/
def Plain : Node Leaf → Prop
  | .dir => True
  | .leaf (.file content _ links) => content.length ≤ maxCheckpointTotalBytes ∧ links = 1
  | .leaf .symlink | .leaf .special => False

section

variable {d : Disk} {levels : Nat} {root : Path} {pfx : String} {s s' : DigestState}

theorem beginFile_ok {relative : String} {size : Nat} {executable : Bool}
    (h : s.beginFile relative size executable = .ok s') :
    size ≤ maxCheckpointTotalBytes ∧
      s'.fed = s.fed ++ (utf8 "F" ++ ((beBytes (len relative) ++ utf8 relative) ++
        (beBytes size ++ [if executable then 1 else 0]))) := by
  unfold DigestState.beginFile at h
  split at h
  · cases h
  split at h
  · cases h
  split at h
  · cases h
  split at h
  · cases h
  rename_i hsize
  cases h
  refine ⟨by omega, ?_⟩
  simp only [DigestState.recordPath, DigestState.update, List.append_assoc]

theorem fileState_some {relative : String} {content : List UInt8} {executable : Bool} {links : Nat}
    (h : fileState relative content executable links s = some s') :
    Plain (.leaf (.file content executable links)) ∧
      s'.fed = s.fed ++ (Record.file relative content executable).encode := by
  unfold fileState at h
  split_ifs at h with hlinks
  obtain ⟨t, ht, rfl⟩ := Option.map_eq_some_iff.mp h
  have hbegin : s.beginFile relative content.length executable = .ok t := by
    revert ht
    cases s.beginFile relative content.length executable with
    | error e => exact nofun
    | ok u =>
      intro ht
      cases ht
      rfl
  obtain ⟨hsize, hfed⟩ := beginFile_ok hbegin
  refine ⟨⟨hsize, hlinks⟩, ?_⟩
  show t.fed ++ content = _
  rw [hfed, Record.encode]
  simp only [List.append_assoc]

/-- What a run over names feeds is what each of them does. -/
theorem foldlM_fed {f : DigestState → String → Option DigestState} {g : String → List Record}
    {names : List String} (h : names.foldlM f s = some s')
    (hstep : ∀ name ∈ names, ∀ t t', f t name = some t' →
      t'.fed = t.fed ++ (g name).flatMap Record.encode) :
    s'.fed = s.fed ++ (names.flatMap g).flatMap Record.encode := by
  induction names generalizing s with
  | nil =>
    cases h
    exact (List.append_nil _).symm
  | cons name names ih =>
    rw [List.foldlM_cons] at h
    obtain ⟨t, ht, h⟩ := Option.bind_eq_some_iff.mp h
    rw [ih h (fun other hother => hstep other (List.mem_cons_of_mem _ hother)),
      hstep name List.mem_cons_self s t ht, List.flatMap_cons, List.flatMap_append,
      List.append_assoc]

/-- Every name of a run that ends has been stepped through. -/
theorem foldlM_mem {f : DigestState → String → Option DigestState} {names : List String}
    (h : names.foldlM f s = some s') : ∀ name ∈ names, ∃ t t', f t name = some t' := by
  induction names generalizing s with
  | nil => exact fun _ hname => absurd hname List.not_mem_nil
  | cons first names ih =>
    rw [List.foldlM_cons] at h
    obtain ⟨t, ht, h⟩ := Option.bind_eq_some_iff.mp h
    intro name hname
    rcases List.mem_cons.mp hname with rfl | hrest
    · exact ⟨s, t, ht⟩
    · exact ih h name hrest

/-- **What is fed** for a tree is the bytes of its records. -/
theorem treeState_fed (h : treeState d levels root pfx s = some s') :
    s'.fed = s.fed ++ (treeRecords d levels root pfx).flatMap Record.encode := by
  induction levels generalizing root pfx s s' with
  | zero => cases h
  | succ levels ih =>
    unfold treeState at h
    split_ifs at h with haccepted
    refine foldlM_fed h fun name _ t t' ht => ?_
    unfold entryState at ht
    split at ht <;> rename_i hnode
    · have hchild := ih ht
      have hrecords : entryRecords (treeRecords d levels) d root pfx name =
          .dir (relativePath pfx name) ::
            treeRecords d levels (root ++ [name]) (relativePath pfx name) := by
        unfold entryRecords
        rw [hnode]
      rw [hrecords, hchild, List.flatMap_cons, Record.encode]
      simp only [DigestState.recordDir, DigestState.recordPath, DigestState.update,
        List.append_assoc]
    · rename_i content executable links
      have hrecords : entryRecords (treeRecords d levels) d root pfx name =
          [.file (relativePath pfx name) content executable] := by
        unfold entryRecords
        rw [hnode]
      rw [hrecords, (fileState_some ht).2, List.flatMap_cons, List.flatMap_nil, List.append_nil]
    · cases ht
    · cases ht
    · cases ht

/-- The nodes below a root that has been walked. -/
theorem treeState_plain (h : treeState d levels root pfx s = some s') {rel : Path} {x : Node Leaf}
    (hrel : rel ≠ []) (hx : d.node (root ++ rel) = some x) :
    (∀ name ∈ rel, acceptedName name = true) ∧ rel.length ≤ levels ∧ Plain x := by
  induction levels generalizing root pfx s s' rel with
  | zero => cases h
  | succ levels ih =>
    obtain ⟨name, rel, rfl⟩ := List.exists_cons_of_ne_nil hrel
    unfold treeState at h
    split_ifs at h with haccepted
    have hnode : d.node (root ++ [name]) ≠ none := by
      intro hnone
      by_cases hnil : rel = []
      · rw [hnil, hnone] at hx
        cases hx
      · have hbelow := d.none_below (by rw [hnone]; exact (Option.some_ne_none _).symm) hnil
          (p := root ++ [name])
        rw [List.append_assoc, List.singleton_append, hx] at hbelow
        cases hbelow
    have hname : name ∈ d.sortedNames root := FileTree.mem_sortedNames.mpr hnode
    have hgood := List.all_eq_true.mp haccepted.2 name hname
    obtain ⟨t, t', ht⟩ := foldlM_mem h name hname
    unfold entryState at ht
    by_cases hnil : rel = []
    · subst hnil
      refine ⟨?_, ?_, ?_⟩
      · intro other hother
        rw [List.mem_singleton.mp hother]
        exact hgood
      · exact Nat.succ_le_succ (Nat.zero_le _)
      · rw [hx] at ht
        rcases x with _ | ⟨content, executable, links⟩ | _ | _
        · trivial
        · exact (fileState_some ht).1
        · cases ht
        · cases ht
    · have hdir : d.node (root ++ [name]) = some .dir := by
        refine d.dir_above hnil ?_
        rw [List.append_assoc, List.singleton_append, hx]
        exact Option.some_ne_none _
      rw [hdir] at ht
      have hx' : d.node (root ++ [name] ++ rel) = some x := by
        rw [List.append_assoc, List.singleton_append, hx]
      obtain ⟨hnames, hlen, hplain⟩ := ih ht hnil hx'
      refine ⟨?_, Nat.succ_le_succ hlen, hplain⟩
      intro other hother
      rcases List.mem_cons.mp hother with rfl | hrest
      · exact hgood
      · exact hnames other hrest

end

/-! ## Paths -/

/-- The relative path of an entry below a directory with a relative path. -/
def pathText (pfx : String) : Path → String
  | [] => pfx
  | name :: rel => pathText (relativePath pfx name) rel

theorem toList_pathText {pfx : String} (hpfx : pfx.isEmpty = false) (rel : Path) :
    (pathText pfx rel).toList = ['/'].intercalate (pfx.toList :: rel.map String.toList) := by
  induction rel generalizing pfx with
  | nil => simp [pathText]
  | cons name rel ih =>
    have hstep : relativePath pfx name = pfx ++ "/" ++ name := by
      rw [relativePath, hpfx]
      rfl
    have hne : (relativePath pfx name).isEmpty = false := by
      rw [hstep]
      simp
    rw [pathText, ih hne, hstep]
    cases rel with
    | nil => simp
    | cons other rel => simp

/-- An accepted name is not empty and has no slash. -/
theorem acceptedName_iff_part {name : String} (h : acceptedName name = true) :
    name.isEmpty = false ∧ '/' ∉ name.toList := by
  unfold acceptedName at h
  simp only [Bool.not_eq_true', Bool.or_eq_false_iff] at h
  refine ⟨h.1.1.1.1.1.1, ?_⟩
  simpa using h.1.1.1.1.2

theorem toList_pathText_root {rel : Path} (hrel : rel ≠ [])
    (hnames : ∀ name ∈ rel, acceptedName name = true) :
    (pathText "" rel).toList = ['/'].intercalate (rel.map String.toList) := by
  obtain ⟨name, rel, rfl⟩ := List.exists_cons_of_ne_nil hrel
  have hname := (acceptedName_iff_part (hnames name List.mem_cons_self)).1
  have hfirst : relativePath "" name = name := rfl
  rw [pathText, hfirst, toList_pathText hname, List.map_cons]

/-- **A path tells its names.** -/
theorem pathText_injective {rel rel' : Path} (hrel : rel ≠ []) (hrel' : rel' ≠ [])
    (hnames : ∀ name ∈ rel, acceptedName name = true)
    (hnames' : ∀ name ∈ rel', acceptedName name = true) (h : pathText "" rel = pathText "" rel') :
    rel = rel' := by
  have hsplit : ∀ {r : Path}, r ≠ [] → (∀ name ∈ r, acceptedName name = true) →
      (pathText "" r).toList.splitOn '/' = r.map String.toList := by
    intro r hr hall
    rw [toList_pathText_root hr hall]
    refine List.splitOn_intercalate '/' ?_ ?_
    · intro l hl
      obtain ⟨name, hname, rfl⟩ := List.mem_map.mp hl
      exact (acceptedName_iff_part (hall name hname)).2
    · rw [ne_eq, List.map_eq_nil_iff]
      exact hr
  have hmap : rel.map String.toList = rel'.map String.toList := by
    rw [← hsplit hrel hnames, ← hsplit hrel' hnames', h]
  exact List.map_injective_iff.mpr (fun _ _ heq => String.toList_injective heq) hmap

/-! ## Records of entries -/

/-- The record of an entry with a path. -/
def Describes (r : Record) (path : String) : Node Leaf → Prop
  | .dir => r = .dir path
  | .leaf (.file content executable _) => r = .file path content executable
  | .leaf .symlink | .leaf .special => False

theorem Describes.unique {r : Record} {path path' : String} {x y : Node Leaf} (hx : Plain x)
    (hy : Plain y) (h : Describes r path x) (h' : Describes r path' y) : path = path' ∧ x = y := by
  rcases x with _ | ⟨content, executable, links⟩ | _ | _ <;>
    rcases y with _ | ⟨content', executable', links'⟩ | _ | _
  all_goals first | exact h.elim | exact h'.elim | skip
  · cases h.symm.trans h'
    exact ⟨rfl, rfl⟩
  · cases h.symm.trans h'
  · cases h.symm.trans h'
  · cases h.symm.trans h'
    obtain ⟨-, rfl⟩ := hx
    obtain ⟨-, rfl⟩ := hy
    exact ⟨rfl, rfl⟩

section

variable {d : Disk} {levels : Nat} {root : Path} {pfx : String}

/-- Every record is that of an entry. -/
theorem entry_of_record {r : Record} (h : r ∈ treeRecords d levels root pfx) :
    ∃ rel x, rel ≠ [] ∧ d.node (root ++ rel) = some x ∧ Describes r (pathText pfx rel) x := by
  induction levels generalizing root pfx with
  | zero => exact absurd h List.not_mem_nil
  | succ levels ih =>
    obtain ⟨name, -, hr⟩ := List.mem_flatMap.mp h
    unfold entryRecords at hr
    split at hr <;> rename_i hnode
    · rcases List.mem_cons.mp hr with rfl | hr
      · exact ⟨[name], .dir, List.cons_ne_nil _ _, hnode, rfl⟩
      · obtain ⟨rel, x, -, hx, hdescribes⟩ := ih hr
        refine ⟨name :: rel, x, List.cons_ne_nil _ _, ?_, hdescribes⟩
        rw [← hx, List.append_assoc, List.singleton_append]
    · rw [List.mem_singleton.mp hr]
      exact ⟨[name], _, List.cons_ne_nil _ _, hnode, rfl⟩
    · exact absurd hr List.not_mem_nil
    · exact absurd hr List.not_mem_nil
    · exact absurd hr List.not_mem_nil

/-- Every entry that is not too deep has its record. -/
theorem record_of_entry {rel : Path} {x : Node Leaf} (hrel : rel ≠ []) (hlen : rel.length ≤ levels)
    (hx : d.node (root ++ rel) = some x) (hplain : Plain x) :
    ∃ r ∈ treeRecords d levels root pfx, Describes r (pathText pfx rel) x := by
  induction levels generalizing root pfx rel with
  | zero => exact absurd (List.length_eq_zero_iff.mp (Nat.le_zero.mp hlen)) hrel
  | succ levels ih =>
    obtain ⟨name, rel, rfl⟩ := List.exists_cons_of_ne_nil hrel
    have hx' : d.node (root ++ [name] ++ rel) = some x := by
      rw [List.append_assoc, List.singleton_append, hx]
    by_cases hnil : rel = []
    · subst hnil
      have hname : name ∈ d.sortedNames root := by
        rw [FileTree.mem_sortedNames, hx]
        exact Option.some_ne_none _
      rcases x with _ | ⟨content, executable, links⟩ | _ | _
      · refine ⟨.dir (relativePath pfx name), List.mem_flatMap.mpr ⟨name, hname, ?_⟩, rfl⟩
        unfold entryRecords
        rw [hx]
        exact List.mem_cons_self
      · refine ⟨.file (relativePath pfx name) content executable,
          List.mem_flatMap.mpr ⟨name, hname, ?_⟩, rfl⟩
        unfold entryRecords
        rw [hx]
        exact List.mem_cons_self
      · exact hplain.elim
      · exact hplain.elim
    · have hdir : d.node (root ++ [name]) = some .dir := by
        refine d.dir_above hnil ?_
        rw [hx']
        exact Option.some_ne_none _
      have hname : name ∈ d.sortedNames root := by
        rw [FileTree.mem_sortedNames, hdir]
        exact Option.some_ne_none _
      have hchild : ∃ r ∈ treeRecords d levels (root ++ [name]) (relativePath pfx name),
          Describes r (pathText (relativePath pfx name) rel) x :=
        ih hnil (Nat.le_of_succ_le_succ hlen) hx'
      obtain ⟨r, hr, hdescribes⟩ := hchild
      refine ⟨r, List.mem_flatMap.mpr ⟨name, hname, ?_⟩, hdescribes⟩
      unfold entryRecords
      rw [hdir]
      exact List.mem_cons_of_mem _ hr

end

/-! ## Faithful -/

/-- The kernel lists a name in an entry (`linux_dirent64`) whose length has sixteen bits. -/
def Listable (d : Disk) : Prop := ∀ p name, d.node (p ++ [name]) ≠ none → len name < 2 ^ 16

theorem len_pathText {pfx : String} {rel : Path} (h : ∀ name ∈ rel, len name < 2 ^ 16) :
    len (pathText pfx rel) ≤ len pfx + 2 ^ 16 * rel.length := by
  induction rel generalizing pfx with
  | nil => exact Nat.le_refl _
  | cons name rel ih =>
    have hname := h name List.mem_cons_self
    have hstep : len (relativePath pfx name) ≤ len pfx + 2 ^ 16 := by
      unfold relativePath
      split
      · omega
      · have hslash : len "/" = 1 := by decide
        rw [len, String.utf8ByteSize_append, String.utf8ByteSize_append]
        simp only [len] at hname hslash ⊢
        omega
    have hrest : len (pathText (relativePath pfx name) rel) ≤
        len (relativePath pfx name) + 2 ^ 16 * rel.length :=
      ih (fun other hother => h other (List.mem_cons_of_mem _ hother))
    rw [pathText, List.length_cons]
    omega

section

variable {d d' : Disk} {p q : Path} {s s' : DigestState}

/-- A root that has been walked is a directory. -/
theorem treeState_root {levels : Nat} {pfx : String} (h : treeState d levels p pfx s = some s') :
    d.node p = some .dir := by
  cases levels with
  | zero => cases h
  | succ levels =>
    unfold treeState at h
    split_ifs at h with haccepted
    exact haccepted.1

theorem names_le (hmax : Listable d) {rel : Path} (h : d.node (p ++ rel) ≠ none) :
    ∀ name ∈ rel, len name < 2 ^ 16 := by
  intro name hname
  obtain ⟨before, after, rfl⟩ := List.append_of_mem hname
  refine hmax (p ++ before) name ?_
  by_cases hafter : after = []
  · rw [hafter] at h
    rwa [List.append_assoc]
  · have hdir := d.dir_above (p := p ++ before ++ [name]) hafter (by
      rwa [List.append_assoc, List.append_assoc, List.singleton_append])
    rw [hdir]
    exact Option.some_ne_none _

/-- The records of a tree that has been walked fit. -/
theorem records_fit (h : treeState d (maxCheckpointDepth + 1) p "" s = some s') (hmax : Listable d) :
    ∀ r ∈ treeRecords d (maxCheckpointDepth + 1) p "", r.Fits := by
  intro r hr
  obtain ⟨rel, x, hrel, hx, hdescribes⟩ := entry_of_record hr
  obtain ⟨-, hlen, hplain⟩ := treeState_plain h hrel hx
  have hpath : len (pathText "" rel) ≤ 2 ^ 16 * 129 := by
    have hnames : ∀ name ∈ rel, len name < 2 ^ 16 := by
      refine names_le hmax (p := p) ?_
      rw [hx]
      exact Option.some_ne_none _
    have hle : len (pathText "" rel) ≤ len "" + 2 ^ 16 * rel.length := len_pathText hnames
    have hempty : len "" = 0 := by decide
    have hdepth : rel.length ≤ 129 := hlen
    omega
  rcases x with _ | ⟨content, executable, links⟩ | _ | _
  · obtain rfl : r = .dir (pathText "" rel) := hdescribes
    exact ⟨Nat.lt_of_le_of_lt hpath (by decide), Nat.two_pow_pos 64⟩
  · obtain rfl : r = .file (pathText "" rel) content executable := hdescribes
    exact ⟨Nat.lt_of_le_of_lt hpath (by decide), Nat.lt_of_le_of_lt hplain.1 (by decide)⟩
  · exact hdescribes.elim
  · exact hdescribes.elim

/-- Where the records are the same, so are the entries. -/
theorem node_of_records (h : treeState d (maxCheckpointDepth + 1) p "" .new = some s)
    (h' : treeState d' (maxCheckpointDepth + 1) q "" .new = some s')
    (heq : treeRecords d (maxCheckpointDepth + 1) p "" =
      treeRecords d' (maxCheckpointDepth + 1) q "")
    {rel : Path} {x : Node Leaf} (hrel : rel ≠ []) (hx : d.node (p ++ rel) = some x) :
    d'.node (q ++ rel) = some x := by
  obtain ⟨hnames, hlen, hplain⟩ := treeState_plain h hrel hx
  have hrecord : ∃ r ∈ treeRecords d (maxCheckpointDepth + 1) p "",
      Describes r (pathText "" rel) x := record_of_entry hrel hlen hx hplain
  obtain ⟨r, hr, hdescribes⟩ := hrecord
  rw [heq] at hr
  obtain ⟨rel', y, hrel', hy, hdescribes'⟩ := entry_of_record hr
  obtain ⟨hnames', -, hplain'⟩ := treeState_plain h' hrel' hy
  obtain ⟨hpath, rfl⟩ := hdescribes.unique hplain hplain' hdescribes'
  rw [pathText_injective hrel hrel' hnames hnames' hpath]
  exact hy

/-- **The bytes that are fed tell the tree.** -/
theorem fed_eq_iff (h : treeState d (maxCheckpointDepth + 1) p "" .new = some s)
    (h' : treeState d' (maxCheckpointDepth + 1) q "" .new = some s') (hmax : Listable d)
    (hmax' : Listable d') : s.fed = s'.fed ↔ d.sub p = d'.sub q := by
  constructor
  · intro hfed
    rw [treeState_fed h, treeState_fed h'] at hfed
    have heq := Record.flatMap_encode (records_fit h hmax) (records_fit h' hmax')
      (List.append_cancel_left hfed)
    funext rel
    by_cases hrel : rel = []
    · rw [hrel, FileTree.sub_nil, FileTree.sub_nil, treeState_root h, treeState_root h']
    · refine Option.ext fun x => ⟨fun hx => ?_, fun hx => ?_⟩
      · exact node_of_records h h' heq hrel hx
      · exact node_of_records h' h heq.symm hrel hx
  · intro hsub
    rw [treeState_congr hsub.symm, h] at h'
    cases h'
    rfl

end

section

variable {w : Nat → World} {n : Nat} {d : Disk} {sha256 : List UInt8 → String}

theorem walked {root : Path} {s : DigestState}
    (h : (runAlone Disk.exec w (hashDirRecursive (maxCheckpointDepth + 1) root "" .new) n d).1 =
      .ok s) : treeState d (maxCheckpointDepth + 1) root "" .new = some s := by
  have hwalk : Wp (Watch (During w) (fun _ => True)) ()
      (hashDirRecursive (maxCheckpointDepth + 1) root "" .new) _ _ d := wp_hashDirRecursive trivial
  have hrun := wp_during hwalk n
  rw [h] at hrun
  exact hrun.2

theorem digested {root : Path} {digest : TreeDigest}
    (h : (runAlone Disk.exec w (digestTree sha256 root) n d).1 = .ok digest) :
    treeDigest sha256 d root = some digest := by
  have hwalk : Wp (Watch (During w) (fun _ => True)) () (digestTree sha256 root) _ _ d :=
    wp_digestTree trivial
  have hrun := wp_during hwalk n
  rw [h] at hrun
  exact hrun.2

/-- What a copy that has been made is. -/
theorem copied {source dest : Path} {digest : TreeDigest} (hapart : Apart source dest)
    (hdest : d.node dest = some .dir) (hempty : ∀ rel, rel ≠ [] → d.node (dest ++ rel) = none)
    (h : (runAlone Disk.exec w (copyTreeAndDigest sha256 source dest) n d).1 = .ok digest) :
    (runAlone Disk.exec w (copyTreeAndDigest sha256 source dest) n d).2.2.sub dest = d.sub source ∧
      treeDigest sha256 d source = some digest := by
  have hcopy : Wp (Watch (During w) (fun _ => True)) () (copyTreeAndDigest sha256 source dest) _ _
    d := wp_copyTreeAndDigest (fun _ _ => trivial) hapart hdest hempty
  have hrun := wp_during hcopy n
  rw [h] at hrun
  obtain ⟨⟨hbelow, hsame⟩, hdigest⟩ := hrun
  refine ⟨?_, hdigest⟩
  funext rel
  by_cases hrel : rel = []
  · obtain ⟨s, hs, -⟩ := Option.map_eq_some_iff.mp hdigest
    rw [hrel, FileTree.sub_nil, FileTree.sub_nil, hbelow.self, hdest, treeState_root hs]
  · exact hsame rel hrel

end

/-- **The digest is faithful.**  Walks of two trees feed the same bytes just when the trees are the
    same.  A copy is the tree that was copied, and its digest is the one computed while copying;
    where nothing fails, every tree that can be walked can be copied. -/
theorem tree_digest_faithful :
    (∀ (w w' : Nat → World) (n n' : Nat) (d d' : Disk) (p q : Path) (s s' : DigestState),
      Listable d → Listable d' →
      (runAlone Disk.exec w (hashDirRecursive (maxCheckpointDepth + 1) p "" .new) n d).1 = .ok s →
      (runAlone Disk.exec w' (hashDirRecursive (maxCheckpointDepth + 1) q "" .new) n' d').1 =
        .ok s' →
      (s.fed = s'.fed ↔ d.sub p = d'.sub q)) ∧
    (∀ (sha256 : List UInt8 → String) (w w' : Nat → World) (n n' : Nat) (d t : Disk)
      (source dest : Path) (digest digest' : TreeDigest),
      Apart source dest → d.node dest = some .dir →
      (∀ rel, rel ≠ [] → d.node (dest ++ rel) = none) →
      (runAlone Disk.exec w (copyTreeAndDigest sha256 source dest) n d).1 = .ok digest →
      (runAlone Disk.exec w (copyTreeAndDigest sha256 source dest) n d).2.2 = t →
      t.sub dest = d.sub source ∧
        ((runAlone Disk.exec w' (digestTree sha256 source) n' d).1 = .ok digest' →
          digest' = digest) ∧
        ((runAlone Disk.exec w' (digestTree sha256 dest) n' t).1 = .ok digest' →
          digest' = digest)) ∧
    ∀ (sha256 : List UInt8 → String) (w w' : Nat → World) (n n' : Nat) (d : Disk)
      (source dest : Path) (digest : TreeDigest),
      (∀ k, (w k).fails = false) → Apart source dest → d.node dest = some .dir →
      (∀ rel, rel ≠ [] → d.node (dest ++ rel) = none) →
      (runAlone Disk.exec w' (digestTree sha256 source) n' d).1 = .ok digest →
      ∃ after, runAlone Disk.exec w (copyTreeAndDigest sha256 source dest) n d = (.ok digest, after) ∧
        (runAlone Disk.exec w (digestTree sha256 dest) after.1 after.2).1 = .ok digest := by
  refine ⟨?_, ?_, ?_⟩
  · intro w w' n n' d d' p q s s' hmax hmax' hrun hrun'
    exact fed_eq_iff (walked hrun) (walked hrun') hmax hmax'
  · intro sha256 w w' n n' d t source dest digest digest' hapart hdest hempty hrun ht
    obtain ⟨hcopied, hdigest⟩ := copied hapart hdest hempty hrun
    rw [ht] at hcopied
    refine ⟨hcopied, fun hagain => ?_, fun hagain => ?_⟩
    · have hsource := digested hagain
      rw [hdigest] at hsource
      cases hsource
      rfl
    · have hcopy := digested hagain
      rw [treeDigest_congr hcopied, hdigest] at hcopy
      cases hcopy
      rfl
  · intro sha256 w w' n n' d source dest digest hcalm hapart hdest hempty hwalk
    have hsource := digested hwalk
    have hduring : Calm (During w) := by
      rintro v ⟨k, rfl⟩
      exact hcalm k
    rcases hrun : runAlone Disk.exec w (copyTreeAndDigest sha256 source dest) n d with ⟨answer, after⟩
    have hcopy : Wp (Watch (During w) (fun _ => True)) () (copyTreeAndDigest sha256 source dest) _ _
      d := wp_copyTreeAndDigest (fun _ _ => trivial) hapart hdest hempty
    cases answer with
    | error e =>
      have hnone := (wp_during_error hcopy hrun).2 hduring
      rw [hsource] at hnone
      cases hnone
    | ok digest' =>
      have hone : (runAlone Disk.exec w (copyTreeAndDigest sha256 source dest) n d).1 =
          .ok digest' := by rw [hrun]
      obtain ⟨hcopied, hdigest⟩ := copied hapart hdest hempty hone
      rw [hrun] at hcopied
      rw [hsource] at hdigest
      cases hdigest
      refine ⟨after, rfl, ?_⟩
      rcases hrun' : runAlone Disk.exec w (digestTree sha256 dest) after.1 after.2 with
        ⟨answer', after'⟩
      have hagain : Wp (Watch (During w) (fun _ => True)) () (digestTree sha256 dest) _ _ after.2 :=
        wp_digestTree trivial
      cases answer' with
      | error e =>
        have hnone := (wp_during_error hagain hrun').2 hduring
        rw [treeDigest_congr hcopied, hsource] at hnone
        cases hnone
      | ok digest' =>
        have hsome := (wp_during_ok hagain hrun').2
        rw [treeDigest_congr hcopied, hsource] at hsome
        cases hsome
        rfl

/-- A directory with a file in it, and an empty one. -/
def twoTrees : Disk :=
  afterAll (do
    createDir [] "source" ""
    createDir ["source"] "src" ""
    io (.createFile ["source", "src"] "main" true) ""
    io (.writeAll ["source", "src"] "main" [1, 2, 3]) ""
    createDir [] "dest" "") freshDisk

/-- What is fed for the first, and its SHA-256. -/
def sampleFed : List UInt8 :=
  [68, 0, 0, 0, 0, 0, 0, 0, 3, 115, 114, 99, 70, 0, 0, 0, 0, 0, 0, 0, 8, 115, 114, 99, 47, 109, 97,
    105, 110, 0, 0, 0, 0, 0, 0, 0, 3, 1, 1, 2, 3]

def sampleSha256 (bytes : List UInt8) : String :=
  if bytes = sampleFed then "dca4b39fa935fe4cf1e4896935c350ba885c2f9a43a0e6e54da15a41c2fc70a3" else ""

/-- What is there is among the paths of the tree. -/
theorem twoTrees_paths {p : Path} (h : twoTrees.node p ≠ none) :
    (∀ name ∈ p, len name < 2 ^ 16) ∧ (["dest"] <+: p → p = ["dest"]) := by
  have hall : ∀ q ∈ twoTrees.paths,
      (∀ name ∈ q, len name < 2 ^ 16) ∧ (["dest"] <+: q → q = ["dest"]) := by
    decide
  exact hall p (twoTrees.covered p h)

theorem twoTrees_listable : Listable twoTrees := by
  intro p name h
  exact (twoTrees_paths h).1 name (List.mem_append_right _ List.mem_cons_self)

theorem twoTrees_empty : ∀ rel, rel ≠ [] → twoTrees.node (["dest"] ++ rel) = none := by
  intro rel hrel
  by_contra h
  have heq := (twoTrees_paths h).2 (List.prefix_append _ _)
  exact hrel (List.append_right_eq_self.mp heq)

theorem tree_digest_faithful_sample :
    (sampleFed = [] ↔ twoTrees.sub ["source"] = twoTrees.sub ["dest"]) ∧
    (afterAll (copyTreeAndDigest sampleSha256 ["source"] ["dest"]) twoTrees).sub ["dest"] =
      twoTrees.sub ["source"] ∧
    ∃ after, runAlone Disk.exec quiet (copyTreeAndDigest sampleSha256 ["source"] ["dest"]) 0 twoTrees =
        (.ok ⟨1, 3, sampleSha256 sampleFed⟩, after) ∧
      (runAlone Disk.exec quiet (digestTree sampleSha256 ["dest"]) after.1 after.2).1 =
        .ok ⟨1, 3, sampleSha256 sampleFed⟩ := by
  have hapart : Apart ["source"] ["dest"] := by
    unfold Apart
    decide
  have hdest : twoTrees.node ["dest"] = some .dir := by decide
  refine ⟨?_, ?_, ?_⟩
  · exact tree_digest_faithful.1 quiet quiet 0 0 twoTrees twoTrees ["source"] ["dest"]
      ⟨sampleFed, 1, 3⟩ .new twoTrees_listable twoTrees_listable (by decide)
      (by decide)
  · exact (tree_digest_faithful.2.1 sampleSha256 quiet quiet 0 0 twoTrees _ ["source"] ["dest"]
      ⟨1, 3, sampleSha256 sampleFed⟩ ⟨1, 3, sampleSha256 sampleFed⟩ hapart hdest twoTrees_empty
      (by decide) rfl).1
  · exact tree_digest_faithful.2.2 sampleSha256 quiet quiet 0 0 twoTrees ["source"] ["dest"] _
      (fun _ => rfl) hapart hdest twoTrees_empty (by decide)

end VibeCoder.Checkpoint.Digest
