/-
  Directories as they are listed.

  A node is a leaf, which holds an `φ`, or a directory with its entries in some order.

  1. **Reading** — `get` goes down a path, `leaves` lists every leaf with its path, in the order of
     the entries.

  2. **Distinct names** — `AllDirs P`: `P` holds of the entries of every directory.  Where no
     directory lists a name twice, what is listed is what is found (`mem_leaves_iff_get`), and no
     path is listed twice (`leaves_nodup`).
-/
import Mathlib.Data.List.Basic
import Mathlib.Data.List.Nodup

namespace NodeTree

/-- A node of a tree with names `ν`. -/
inductive Node (ν φ : Type) where
  | leaf (value : φ)
  | dir (entries : List (ν × Node ν φ))

variable {ν φ : Type}

/-- Induction on a node: over the nodes of all entries. -/
@[elab_as_elim]
theorem Node.induction {motive : Node ν φ → Prop} (leaf : ∀ value, motive (.leaf value))
    (dir : ∀ entries : List (ν × Node ν φ), (∀ e ∈ entries, motive e.2) → motive (.dir entries))
    (node : Node ν φ) : motive node :=
  @Node.rec ν φ motive (fun entries => ∀ e ∈ entries, motive e.2) (fun e => motive e.2) leaf dir
    (fun _ h => absurd h List.not_mem_nil)
    (fun _ _ hhead hrest => List.forall_mem_cons.mpr ⟨hhead, hrest⟩)
    (fun _ _ h => h) node

/-! ## Reading -/

section

variable [DecidableEq ν]

/-- The node at a path. -/
def get : List ν → Node ν φ → Option (Node ν φ)
  | [], node => some node
  | _ :: _, .leaf _ => none
  | name :: rest, .dir entries => (entries.lookup name).bind (get rest)

theorem get_append (p q : List ν) (node : Node ν φ) :
    get (p ++ q) node = (get p node).bind (get q) := by
  induction p generalizing node with
  | nil => rfl
  | cons name rest ih =>
    cases node with
    | leaf value => rfl
    | dir entries =>
      rw [List.cons_append, get, get]
      cases entries.lookup name with
      | none => rfl
      | some child => exact ih child

end

mutual

/-- The leaves with their paths. -/
def leaves : Node ν φ → List (List ν × φ)
  | .leaf value => [([], value)]
  | .dir entries => entryLeaves entries

/-- Those below the entries of a directory. -/
def entryLeaves : List (ν × Node ν φ) → List (List ν × φ)
  | [] => []
  | (name, node) :: rest =>
    (leaves node).map (fun leaf => (name :: leaf.1, leaf.2)) ++ entryLeaves rest

end

theorem mem_entryLeaves {entries : List (ν × Node ν φ)} {path : List ν} {value : φ} :
    (path, value) ∈ entryLeaves entries ↔
      ∃ e ∈ entries, ∃ rest, path = e.1 :: rest ∧ (rest, value) ∈ leaves e.2 := by
  induction entries with
  | nil =>
    rw [entryLeaves]
    exact iff_of_false List.not_mem_nil (fun h => List.not_mem_nil h.choose_spec.1)
  | cons e entries ih =>
    obtain ⟨name, node⟩ := e
    rw [entryLeaves, List.mem_append, ih, List.exists_mem_cons_iff, List.mem_map]
    refine or_congr_left ⟨?_, ?_⟩
    · rintro ⟨⟨rest, _⟩, hleaf, ⟨⟩⟩
      exact ⟨rest, rfl, hleaf⟩
    · rintro ⟨rest, rfl, hleaf⟩
      exact ⟨(rest, value), hleaf, rfl⟩

/-! ## Every directory -/

mutual

/-- The entries of every directory have the property. -/
def AllDirs (P : List (ν × Node ν φ) → Prop) : Node ν φ → Prop
  | .leaf _ => True
  | .dir entries => P entries ∧ AllBelow P entries

def AllBelow (P : List (ν × Node ν φ) → Prop) : List (ν × Node ν φ) → Prop
  | [] => True
  | (_, node) :: rest => AllDirs P node ∧ AllBelow P rest

end

theorem allBelow_iff {P : List (ν × Node ν φ) → Prop} {entries : List (ν × Node ν φ)} :
    AllBelow P entries ↔ ∀ e ∈ entries, AllDirs P e.2 := by
  induction entries with
  | nil =>
    rw [AllBelow]
    exact iff_of_true trivial (fun _ h => absurd h List.not_mem_nil)
  | cons e entries ih =>
    rw [AllBelow, List.forall_mem_cons, ih]

theorem allDirs_dir {P : List (ν × Node ν φ) → Prop} {entries : List (ν × Node ν φ)} :
    AllDirs P (.dir entries) ↔ P entries ∧ ∀ e ∈ entries, AllDirs P e.2 := by
  rw [AllDirs, allBelow_iff]

/-- No name twice. -/
def DistinctNames (entries : List (ν × Node ν φ)) : Prop := (entries.map Prod.fst).Nodup

/-- A property of the entries' names holds of the names on every path. -/
theorem names_of_leaves {Q : ν → Prop} {node : Node ν φ}
    (h : AllDirs (fun entries => ∀ e ∈ entries, Q e.1) node) {path : List ν} {value : φ}
    (hleaf : (path, value) ∈ leaves node) : ∀ name ∈ path, Q name := by
  induction node using Node.induction generalizing path with
  | leaf value' =>
    rw [leaves, List.mem_singleton] at hleaf
    cases hleaf
    exact fun _ hnone => absurd hnone List.not_mem_nil
  | dir entries ih =>
    rw [leaves, mem_entryLeaves] at hleaf
    obtain ⟨e, he, rest, rfl, hleaf⟩ := hleaf
    obtain ⟨hnames, hbelow⟩ := allDirs_dir.mp h
    exact List.forall_mem_cons.mpr ⟨hnames e he, ih e he (hbelow e he) hleaf⟩

theorem AllDirs.mono {P Q : List (ν × Node ν φ) → Prop} (hPQ : ∀ entries, P entries → Q entries)
    {node : Node ν φ} (h : AllDirs P node) : AllDirs Q node := by
  induction node using Node.induction with
  | leaf value =>
    rw [AllDirs]
    exact trivial
  | dir entries ih =>
    obtain ⟨hhere, hbelow⟩ := allDirs_dir.mp h
    exact allDirs_dir.mpr ⟨hPQ entries hhere, fun e he => ih e he (hbelow e he)⟩

/-! ## Distinct names -/

section

variable [DecidableEq ν]

theorem lookup_of_mem {β : Type} {entries : List (ν × β)} (h : (entries.map Prod.fst).Nodup)
    {e : ν × β} (he : e ∈ entries) : entries.lookup e.1 = some e.2 := by
  induction entries with
  | nil => exact absurd he List.not_mem_nil
  | cons head rest ih =>
    obtain ⟨hfresh, hrest⟩ := List.nodup_cons.mp h
    rcases List.mem_cons.mp he with rfl | he
    · exact List.lookup_cons_self
    · have hne : (e.1 == head.1) = false := by
        rw [beq_eq_false_iff_ne]
        intro heq
        exact hfresh (heq ▸ List.mem_map_of_mem he)
      rw [List.lookup_cons, hne]
      exact ih hrest he

theorem mem_of_lookup {β : Type} {entries : List (ν × β)} {name : ν} {value : β}
    (h : entries.lookup name = some value) : (name, value) ∈ entries := by
  induction entries with
  | nil => cases h
  | cons head rest ih =>
    rw [List.lookup_cons] at h
    cases hname : name == head.1 with
    | true =>
      rw [hname] at h
      cases h
      rw [beq_iff_eq.mp hname]
      exact List.mem_cons_self
    | false =>
      rw [hname] at h
      exact List.mem_cons_of_mem _ (ih h)

/-- **What is listed is what is found.** -/
theorem mem_leaves_iff_get {node : Node ν φ} (h : AllDirs DistinctNames node) {path : List ν}
    {value : φ} : (path, value) ∈ leaves node ↔ get path node = some (.leaf value) := by
  induction node using Node.induction generalizing path with
  | leaf value' =>
    rw [leaves, List.mem_singleton]
    cases path with
    | nil =>
      rw [get]
      constructor
      · intro heq
        cases heq
        rfl
      · intro heq
        cases heq
        rfl
    | cons name rest =>
      rw [get]
      exact iff_of_false (fun heq => by cases heq) (fun heq => by cases heq)
  | dir entries ih =>
    obtain ⟨hdistinct, hbelow⟩ := allDirs_dir.mp h
    rw [leaves, mem_entryLeaves]
    constructor
    · rintro ⟨e, he, rest, rfl, hleaf⟩
      rw [get, lookup_of_mem hdistinct he]
      exact (ih e he (hbelow e he)).mp hleaf
    · intro hget
      cases path with
      | nil =>
        rw [get] at hget
        cases hget
      | cons name rest =>
        rw [get] at hget
        obtain ⟨child, hchild, hget⟩ := Option.bind_eq_some_iff.mp hget
        have hmem := mem_of_lookup hchild
        exact ⟨(name, child), hmem, rest, rfl, (ih _ hmem (hbelow _ hmem)).mpr hget⟩

end

/-- No path is listed twice. -/
theorem leaves_nodup {node : Node ν φ} (h : AllDirs DistinctNames node) :
    ((leaves node).map Prod.fst).Nodup := by
  induction node using Node.induction with
  | leaf value =>
    rw [leaves]
    exact List.nodup_singleton _
  | dir entries ih =>
    obtain ⟨hdistinct, hbelow⟩ := allDirs_dir.mp h
    rw [leaves]
    clear h
    induction entries with
    | nil =>
      rw [entryLeaves]
      exact List.nodup_nil
    | cons e entries ihe =>
      obtain ⟨name, node⟩ := e
      obtain ⟨hfresh, hrest⟩ := List.nodup_cons.mp hdistinct
      obtain ⟨hnode, hlater⟩ := List.forall_mem_cons.mp hbelow
      obtain ⟨ihnode, ihlater⟩ := List.forall_mem_cons.mp ih
      have hfirst := ihnode hnode
      rw [entryLeaves, List.map_append, List.map_map, List.nodup_append]
      refine ⟨?_, ihe ihlater hrest hlater, ?_⟩
      · have hcons : (leaves node).map (Prod.fst ∘ fun leaf => (name :: leaf.1, leaf.2)) =
            ((leaves node).map Prod.fst).map (name :: ·) := by
          rw [List.map_map]
          rfl
        rw [hcons]
        exact hfirst.map (fun _ _ heq => (List.cons.inj heq).2)
      · intro p hp q hq heq
        obtain ⟨leaf, -, rfl⟩ := List.mem_map.mp hp
        obtain ⟨other, hother, rfl⟩ := List.mem_map.mp hq
        obtain ⟨e, he, rest, hpath, -⟩ := mem_entryLeaves.mp hother
        rw [hpath] at heq
        exact hfresh (List.mem_map.mpr ⟨e, he, (List.cons.inj heq).1.symm⟩)

end NodeTree
