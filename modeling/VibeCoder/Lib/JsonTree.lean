/-
  Trees of values, arrays and objects.

  1. **Trees** — an object is the list of its members: a key can stand in it twice, as in a text
     that has only been split into tokens.

  2. **Nodes** — `Within sub depth tree`: `sub` is a node of the tree, `depth` levels below its root.

  3. **What a tree says about its nodes** — how deep they are (`Reaches`), the keys of its objects
     (`HasKey`), and whether an object repeats one (`Repeats`); each with its equations, which follow
     the constructors.
-/
import Mathlib.Data.List.Basic

namespace JsonTree

/-- A tree with values of `α` at its leaves. -/
inductive Tree (α : Type) where
  | scalar (value : α)
  | array (items : List (Tree α))
  | object (members : List (String × Tree α))

/-- The keys of members. -/
abbrev keys {α : Type} (members : List (String × Tree α)) : List String := members.map Prod.fst

variable {α : Type}

theorem keys_cons (m : String × Tree α) (members : List (String × Tree α)) :
    keys (m :: members) = m.1 :: keys members := rfl

/-- Induction on a tree: over all items, over all values of members. -/
@[elab_as_elim]
theorem Tree.induction {motive : Tree α → Prop} (scalar : ∀ value, motive (.scalar value))
    (array : ∀ items, (∀ item ∈ items, motive item) → motive (.array items))
    (object : ∀ members : List (String × Tree α), (∀ m ∈ members, motive m.2) →
      motive (.object members)) (tree : Tree α) : motive tree :=
  @Tree.rec α motive (fun items => ∀ item ∈ items, motive item)
    (fun members => ∀ m ∈ members, motive m.2) (fun m => motive m.2) scalar array object
    (fun _ h => absurd h List.not_mem_nil)
    (fun _ _ hhead hrest => List.forall_mem_cons.mpr ⟨hhead, hrest⟩)
    (fun _ h => absurd h List.not_mem_nil)
    (fun _ _ hhead hrest => List.forall_mem_cons.mpr ⟨hhead, hrest⟩)
    (fun _ _ h => h) tree

/-! ## Nodes -/

/-- A node of the tree, and how many levels it is below the root. -/
inductive Within (sub : Tree α) : Nat → Tree α → Prop where
  | here : Within sub 0 sub
  | item {items : List (Tree α)} {item : Tree α} {depth : Nat} (hmem : item ∈ items)
      (h : Within sub depth item) : Within sub (depth + 1) (.array items)
  | member {members : List (String × Tree α)} {m : String × Tree α} {depth : Nat}
      (hmem : m ∈ members) (h : Within sub depth m.2) : Within sub (depth + 1) (.object members)

/-- Some node is that many levels down. -/
def Reaches (depth : Nat) (tree : Tree α) : Prop := ∃ sub, Within sub depth tree

/-- Some object of the tree, by its members, has a property. -/
def SomeObject (P : List (String × Tree α) → Prop) (tree : Tree α) : Prop :=
  ∃ members depth, Within (.object members) depth tree ∧ P members

/-- Some object has a member with the key. -/
def HasKey (key : String) (tree : Tree α) : Prop := SomeObject (fun ms => key ∈ keys ms) tree

/-- Some object has two members with one key. -/
def Repeats (tree : Tree α) : Prop := SomeObject (fun ms => ¬ (keys ms).Nodup) tree

/-! ## Equations -/

theorem within_scalar {sub : Tree α} {depth : Nat} {value : α} :
    Within sub depth (.scalar value) ↔ depth = 0 ∧ sub = .scalar value := by
  constructor
  · intro h
    cases h
    exact ⟨rfl, rfl⟩
  · rintro ⟨rfl, rfl⟩
    exact .here

theorem within_array {sub : Tree α} {depth : Nat} {items : List (Tree α)} :
    Within sub depth (.array items) ↔ (depth = 0 ∧ sub = .array items) ∨
      ∃ item ∈ items, ∃ d, depth = d + 1 ∧ Within sub d item := by
  constructor
  · intro h
    cases h with
    | here => exact .inl ⟨rfl, rfl⟩
    | item hmem h => exact .inr ⟨_, hmem, _, rfl, h⟩
  · rintro (⟨rfl, rfl⟩ | ⟨item, hmem, d, rfl, h⟩)
    · exact .here
    · exact .item hmem h

theorem within_object {sub : Tree α} {depth : Nat} {members : List (String × Tree α)} :
    Within sub depth (.object members) ↔ (depth = 0 ∧ sub = .object members) ∨
      ∃ m ∈ members, ∃ d, depth = d + 1 ∧ Within sub d m.2 := by
  constructor
  · intro h
    cases h with
    | here => exact .inl ⟨rfl, rfl⟩
    | member hmem h => exact .inr ⟨_, hmem, _, rfl, h⟩
  · rintro (⟨rfl, rfl⟩ | ⟨m, hmem, d, rfl, h⟩)
    · exact .here
    · exact .member hmem h

theorem reaches_scalar {depth : Nat} {value : α} : Reaches depth (.scalar value) ↔ depth = 0 := by
  constructor
  · rintro ⟨sub, h⟩
    exact (within_scalar.mp h).1
  · rintro rfl
    exact ⟨_, .here⟩

theorem reaches_array {depth : Nat} {items : List (Tree α)} :
    Reaches depth (.array items) ↔ depth = 0 ∨
      ∃ item ∈ items, ∃ d, depth = d + 1 ∧ Reaches d item := by
  constructor
  · rintro ⟨sub, h⟩
    rcases within_array.mp h with ⟨rfl, -⟩ | ⟨item, hmem, d, rfl, hitem⟩
    · exact .inl rfl
    · exact .inr ⟨item, hmem, d, rfl, sub, hitem⟩
  · rintro (rfl | ⟨item, hmem, d, rfl, sub, h⟩)
    · exact ⟨_, .here⟩
    · exact ⟨sub, .item hmem h⟩

theorem reaches_object {depth : Nat} {members : List (String × Tree α)} :
    Reaches depth (.object members) ↔ depth = 0 ∨
      ∃ m ∈ members, ∃ d, depth = d + 1 ∧ Reaches d m.2 := by
  constructor
  · rintro ⟨sub, h⟩
    rcases within_object.mp h with ⟨rfl, -⟩ | ⟨m, hmem, d, rfl, hvalue⟩
    · exact .inl rfl
    · exact .inr ⟨m, hmem, d, rfl, sub, hvalue⟩
  · rintro (rfl | ⟨m, hmem, d, rfl, sub, h⟩)
    · exact ⟨_, .here⟩
    · exact ⟨sub, .member hmem h⟩

variable {P : List (String × Tree α) → Prop}

theorem someObject_scalar {value : α} : ¬ SomeObject P (.scalar value) := by
  rintro ⟨members, depth, h, -⟩
  cases (within_scalar.mp h).2

theorem someObject_array {items : List (Tree α)} :
    SomeObject P (.array items) ↔ ∃ item ∈ items, SomeObject P item := by
  constructor
  · rintro ⟨members, depth, h, hP⟩
    rcases within_array.mp h with ⟨-, hroot⟩ | ⟨item, hmem, d, -, h⟩
    · cases hroot
    · exact ⟨item, hmem, members, d, h, hP⟩
  · rintro ⟨item, hmem, members, depth, h, hP⟩
    exact ⟨members, depth + 1, .item hmem h, hP⟩

theorem someObject_object {members : List (String × Tree α)} :
    SomeObject P (.object members) ↔ P members ∨ ∃ m ∈ members, SomeObject P m.2 := by
  constructor
  · rintro ⟨members', depth, h, hP⟩
    rcases within_object.mp h with ⟨-, hroot⟩ | ⟨m, hmem, d, -, h⟩
    · cases hroot
      exact .inl hP
    · exact .inr ⟨m, hmem, members', d, h, hP⟩
  · rintro (hP | ⟨m, hmem, members', depth, h, hP⟩)
    · exact ⟨members, 0, .here, hP⟩
    · exact ⟨members', depth + 1, .member hmem h, hP⟩

end JsonTree
