/-
  Trees of named nodes, addressed by path.

  A `FileTree ν φ` maps finitely many paths (lists of names `ν`, from the root down) to nodes: a
  directory, or a leaf holding a `φ`.  That a node lies in a directory, and that only finitely many
  paths are used, are fields, so that no operation can leave an orphan.

  * `names`    — what a directory lists, each name once, in an order that means nothing;
  * `insert`   — a new node, or another leaf in place of one;
  * `prune`    — removal of a subtree, wholly or cut short at any point;
  * `exchange` — two children of a directory swap their names; with one of them absent, a rename;
  * `sub`      — the subtree at a path; two trees that agree there list the same names below it.

  Each operation comes with what it leaves alone (`insert_other`, `prune_other`, `exchange_other`).
-/
import Mathlib.Data.List.Sort
import Mathlib.Data.List.Infix
import Mathlib.Data.List.Dedup
import Mathlib.Logic.Equiv.Basic

namespace Files

variable {ν φ : Type*}

/-- A node of a tree. -/
inductive Node (φ : Type*) where
  | dir
  | leaf (x : φ)
  deriving DecidableEq, Repr

/-- Finitely many named nodes, each in a directory. -/
structure FileTree (ν φ : Type*) where
  node : List ν → Option (Node φ)
  paths : List (List ν)
  covered : ∀ p, node p ≠ none → p ∈ paths
  rooted : ∀ p n, node (p ++ [n]) ≠ none → node p = some .dir

namespace FileTree

/-- The subtree at a path. -/
def sub (t : FileTree ν φ) (p : List ν) : List ν → Option (Node φ) := fun rel => t.node (p ++ rel)

@[simp] theorem sub_nil (t : FileTree ν φ) (p : List ν) : t.sub p [] = t.node p := by
  unfold sub
  rw [List.append_nil]

theorem sub_append (t : FileTree ν φ) (p q rel : List ν) :
    t.sub (p ++ q) rel = t.sub p (q ++ rel) := by
  unfold sub
  rw [List.append_assoc]

/-- Whatever lies above a node is a directory. -/
theorem dir_above (t : FileTree ν φ) {p rel : List ν} (hrel : rel ≠ [])
    (h : t.node (p ++ rel) ≠ none) : t.node p = some .dir := by
  induction rel using List.reverseRecOn with
  | nil => exact absurd rfl hrel
  | append_singleton rel n ih =>
    rw [← List.append_assoc] at h
    have hparent := t.rooted _ _ h
    by_cases hnil : rel = []
    · rw [hnil, List.append_nil] at hparent
      exact hparent
    · refine ih hnil ?_
      rw [hparent]
      exact Option.some_ne_none _

/-- Nothing lies below a path that is not a directory. -/
theorem none_below (t : FileTree ν φ) {p rel : List ν} (hp : t.node p ≠ some .dir)
    (hrel : rel ≠ []) : t.node (p ++ rel) = none := by
  by_contra h
  exact hp (t.dir_above hrel h)

variable [DecidableEq ν]

/-! ## Listing a directory -/

/-- The name of a child. -/
def childOf (p q : List ν) : Option ν :=
  match q.dropPrefix? p with
  | some [n] => some n
  | _ => none

theorem childOf_eq_some {p q : List ν} {n : ν} : childOf p q = some n ↔ q = p ++ [n] := by
  unfold childOf
  split
  · rename_i m heq
    obtain ⟨p', hq, hp⟩ := List.dropPrefix?_eq_some_iff.mp heq
    rw [beq_iff_eq] at hp
    subst hp
    rw [hq]
    constructor
    · intro h
      cases h
      rfl
    · intro h
      rw [List.append_cancel_left_eq, List.cons.injEq] at h
      rw [h.1]
  · rename_i hnone
    constructor
    · intro h
      cases h
    · rintro rfl
      exact absurd (List.dropPrefix?_eq_some_iff.mpr ⟨p, rfl, beq_self_eq_true p⟩) (hnone n)

/-- The names in a directory. -/
def names (t : FileTree ν φ) (p : List ν) : List ν :=
  ((t.paths.filterMap (childOf p)).filter (fun n => (t.node (p ++ [n])).isSome)).dedup

@[simp] theorem mem_names {t : FileTree ν φ} {p : List ν} {n : ν} :
    n ∈ t.names p ↔ t.node (p ++ [n]) ≠ none := by
  unfold names
  rw [List.mem_dedup, List.mem_filter, ← Option.isSome_iff_ne_none]
  refine ⟨fun h => h.2, fun h => ⟨?_, h⟩⟩
  exact List.mem_filterMap.mpr
    ⟨p ++ [n], t.covered _ (Option.isSome_iff_ne_none.mp h), childOf_eq_some.mpr rfl⟩

theorem nodup_names (t : FileTree ν φ) (p : List ν) : (t.names p).Nodup := List.nodup_dedup _

section Sorted

variable [LinearOrder ν]

/-- The names in order. -/
def sortedNames (t : FileTree ν φ) (p : List ν) : List ν := (t.names p).insertionSort (· ≤ ·)

@[simp] theorem mem_sortedNames {t : FileTree ν φ} {p : List ν} {n : ν} :
    n ∈ t.sortedNames p ↔ t.node (p ++ [n]) ≠ none := by
  unfold sortedNames
  rw [List.mem_insertionSort, mem_names]

theorem nodup_sortedNames (t : FileTree ν φ) (p : List ν) : (t.sortedNames p).Nodup :=
  (List.perm_insertionSort _ _).nodup_iff.mpr (t.nodup_names p)

/-- Sorted listings depend on nothing but what exists. -/
theorem sortedNames_congr {t u : FileTree ν φ} {p q : List ν} (h : t.sub p = u.sub q) :
    t.sortedNames p = u.sortedNames q := by
  have hmem : ∀ n, n ∈ t.names p ↔ n ∈ u.names q := by
    intro n
    have hn : t.node (p ++ [n]) = u.node (q ++ [n]) := congrFun h [n]
    rw [mem_names, mem_names, hn]
  have hperm : (t.names p).Perm (u.names q) :=
    (List.perm_ext_iff_of_nodup (t.nodup_names p) (u.nodup_names q)).mpr hmem
  have hsorted := (List.perm_insertionSort (· ≤ ·) (t.names p)).trans
    (hperm.trans (List.perm_insertionSort (· ≤ ·) (u.names q)).symm)
  exact hsorted.eq_of_pairwise' (List.pairwise_insertionSort (· ≤ ·) _)
    (List.pairwise_insertionSort (· ≤ ·) _)

end Sorted

/-! ## A new node -/

/-- A node in a directory, where no directory is. -/
def insert (t : FileTree ν φ) (p : List ν) (n : ν) (x : Node φ) (hp : t.node p = some .dir)
    (hn : t.node (p ++ [n]) ≠ some .dir) : FileTree ν φ where
  node := Function.update t.node (p ++ [n]) (some x)
  paths := (p ++ [n]) :: t.paths
  covered := by
    intro q hq
    by_cases hqn : q = p ++ [n]
    · rw [hqn]
      exact List.mem_cons_self
    · rw [Function.update_of_ne hqn] at hq
      exact List.mem_cons_of_mem _ (t.covered q hq)
  rooted := by
    intro q m hq
    have hdir : t.node q = some .dir := by
      by_cases hqm : q ++ [m] = p ++ [n]
      · rw [(List.append_inj' hqm rfl).1]
        exact hp
      · rw [Function.update_of_ne hqm] at hq
        exact t.rooted q m hq
    rw [Function.update_of_ne]
    · exact hdir
    · rintro rfl
      exact hn hdir

section Insert

variable {t : FileTree ν φ} {p q : List ν} {n : ν} {x : Node φ} {hp : t.node p = some .dir}
variable {hn : t.node (p ++ [n]) ≠ some .dir}

@[simp] theorem insert_self : (t.insert p n x hp hn).node (p ++ [n]) = some x :=
  Function.update_self _ _ _

theorem insert_other (hq : q ≠ p ++ [n]) : (t.insert p n x hp hn).node q = t.node q :=
  Function.update_of_ne hq _ _

end Insert

/-! ## Removal -/

/-- A path survives when every part of it from `p` on is kept. -/
def survives (p : List ν) (kept : List ν → Bool) (q : List ν) : Bool :=
  q.inits.all (fun r => !p.isPrefixOf r || kept r)

theorem survives_iff {p q : List ν} {kept : List ν → Bool} :
    survives p kept q = true ↔ ∀ r, p <+: r → r <+: q → kept r = true := by
  unfold survives
  rw [List.all_eq_true]
  constructor
  · intro h r hpr hrq
    have hr := h r ((List.mem_inits _ _).mpr hrq)
    rw [List.isPrefixOf_iff_prefix.mpr hpr] at hr
    exact hr
  · intro h r hr
    by_cases hpr : p <+: r
    · rw [h r hpr ((List.mem_inits _ _).mp hr)]
      exact Bool.or_true _
    · rw [Bool.eq_false_iff.mpr (fun hp => hpr (List.isPrefixOf_iff_prefix.mp hp))]
      rfl

theorem survives_other {p q : List ν} {kept : List ν → Bool} (h : ¬ p <+: q) :
    survives p kept q = true :=
  survives_iff.mpr fun _ hpr hrq => absurd (hpr.trans hrq) h

/-- Everything under `p` that is not kept goes, with all that is below it. -/
def prune (t : FileTree ν φ) (p : List ν) (kept : List ν → Bool) : FileTree ν φ where
  node := fun q => if survives p kept q then t.node q else none
  paths := t.paths
  covered := by
    intro q hq
    split at hq
    · exact t.covered q hq
    · exact absurd rfl hq
  rooted := by
    intro q n hq
    split at hq
    · rename_i hsurvives
      have hparent : survives p kept q = true :=
        survives_iff.mpr fun r hpr hrq =>
          survives_iff.mp hsurvives r hpr (hrq.trans (List.prefix_append _ _))
      rw [if_pos hparent]
      exact t.rooted q n hq
    · exact absurd rfl hq

/-- The whole subtree goes. -/
def remove (t : FileTree ν φ) (p : List ν) : FileTree ν φ := t.prune p (fun _ => false)

section Prune

variable {t : FileTree ν φ} {p q : List ν} {kept : List ν → Bool}

theorem prune_other (h : ¬ p <+: q) : (t.prune p kept).node q = t.node q := by
  show (if survives p kept q then t.node q else none) = _
  rw [if_pos (survives_other h)]

/-- What survives is as it was. -/
theorem prune_node : (t.prune p kept).node q = t.node q ∨ (t.prune p kept).node q = none := by
  by_cases h : survives p kept q = true
  · exact .inl (if_pos h)
  · exact .inr (if_neg h)

theorem remove_other (h : ¬ p <+: q) : (t.remove p).node q = t.node q := prune_other h

theorem remove_under (h : p <+: q) : (t.remove p).node q = none := by
  refine if_neg (fun hsurvives => ?_)
  have := survives_iff.mp hsurvives q h (List.prefix_refl q)
  cases this

/-- Nothing goes when everything is kept. -/
theorem prune_all (h : ∀ q, kept q = true) : (t.prune p kept).node = t.node := by
  funext q
  exact if_pos (survives_iff.mpr fun r _ _ => h r)

end Prune

/-! ## Two children swap their names -/

/-- The path with the names `a` and `b` swapped in the directory `p`. -/
def swapName (p : List ν) (a b : ν) (q : List ν) : List ν :=
  match q.dropPrefix? p with
  | some (n :: rest) => p ++ Equiv.swap a b n :: rest
  | _ => q

theorem swapName_under (p : List ν) (a b n : ν) (rest : List ν) :
    swapName p a b (p ++ n :: rest) = p ++ Equiv.swap a b n :: rest := by
  unfold swapName
  rw [List.dropPrefix?_eq_some_iff.mpr ⟨p, rfl, beq_self_eq_true p⟩]

theorem swapName_other {p q : List ν} {a b : ν} (h : ∀ n rest, q ≠ p ++ n :: rest) :
    swapName p a b q = q := by
  unfold swapName
  split
  · rename_i n rest heq
    obtain ⟨p', hq, hp⟩ := List.dropPrefix?_eq_some_iff.mp heq
    rw [beq_iff_eq] at hp
    subst hp
    exact absurd hq (h n rest)
  · rfl

theorem swapName_swapName (p : List ν) (a b : ν) (q : List ν) :
    swapName p a b (swapName p a b q) = q := by
  by_cases h : ∃ n rest, q = p ++ n :: rest
  · obtain ⟨n, rest, rfl⟩ := h
    rw [swapName_under, swapName_under, Equiv.swap_apply_self]
  · have hother : ∀ n rest, q ≠ p ++ n :: rest := fun n rest heq => h ⟨n, rest, heq⟩
    rw [swapName_other hother, swapName_other hother]

/-- The children `a` and `b` of `p` swap places. -/
def exchange (t : FileTree ν φ) (p : List ν) (a b : ν) : FileTree ν φ where
  node := fun q => t.node (swapName p a b q)
  paths := t.paths.map (swapName p a b)
  covered := by
    intro q hq
    exact List.mem_map.mpr ⟨_, t.covered _ hq, swapName_swapName p a b q⟩
  rooted := by
    intro q m hq
    by_cases h : ∃ n rest, q ++ [m] = p ++ n :: rest
    · obtain ⟨n, rest, heq⟩ := h
      induction rest using List.reverseRecOn with
      | nil =>
        -- the child itself: its directory is `p`
        obtain ⟨rfl, -⟩ := List.append_inj' heq rfl
        rw [heq, swapName_under] at hq
        have hother : ∀ n rest, q ≠ q ++ n :: rest := by
          intro n rest hcontra
          simp at hcontra
        rw [swapName_other hother]
        exact t.rooted q _ hq
      | append_singleton rest k _ =>
        rw [heq, swapName_under] at hq
        rw [← List.cons_append, ← List.append_assoc] at heq hq
        obtain ⟨rfl, -⟩ := List.append_inj' heq rfl
        rw [swapName_under]
        exact t.rooted _ k hq
    · have hother : ∀ n rest, q ++ [m] ≠ p ++ n :: rest := fun n rest heq => h ⟨n, rest, heq⟩
      have hparent : ∀ n rest, q ≠ p ++ n :: rest := by
        rintro n rest rfl
        exact hother n (rest ++ [m]) (by rw [List.append_assoc, List.cons_append])
      rw [swapName_other hother] at hq
      rw [swapName_other hparent]
      exact t.rooted q m hq

section Exchange

variable {t : FileTree ν φ} {p q rest : List ν} {a b n : ν}

theorem exchange_under :
    (t.exchange p a b).node (p ++ n :: rest) = t.node (p ++ Equiv.swap a b n :: rest) :=
  congrArg t.node (swapName_under p a b n rest)

theorem exchange_left : (t.exchange p a b).sub (p ++ [a]) = t.sub (p ++ [b]) := by
  funext rel
  unfold sub
  rw [List.append_assoc, List.append_assoc]
  show (t.exchange p a b).node (p ++ a :: rel) = t.node (p ++ b :: rel)
  rw [exchange_under, Equiv.swap_apply_left]

theorem exchange_right : (t.exchange p a b).sub (p ++ [b]) = t.sub (p ++ [a]) := by
  funext rel
  unfold sub
  rw [List.append_assoc, List.append_assoc]
  show (t.exchange p a b).node (p ++ b :: rel) = t.node (p ++ a :: rel)
  rw [exchange_under, Equiv.swap_apply_right]

/-- Whatever lies under neither name stays. -/
theorem exchange_other (ha : ¬ (p ++ [a]) <+: q) (hb : ¬ (p ++ [b]) <+: q) :
    (t.exchange p a b).node q = t.node q := by
  by_cases h : ∃ n rest, q = p ++ n :: rest
  · obtain ⟨n, rest, rfl⟩ := h
    have hna : n ≠ a := by
      rintro rfl
      exact ha ⟨rest, by rw [List.append_assoc]; rfl⟩
    have hnb : n ≠ b := by
      rintro rfl
      exact hb ⟨rest, by rw [List.append_assoc]; rfl⟩
    rw [exchange_under, Equiv.swap_apply_of_ne_of_ne hna hnb]
  · exact congrArg t.node (swapName_other fun n rest heq => h ⟨n, rest, heq⟩)

/-- Exchanging twice changes nothing. -/
theorem exchange_exchange : ((t.exchange p a b).exchange p a b).node = t.node := by
  funext q
  exact congrArg t.node (swapName_swapName p a b q)

end Exchange

end FileTree

end Files
