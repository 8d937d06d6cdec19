/-
  What a patch means, as a relation between two texts.

  `PatchesTo text hunks result` says nothing of positions, of bytes or of limits: each hunk replaces
  the one place where its expected text stands in the text the hunks before it have left.

  1. **`OnlyAt`** — a text stands in another at one place, overlapping places counted.
  2. **`findUniqueTextMatch_ok`** — a place that the source accepts is the only one: nothing
     stands before the first match, and nothing after its first character.
  3. **`applyHunks_patches`** — induction on the hunks, the text generalized.

  At the end, that a text read from bytes has these bytes (`textBytes_fromUtf8`).
-/
import VibeCoder.Lib.Utf8
import VibeCoder.Workspace.Files

namespace VibeCoder.Workspace

open Checkpoint

/-! ## The relation -/

/-- `expected` stands at the position, and at no other one. -/
def OnlyAt (text expected : List Char) (position : Nat) : Prop :=
  ∀ i, expected <+: text.drop i ↔ i = position

/-- Hunk by hunk, the only occurrence of the expected text makes way for the replacement. -/
inductive PatchesTo : List Char → List TextPatchHunk → List Char → Prop where
  | done (text : List Char) : PatchesTo text [] text
  | hunk {before after result : List Char} {hunk : TextPatchHunk} {hunks : List TextPatchHunk}
      (only : OnlyAt (before ++ hunk.expected.toList ++ after) hunk.expected.toList before.length)
      (rest : PatchesTo (before ++ hunk.replacement.toList ++ after) hunks result) :
      PatchesTo (before ++ hunk.expected.toList ++ after) (hunk :: hunks) result

/-- A patch has one result. -/
theorem PatchesTo.unique {text result result' : List Char} {hunks : List TextPatchHunk}
    (h : PatchesTo text hunks result) (h' : PatchesTo text hunks result') : result = result' := by
  induction h with
  | done text =>
    cases h'
    rfl
  | @hunk before after result hunk hunks only rest ih =>
    generalize htext : before ++ hunk.expected.toList ++ after = whole at h'
    cases h' with
    | @hunk before' after' _ _ _ only' rest' =>
      -- both ways to cut the text put the expected text at its only place
      have hplace : before'.length = before.length := by
        refine (only before'.length).mp ?_
        rw [htext, List.append_assoc, List.drop_left]
        exact List.prefix_append _ _
      rw [List.append_assoc, List.append_assoc] at htext
      obtain ⟨hbefore, hrest⟩ := List.append_inj htext hplace.symm
      obtain ⟨-, hafter⟩ := List.append_inj hrest rfl
      subst hbefore
      subst hafter
      exact ih rest'

/-! ## Finding -/

variable {text expected : List Char} {position : Nat}

theorem findText_some (h : findText text expected = some position) :
    expected <+: text.drop position ∧ ∀ i, i < position → ¬ expected <+: text.drop i := by
  unfold findText at h
  rw [List.find?_range_eq_some] at h
  obtain ⟨hhere, -, hbefore⟩ := h
  refine ⟨List.isPrefixOf_iff_prefix.mp hhere, fun i hi hpre => ?_⟩
  have hno := hbefore i hi
  rw [List.isPrefixOf_iff_prefix.mpr hpre] at hno
  cases hno

theorem findText_none (h : findText text expected = none) (i : Nat) :
    ¬ expected <+: text.drop i := by
  intro hpre
  unfold findText at h
  rw [List.find?_range_eq_none] at h
  by_cases hi : i < text.length + 1
  · have hno := h i hi
    rw [List.isPrefixOf_iff_prefix.mpr hpre] at hno
    cases hno
  · -- past the end there is only the empty text, which stands at the start as well
    rw [List.drop_eq_nil_of_le (by omega)] at hpre
    have hstart := h 0 (by omega)
    rw [List.prefix_nil.mp hpre] at hstart
    cases hstart

/-- **The accepted place is the only one.** -/
theorem findUniqueTextMatch_ok (h : findUniqueTextMatch text expected = .ok position) :
    OnlyAt text expected position := by
  unfold findUniqueTextMatch at h
  split at h
  · cases h
  rename_i first hfirst
  split at h
  · cases h
  split at h
  · cases h
  rename_i hlater
  cases h
  obtain ⟨hhere, hbefore⟩ := findText_some hfirst
  rw [Bool.not_eq_true, Option.isSome_eq_false_iff, Option.isNone_iff_eq_none] at hlater
  intro i
  constructor
  · intro hi
    rcases Nat.lt_trichotomy i position with hlt | heq | hgt
    · exact absurd hi (hbefore i hlt)
    · exact heq
    · refine absurd ?_ (findText_none hlater (i - (position + 1)))
      rw [List.drop_drop]
      have hsum : position + 1 + (i - (position + 1)) = i := by omega
      rw [hsum]
      exact hi
  · rintro rfl
    exact hhere

/-! ## The hunks -/

theorem applyHunk_ok {updated : List Char} {hunk : TextPatchHunk}
    (h : applyHunk text hunk = .ok updated) : ∃ before after,
      text = before ++ hunk.expected.toList ++ after ∧
      updated = before ++ hunk.replacement.toList ++ after ∧
      OnlyAt text hunk.expected.toList before.length := by
  unfold applyHunk at h
  rcases hfound : findUniqueTextMatch text hunk.expected.toList with e | position
  · rw [hfound] at h
    cases h
  rw [hfound] at h
  have honly := findUniqueTextMatch_ok hfound
  obtain ⟨after, hafter⟩ := (honly position).mpr rfl
  simp only [bind, Except.bind] at h
  split at h
  · cases h
  cases h
  have htext : text = text.take position ++ hunk.expected.toList ++ after := by
    rw [List.append_assoc, hafter, List.take_append_drop]
  have hrest : text.drop (position + hunk.expected.toList.length) = after := by
    rw [← List.drop_drop, ← hafter, List.drop_left]
  refine ⟨text.take position, after, htext, by rw [hrest], ?_⟩
  by_cases hlength : position ≤ text.length
  · rw [List.length_take, Nat.min_eq_left hlength]
    exact honly
  · -- a place past the end is not the only one: the empty text stands everywhere
    have hnil : text.drop position = [] := List.drop_eq_nil_of_le (by omega)
    rw [hnil, List.append_eq_nil_iff] at hafter
    have hzero := (honly 0).mp (by
      rw [hafter.1]
      exact List.nil_prefix)
    omega

/-- **The hunks.**  What the loop makes of a text is what the patch says. -/
theorem applyHunks_patches {result : List Char} {hunks : List TextPatchHunk}
    (h : applyHunks text hunks = .ok result) : PatchesTo text hunks result := by
  induction hunks generalizing text with
  | nil =>
    cases h
    exact .done _
  | cons hunk hunks ih =>
    unfold applyHunks at h
    rw [List.foldlM_cons] at h
    rcases hone : applyHunk text hunk with e | updated
    · rw [hone] at h
      cases h
    rw [hone] at h
    obtain ⟨before, after, rfl, rfl, honly⟩ := applyHunk_ok hone
    exact .hunk honly (ih h)

/-! ## Bytes -/

/-- A text that was read from bytes is written as these bytes. -/
theorem textBytes_fromUtf8 {bytes : List UInt8} (h : fromUtf8 bytes = some text) :
    textBytes text = bytes := Chars.decode_iff.mp h

end VibeCoder.Workspace
