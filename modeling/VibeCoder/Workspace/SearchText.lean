/-
  What the matches of a text are.

  1. **`Leftmost`** — positions at which the needle stands, apart from each other, that leave out no
     occurrence but one that begins inside an earlier position's.  There is one such list
     (`Leftmost.unique`), and `str::match_indices` returns it (`matchIndices_leftmost`).
  2. **`place`** — the line and the column at the end of a text, read from the front one character
     at a time.  `locate_text_match` looks for them from the back; `locateTextMatch_place` is by
     induction on the text before the match, its last character taken off.
-/
import VibeCoder.Workspace.Search
import VibeCoder.Workspace.PatchText

namespace VibeCoder.Workspace

variable {needle text : List Char}

/-! ## Occurrences -/

/-- The occurrences that a reader marks who goes from left to right and goes on after each one. -/
structure Leftmost (needle text : List Char) (positions : List Nat) : Prop where
  stands : ∀ i ∈ positions, needle <+: text.drop i
  apart : positions.Pairwise (fun i j => i + needle.length ≤ j)
  marked : ∀ j, needle <+: text.drop j → ∃ i ∈ positions, i ≤ j ∧ j < i + needle.length

/-- Two positions are one, or far from each other. -/
theorem Leftmost.far {positions : List Nat} (h : Leftmost needle text positions) {i j : Nat}
    (hi : i ∈ positions) (hj : j ∈ positions) :
    i = j ∨ i + needle.length ≤ j ∨ j + needle.length ≤ i := by
  obtain ⟨m, hm, rfl⟩ := List.getElem_of_mem hi
  obtain ⟨n, hn, rfl⟩ := List.getElem_of_mem hj
  rcases Nat.lt_trichotomy m n with hlt | rfl | hlt
  · exact .inr (.inl (List.pairwise_iff_getElem.mp h.apart m n hm hn hlt))
  · exact .inl rfl
  · exact .inr (.inr (List.pairwise_iff_getElem.mp h.apart n m hn hm hlt))

/-- A position of one list is one of the other: else the one that covers it overlaps an earlier
    position, which both have. -/
theorem Leftmost.mem_of_mem {positions others : List Nat} (h : Leftmost needle text positions)
    (h' : Leftmost needle text others) {i : Nat} (hi : i ∈ positions)
    (hbefore : ∀ j, j < i → j ∈ others → j ∈ positions) : i ∈ others := by
  obtain ⟨j, hj, hle, hlt⟩ := h'.marked i (h.stands i hi)
  rcases Nat.lt_or_eq_of_le hle with hless | rfl
  · -- both are positions of the first list, so that they do not overlap
    rcases h.far (hbefore j hless hj) hi with heq | hfar | hfar
    · omega
    · omega
    · omega
  · exact hj

/-- **A text has one list of leftmost occurrences.** -/
theorem Leftmost.unique {positions others : List Nat} (hne : needle ≠ [])
    (h : Leftmost needle text positions) (h' : Leftmost needle text others) :
    positions = others := by
  have hmem : ∀ i, i ∈ positions ↔ i ∈ others := by
    intro i
    induction i using Nat.strongRecOn with
    | ind i ih =>
      exact ⟨fun hi => h.mem_of_mem h' hi (fun j hj => (ih j hj).mpr),
        fun hi => h'.mem_of_mem h hi (fun j hj => (ih j hj).mp)⟩
  have hlength : 0 < needle.length := List.length_pos_iff.mpr hne
  have hsorted : ∀ {l : List Nat}, Leftmost needle text l → l.Pairwise (· < ·) :=
    fun hl => hl.apart.imp (fun hfar => by omega)
  have hnodup : ∀ {l : List Nat}, Leftmost needle text l → l.Nodup :=
    fun hl => (hsorted hl).imp (fun hlt => Nat.ne_of_lt hlt)
  have hperm := (List.perm_ext_iff_of_nodup (hnodup h) (hnodup h')).mpr hmem
  exact hperm.eq_of_pairwise (fun a b _ _ hab hba => absurd hab (Nat.lt_asymm hba))
    (hsorted h) (hsorted h')

/-- The scan from an index on; what it skips belongs to the match before. -/
theorem matchIndices_from (hne : needle ≠ []) {rest : List Char} (index skip : Nat)
    (hrest : text.drop index = rest) :
    (∀ i ∈ matchIndices needle rest index skip, index + skip ≤ i ∧ needle <+: text.drop i) ∧
    (matchIndices needle rest index skip).Pairwise (fun i j => i + needle.length ≤ j) ∧
    (∀ j, index + skip ≤ j → needle <+: text.drop j →
      ∃ i ∈ matchIndices needle rest index skip, i ≤ j ∧ j < i + needle.length) := by
  have hlength : 0 < needle.length := List.length_pos_iff.mpr hne
  induction rest generalizing index skip with
  | nil =>
    rw [matchIndices]
    refine ⟨fun i hi => absurd hi List.not_mem_nil, List.Pairwise.nil, fun j hj hpre => ?_⟩
    -- past the end there is no place for a needle
    have hend : text.drop j = [] := by
      have hlen := List.drop_eq_nil_iff.mp hrest
      exact List.drop_eq_nil_of_le (by omega)
    rw [hend] at hpre
    exact absurd (List.prefix_nil.mp hpre) hne
  | cons c rest ih =>
    have hnext : text.drop (index + 1) = rest := by
      rw [← List.drop_drop, hrest]
      rfl
    cases skip with
    | succ skip =>
      rw [matchIndices]
      have hshift : index + (skip + 1) = index + 1 + skip := by omega
      rw [hshift]
      exact ih (index + 1) skip hnext
    | zero =>
      rw [matchIndices]
      split
      · rename_i hhere
        rw [List.isPrefixOf_iff_prefix, ← hrest] at hhere
        obtain ⟨hstands, hapart, hmarked⟩ := ih (index + 1) (needle.length - 1) hnext
        have hafter : index + 1 + (needle.length - 1) = index + needle.length := by omega
        rw [hafter] at hstands hmarked
        refine ⟨?_, List.pairwise_cons.mpr ⟨fun i hi => (hstands i hi).1, hapart⟩, ?_⟩
        · intro i hi
          rcases List.mem_cons.mp hi with rfl | hi
          · exact ⟨Nat.le_refl _, hhere⟩
          · exact ⟨by have := (hstands i hi).1; omega, (hstands i hi).2⟩
        · intro j hj hpre
          by_cases hcovered : j < index + needle.length
          · exact ⟨index, List.mem_cons_self, hj, hcovered⟩
          · obtain ⟨i, hi, hij⟩ := hmarked j (Nat.not_lt.mp hcovered) hpre
            exact ⟨i, List.mem_cons_of_mem _ hi, hij⟩
      · rename_i hhere
        rw [List.isPrefixOf_iff_prefix, ← hrest] at hhere
        obtain ⟨hstands, hapart, hmarked⟩ := ih (index + 1) 0 hnext
        refine ⟨fun i hi => ⟨by have := (hstands i hi).1; omega, (hstands i hi).2⟩, hapart, ?_⟩
        intro j hj hpre
        have hlater : j ≠ index := by
          rintro rfl
          exact hhere hpre
        exact hmarked j (by omega) hpre

/-- **The scan marks the leftmost occurrences.** -/
theorem matchIndices_leftmost (hne : needle ≠ []) (text : List Char) :
    Leftmost needle text (matchIndices needle text 0 0) := by
  have hwhole : text.drop 0 = text := rfl
  obtain ⟨hstands, hapart, hmarked⟩ := matchIndices_from hne 0 0 hwhole
  exact ⟨fun i hi => (hstands i hi).2, hapart, fun j hpre => hmarked j (Nat.zero_le j) hpre⟩

/-- A needle that overlaps itself is marked once. -/
example : matchIndices "aa".toList "aaaxaa".toList 0 0 = [0, 4] := by decide

/-! ## Lines and columns -/

/-- Line and column after one more character. -/
def nextPlace (at_ : Nat × Nat) (c : Char) : Nat × Nat :=
  if c = '\n' then (at_.1 + 1, 1) else (at_.1, at_.2 + 1)

/-- Line and column at the end of a text; both count from one. -/
def place (before : List Char) : Nat × Nat := before.foldl nextPlace (1, 1)

theorem place_concat (before : List Char) (c : Char) :
    place (before ++ [c]) = nextPlace (place before) c := by
  rw [place, List.foldl_append]
  rfl

/-- The source counts the line breaks, and the characters after the last one. -/
theorem place_eq (before : List Char) :
    place before =
      (before.count '\n' + 1, (before.reverse.takeWhile (· ≠ '\n')).length + 1) := by
  induction before using List.reverseRecOn with
  | nil => rfl
  | append_singleton before c ih =>
    rw [place_concat, ih, nextPlace, List.count_append, List.reverse_append]
    by_cases hc : c = '\n'
    · subst hc
      simp
    · simp [hc]

theorem length_drop_lineStart (before : List Char) :
    (before.drop (lineStartOf before)).length =
      (before.reverse.takeWhile (· ≠ '\n')).length := by
  have hle : (before.reverse.takeWhile (· ≠ '\n')).length ≤ before.length := by
    have hreverse : before.reverse.length = before.length := List.length_reverse
    rw [← hreverse]
    exact (List.takeWhile_prefix _).length_le
  rw [List.length_drop, lineStartOf]
  omega

/-- **The line and the column are those of the text before the match.** -/
theorem locateTextMatch_place {index : Nat} (hsize : text.length < u32Max) :
    ((locateTextMatch text index).1, (locateTextMatch text index).2.1) =
      place (text.take index) := by
  have hlength : (text.take index).length ≤ text.length := by
    rw [List.length_take]
    exact Nat.min_le_right _ _
  have hline : (text.take index).count '\n' ≤ (text.take index).length := List.count_le_length
  have hcolumn : ((text.take index).drop (lineStartOf (text.take index))).length ≤
      (text.take index).length := by
    rw [List.length_drop]
    exact Nat.sub_le _ _
  rw [place_eq, ← length_drop_lineStart]
  simp only [locateTextMatch]
  rw [Nat.min_eq_left (by omega), Nat.min_eq_left (by omega)]

/-- The column counts characters, not bytes. -/
example : locateTextMatch "a\nöb".toList 3 = (2, 2, "öb") := by decide

/-- A text has no more characters than bytes. -/
theorem length_le_bytes {bytes : List UInt8} (h : fromUtf8 bytes = some text) :
    text.length ≤ bytes.length := by
  rw [← textBytes_fromUtf8 h]
  clear h
  induction text with
  | nil => exact Nat.zero_le _
  | cons c text ih =>
    have hone : 0 < (String.utf8EncodeChar c).length := by
      rw [String.length_utf8EncodeChar]
      exact Char.utf8Size_pos c
    rw [textBytes, List.flatMap_cons, List.length_append, List.length_cons]
    have hrest : text.length ≤ (text.flatMap String.utf8EncodeChar).length := ih
    omega

end VibeCoder.Workspace
