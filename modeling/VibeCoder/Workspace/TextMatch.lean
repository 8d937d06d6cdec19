/-
  The one place of a text in another, in bytes (`find_unique_text_match`).

  The source looks for a byte offset, slices the text there, and looks again one character later.
  A slice panics where no character starts, so here each slice may have no result.

  1. **Program** — `InBytes.findUniqueTextMatch`, over `str::find` on the bytes.

  2. **Places** — a place is a byte offset where the text can be cut (`Chars.Stands`).  Overlapping
     places count.

  3. **The crux (`later_iff`)** — after the first place there is another one if and only if there is
     one in the text that remains when one character is taken away: no place lies inside the
     character.

  4. **Bridge** (`findUniqueTextMatch_positions`) — the model of the patches counts characters; it
     gives the place that the source gives, in the other unit.
-/
import VibeCoder.Workspace.PatchText

namespace VibeCoder.Workspace

open Chars

namespace InBytes

/-- `str::find`: the first offset at which the bytes of the pattern stand. -/
def find (text pattern : List Char) : Option Nat :=
  (List.range (byteLen text + 1)).find? (fun i => (encode pattern).isPrefixOf ((encode text).drop i))

/-- `&text[start..]`: no result where it panics. -/
def tail (text : List Char) (start : Nat) : Option (List Char) := (cutAt text start).map Prod.snd

/-- `find_unique_text_match`.  A text has fewer bytes than `usize::MAX`, so `saturating_add` adds. -/
def findUniqueTextMatch (text expected : List Char) : Option (Result Nat) :=
  match find text expected with
  | none => some (.error (workspaceError "text_edit_expected_not_found"))
  | some first => do
    let rest ← tail text first
    match rest with
    | [] => some (.error (workspaceError "text_edit_expected_not_found"))
    | next :: _ =>
      let searchFrom := first + next.utf8Size
      if searchFrom ≤ byteLen text then
        let later ← tail text searchFrom
        if (find later expected).isSome then
          some (.error (workspaceError "text_edit_expected_ambiguous"))
        else some (.ok first)
      else some (.ok first)

end InBytes

variable {text expected : List Char}

/-! ## Places -/

theorem find_some (hne : expected ≠ []) {first : Nat} (h : InBytes.find text expected = some first) :
    Stands expected text first ∧ ∀ i, i < first → ¬ Stands expected text i := by
  unfold InBytes.find at h
  rw [List.find?_range_eq_some] at h
  obtain ⟨hhere, -, hbefore⟩ := h
  refine ⟨(stands_iff hne).mpr (List.isPrefixOf_iff_prefix.mp hhere), fun i hi hstands => ?_⟩
  have hno := hbefore i hi
  rw [List.isPrefixOf_iff_prefix.mpr ((stands_iff hne).mp hstands)] at hno
  cases hno

theorem find_none (hne : expected ≠ []) (h : InBytes.find text expected = none) (i : Nat) :
    ¬ Stands expected text i := by
  intro hstands
  unfold InBytes.find at h
  rw [List.find?_range_eq_none] at h
  have hle : i < byteLen text + 1 := by
    obtain ⟨before, after, rfl, rfl⟩ := hstands
    rw [byteLen_append, byteLen_append]
    omega
  have hno := h i hle
  rw [List.isPrefixOf_iff_prefix.mpr ((stands_iff hne).mp hstands)] at hno
  cases hno

theorem tail_append (as bs : List Char) : InBytes.tail (as ++ bs) (byteLen as) = some bs := by
  unfold InBytes.tail
  rw [cutAt_append]
  rfl

/-- **The second search** sees every later place, the overlapping ones too. -/
theorem later_iff (hne : expected ≠ []) (before after : List Char) (c : Char) :
    (InBytes.find after expected).isSome = true ↔
      ∃ i, byteLen before < i ∧ Stands expected (before ++ c :: after) i := by
  have hcut : before ++ c :: after = (before ++ [c]) ++ after := by
    rw [List.append_assoc, List.singleton_append]
  have hlong : byteLen before < byteLen (before ++ [c]) := by
    rw [byteLen_append]
    have hpos := byteLen_pos (List.cons_ne_nil c [])
    omega
  constructor
  · intro h
    obtain ⟨n, hn⟩ := Option.isSome_iff_exists.mp h
    refine ⟨byteLen (before ++ [c]) + n, by omega, ?_⟩
    rw [hcut, stands_append hne]
    exact (find_some hne hn).1
  · rintro ⟨i, hlt, hstands⟩
    obtain ⟨n, -, hlater⟩ := hstands.later hlt
    by_contra hnone
    rw [Bool.not_eq_true, Option.isSome_eq_false_iff, Option.isNone_iff_eq_none] at hnone
    exact find_none hne hnone n hlater

/-- What the source does after the first place. -/
theorem findUniqueTextMatch_first (hne : expected ≠ []) {first : Nat}
    (h : InBytes.find text expected = some first) :
    ((∃ i, first < i ∧ Stands expected text i) → InBytes.findUniqueTextMatch text expected =
      some (.error (workspaceError "text_edit_expected_ambiguous"))) ∧
    ((¬ ∃ i, first < i ∧ Stands expected text i) →
      InBytes.findUniqueTextMatch text expected = some (.ok first)) := by
  obtain ⟨before, after, rfl, rfl⟩ := (find_some hne h).1
  obtain ⟨c, expected, rfl⟩ := List.exists_cons_of_ne_nil hne
  have hcut : before ++ c :: expected ++ after = before ++ (c :: (expected ++ after)) := by
    rw [List.append_assoc, List.cons_append]
  have hnext : InBytes.tail (before ++ (c :: (expected ++ after))) (byteLen before + c.utf8Size) =
      some (expected ++ after) := by
    have htail := tail_append (before ++ [c]) (expected ++ after)
    rwa [byteLen_append, byteLen_cons, byteLen_nil, Nat.add_zero, List.append_assoc,
      List.singleton_append] at htail
  have hfits : byteLen before + c.utf8Size ≤ byteLen (before ++ (c :: (expected ++ after))) := by
    rw [byteLen_append, byteLen_cons]
    omega
  rw [hcut] at h ⊢
  have hrun : InBytes.findUniqueTextMatch (before ++ (c :: (expected ++ after))) (c :: expected) =
      if (InBytes.find (expected ++ after) (c :: expected)).isSome then
        some (.error (workspaceError "text_edit_expected_ambiguous"))
      else some (.ok (byteLen before)) := by
    unfold InBytes.findUniqueTextMatch
    rw [h]
    simp only [tail_append, Option.bind_eq_bind, Option.bind_some]
    rw [if_pos hfits, hnext, Option.bind_some]
  rw [hrun]
  constructor
  · intro hlater
    exact if_pos ((later_iff hne _ _ _).mpr hlater)
  · intro hnone
    exact if_neg (fun hsome => hnone ((later_iff hne _ _ _).mp hsome))

/-! ## The law -/

/-- **A unique match**, for every text and every pattern that is not empty: a place is returned if
    and only if it is the only one, and otherwise the error says whether there is none or are
    several.  The source never panics. -/
theorem findUniqueTextMatch_law (text : List Char) (hne : expected ≠ []) :
    (∀ position, InBytes.findUniqueTextMatch text expected = some (.ok position) ↔
      ∀ i, Stands expected text i ↔ i = position) ∧
    (InBytes.findUniqueTextMatch text expected =
        some (.error (workspaceError "text_edit_expected_not_found")) ↔
      ∀ i, ¬ Stands expected text i) ∧
    (InBytes.findUniqueTextMatch text expected =
        some (.error (workspaceError "text_edit_expected_ambiguous")) ↔
      ∃ i j, i ≠ j ∧ Stands expected text i ∧ Stands expected text j) := by
  have hcodes : ¬ (some (.error (workspaceError "text_edit_expected_not_found")) :
      Option (Result Nat)) = some (.error (workspaceError "text_edit_expected_ambiguous")) := by
    decide
  cases hfind : InBytes.find text expected with
  | none =>
    have hno := find_none hne hfind
    have hrun : InBytes.findUniqueTextMatch text expected =
        some (.error (workspaceError "text_edit_expected_not_found")) := by
      unfold InBytes.findUniqueTextMatch
      rw [hfind]
    rw [hrun]
    refine ⟨fun position => iff_of_false (fun h => by cases h) (fun h => ?_),
      iff_of_true rfl hno, iff_of_false hcodes ?_⟩
    · exact hno position ((h position).mpr rfl)
    · rintro ⟨i, -, -, hi, -⟩
      exact hno i hi
  | some first =>
    obtain ⟨hfirst, hbefore⟩ := find_some hne hfind
    obtain ⟨hagain, hsingle⟩ := findUniqueTextMatch_first hne hfind
    by_cases hlater : ∃ i, first < i ∧ Stands expected text i
    · obtain ⟨j, hlt, hj⟩ := hlater
      rw [hagain ⟨j, hlt, hj⟩]
      refine ⟨fun position => iff_of_false (fun h => by cases h) (fun h => ?_),
        iff_of_false (fun h => hcodes h.symm) (fun h => h first hfirst),
        iff_of_true rfl ⟨first, j, Nat.ne_of_lt hlt, hfirst, hj⟩⟩
      have heq := ((h first).mp hfirst).trans ((h j).mp hj).symm
      omega
    · have honly : ∀ i, Stands expected text i → i = first := by
        intro i hi
        rcases Nat.lt_trichotomy i first with hlt | heq | hgt
        · exact absurd hi (hbefore i hlt)
        · exact heq
        · exact absurd ⟨i, hgt, hi⟩ hlater
      rw [hsingle hlater]
      refine ⟨fun position => ?_, iff_of_false (fun h => by cases h) (fun h => h first hfirst),
        iff_of_false (fun h => by cases h) ?_⟩
      · constructor
        · intro h
          cases h
          exact fun i => ⟨honly i, fun heq => heq ▸ hfirst⟩
        · intro h
          rw [(h first).mp hfirst]
      · rintro ⟨i, j, hij, hi, hj⟩
        exact hij ((honly i hi).trans (honly j hj).symm)

/-- A pattern that overlaps itself, in characters of two bytes. -/
theorem findUniqueTextMatch_law_overlapping :
    ∃ i j, i ≠ j ∧ Stands ['é', 'é'] ['é', 'é', 'é'] i ∧ Stands ['é', 'é'] ['é', 'é', 'é'] j :=
  (findUniqueTextMatch_law ['é', 'é', 'é'] (List.cons_ne_nil 'é' ['é'])).2.2.mp (by decide)

/-! ## Characters -/

/-- A place, counted in characters. -/
theorem stands_of_drop {k : Nat} (h : expected <+: text.drop k) :
    Stands expected text (byteLen (text.take k)) := by
  obtain ⟨after, hafter⟩ := h
  refine ⟨text.take k, after, ?_, rfl⟩
  rw [List.append_assoc, hafter, List.take_append_drop]

theorem prefix_of_stands {i : Nat} (h : Stands expected text i) :
    ∃ k ≤ text.length, i = byteLen (text.take k) ∧ expected <+: text.drop k := by
  obtain ⟨before, after, rfl, rfl⟩ := h
  refine ⟨before.length, ?_, ?_, ?_⟩
  · rw [List.append_assoc, List.length_append]
    exact Nat.le_add_right _ _
  · rw [List.append_assoc, List.take_left]
  · rw [List.append_assoc, List.drop_left]
    exact List.prefix_append _ _

theorem byteLen_take_mono (text : List Char) {j k : Nat} (h : j ≤ k) :
    byteLen (text.take j) ≤ byteLen (text.take k) := by
  obtain ⟨rest, hrest⟩ := List.take_prefix_take_left (l := text) h
  rw [← hrest, byteLen_append]
  exact Nat.le_add_right _ _

/-- `str::find` finds the same place as the model of the patches. -/
theorem find_eq_findText (hne : expected ≠ []) (text : List Char) :
    InBytes.find text expected = (findText text expected).map (fun k => byteLen (text.take k)) := by
  cases hchars : findText text expected with
  | none =>
    cases hbytes : InBytes.find text expected with
    | none => rfl
    | some first =>
      obtain ⟨k, -, -, hprefix⟩ := prefix_of_stands (find_some hne hbytes).1
      exact absurd hprefix (findText_none hchars k)
  | some k =>
    obtain ⟨hhere, hbefore⟩ := findText_some hchars
    cases hbytes : InBytes.find text expected with
    | none => exact absurd (stands_of_drop hhere) (find_none hne hbytes _)
    | some first =>
      obtain ⟨hfirst, hearlier⟩ := find_some hne hbytes
      obtain ⟨j, -, rfl, hprefix⟩ := prefix_of_stands hfirst
      have hkj : k ≤ j := Nat.le_of_not_lt fun hlt => hbefore j hlt hprefix
      have hle := byteLen_take_mono text hkj
      have hge := Nat.le_of_not_lt fun hlt => hearlier _ hlt (stands_of_drop hhere)
      rw [Option.map_some, Option.some.injEq]
      exact Nat.le_antisymm hge hle

/-- **The two units.**  The place is the same, in characters and in bytes. -/
theorem findUniqueTextMatch_positions (hne : expected ≠ []) (text : List Char) :
    InBytes.findUniqueTextMatch text expected =
      some ((findUniqueTextMatch text expected).map (fun k => byteLen (text.take k))) := by
  have hfind := find_eq_findText hne text
  unfold findUniqueTextMatch
  cases hchars : findText text expected with
  | none =>
    rw [hchars] at hfind
    unfold InBytes.findUniqueTextMatch
    rw [hfind]
    rfl
  | some k =>
    rw [hchars] at hfind
    obtain ⟨after, hafter⟩ := (findText_some hchars).1
    obtain ⟨c, expected, rfl⟩ := List.exists_cons_of_ne_nil hne
    rw [List.cons_append] at hafter
    have htext : text = text.take k ++ c :: (expected ++ after) := by
      rw [hafter, List.take_append_drop]
    have hlater : text.drop (k + 1) = expected ++ after := by
      rw [← List.drop_drop, ← hafter]
      rfl
    obtain ⟨hagain, hsingle⟩ := findUniqueTextMatch_first hne hfind
    have hcase := later_iff hne (text.take k) (expected ++ after) c
    rw [← htext, find_eq_findText hne, Option.isSome_map] at hcase
    dsimp only
    rw [← hafter, List.isEmpty_cons, if_neg Bool.false_ne_true, hlater]
    by_cases hmore : (findText (expected ++ after) (c :: expected)).isSome = true
    · rw [if_pos hmore, hagain (hcase.mp hmore)]
      rfl
    · rw [if_neg hmore, hsingle (fun hsome => hmore (hcase.mpr hsome))]
      rfl

end VibeCoder.Workspace
