/-
  What a sanitized line may still show (`sanitize_line`).

  The line is redacted as a whole when it holds a sensitive marker, and absolute paths are redacted
  token by token.  The question is what the text that comes out holds.

  1. **No control character, no bidi control** — the loop that rewrites them is the last step that
     could let one through.

  2. **No absolute path** — the tokens of the result are the tokens that were decided upon
     (`words_sanitizeLine`), the replacement among them.

  3. **Markers** — these are looked for first, and everything after that still changes the text.  A
     bidi control inside `token=` is dropped later, and a tab after `bearer` becomes the space of the
     marker.  In joined tokens a marker lies within one token, but for `bearer ` which is the end of
     one token and the space after it (`containsSensitiveMarker_tokens`); so what comes out is free
     of markers exactly when the tokens are (`sanitizeLine_clean_iff`).
-/
import VibeCoder.Build.Evidence

namespace VibeCoder.Build

open Chars

/-! ## Markers -/

/-- The texts `contains_sensitive_marker` looks for. -/
def sensitiveMarkers : List String :=
  ["authorization:", "bearer ", "api_key", "apikey", "access_token", "refresh_token", "auth_token",
    "token=", "token:", "password=", "password:", "passwd=", "client_secret", "private_key",
    "secret=", "secret:"]

theorem containsSensitiveMarker_iff {line : List Char} :
    containsSensitiveMarker line = true ↔
      ∃ marker ∈ sensitiveMarkers, marker.toList <:+: asciiLower line := by
  have hany : containsSensitiveMarker line =
      sensitiveMarkers.any (fun marker => contains marker.toList (asciiLower line)) := rfl
  rw [hany, List.any_eq_true]
  constructor
  · rintro ⟨marker, hin, h⟩
    exact ⟨marker, hin, contains_iff.mp h⟩
  · rintro ⟨marker, hin, h⟩
    exact ⟨marker, hin, contains_iff.mpr h⟩

def bearer : List Char := "bearer".toList

/-- One marker has a space, at its end. -/
theorem marker_solid_or_bearer {marker : String} (h : marker ∈ sensitiveMarkers) :
    marker.toList ≠ [] ∧ (' ' ∉ marker.toList ∨ marker.toList = bearer ++ [' ']) := by
  have hall : ∀ m ∈ sensitiveMarkers,
      m.toList ≠ [] ∧ (' ' ∉ m.toList ∨ m.toList = bearer ++ [' ']) := by
    decide
  exact hall marker h

theorem bearer_mem : ∃ marker ∈ sensitiveMarkers, marker.toList = bearer ++ [' '] := by
  decide

theorem toLower_eq_space {c : Char} (h : c.toLower = ' ') : c = ' ' := by
  unfold Char.toLower at h
  split at h
  · rename_i hupper
    have hval := congrArg Char.toNat h
    simp only [Char.toNat, UInt32.le_iff_toNat_le] at hupper hval
    have hsum : (c.val + 32).toNat = c.val.toNat + 32 := by
      rw [UInt32.toNat_add]
      have hsmall : (32 : UInt32).toNat = 32 := rfl
      have hle : c.val.toNat ≤ 90 := hupper.2
      omega
    have hspace : (' ' : Char).val.toNat = 32 := rfl
    have hge : 65 ≤ c.val.toNat := hupper.1
    rw [hspace] at hval
    exact absurd (hsum.symm.trans hval) (by omega)
  · exact h

theorem space_not_mem_asciiLower {cs : List Char} (h : ' ' ∉ cs) : ' ' ∉ asciiLower cs := by
  intro hin
  obtain ⟨c, hc, hlower⟩ := List.mem_map.mp hin
  rw [toLower_eq_space hlower] at hc
  exact h hc

theorem asciiLower_intercalate (pieces : List (List Char)) :
    asciiLower ([' '].intercalate pieces) = [' '].intercalate (pieces.map asciiLower) := by
  induction pieces with
  | nil => rfl
  | cons piece pieces ih =>
    cases pieces with
    | nil => rw [List.map_singleton, List.intercalate_singleton, List.intercalate_singleton]
    | cons next pieces =>
      rw [List.map_cons, List.map_cons, intercalate_cons_cons, intercalate_cons_cons, asciiLower,
        List.map_append, List.map_cons]
      rw [List.map_cons] at ih
      exact congrArg (fun rest => asciiLower piece ++ ' ' :: rest) ih

/-- **Markers in joined tokens**: within one of them, or `bearer` at the end of one that another
    follows. -/
theorem containsSensitiveMarker_tokens {pieces : List (List Char)}
    (h : ∀ piece ∈ pieces, ' ' ∉ piece) :
    containsSensitiveMarker ([' '].intercalate pieces) = true ↔
      (∃ piece ∈ pieces, containsSensitiveMarker piece = true) ∨
      ∃ piece ∈ pieces.dropLast, bearer <:+ asciiLower piece := by
  have hbearer : ' ' ∉ bearer := by decide
  have hlower : ∀ piece ∈ pieces.map asciiLower, ' ' ∉ piece := by
    intro piece hin
    obtain ⟨original, horiginal, rfl⟩ := List.mem_map.mp hin
    exact space_not_mem_asciiLower (h original horiginal)
  have hlast : (∃ piece ∈ (pieces.map asciiLower).dropLast, bearer <:+ piece) ↔
      ∃ piece ∈ pieces.dropLast, bearer <:+ asciiLower piece := by
    rw [← List.map_dropLast]
    simp only [List.mem_map, exists_exists_and_eq_and]
  rw [containsSensitiveMarker_iff, asciiLower_intercalate]
  constructor
  · rintro ⟨marker, hmarker, hwithin⟩
    obtain ⟨hne, hsolid | hspace⟩ := marker_solid_or_bearer hmarker
    · obtain ⟨piece, hin, hpiece⟩ := (infix_intercalate hsolid hne _).mp hwithin
      obtain ⟨original, horiginal, rfl⟩ := List.mem_map.mp hin
      exact .inl ⟨original, horiginal, containsSensitiveMarker_iff.mpr ⟨marker, hmarker, hpiece⟩⟩
    · rw [hspace] at hwithin
      exact .inr (hlast.mp ((infix_intercalate_concat hbearer hlower).mp hwithin))
  · rintro (⟨piece, hin, hpiece⟩ | hend)
    · obtain ⟨marker, hmarker, hwithin⟩ := containsSensitiveMarker_iff.mp hpiece
      have hinLower : asciiLower piece ∈ pieces.map asciiLower := List.mem_map_of_mem hin
      obtain ⟨hne, hsolid | hspace⟩ := marker_solid_or_bearer hmarker
      · exact ⟨marker, hmarker, (infix_intercalate hsolid hne _).mpr ⟨_, hinLower, hwithin⟩⟩
      · -- a token has no space, so this marker is not inside one
        rw [hspace] at hwithin
        refine absurd (hwithin.subset ?_) (hlower _ hinLower)
        exact List.mem_append_right _ List.mem_cons_self
    · obtain ⟨marker, hmarker, hspace⟩ := bearer_mem
      refine ⟨marker, hmarker, ?_⟩
      rw [hspace]
      exact (infix_intercalate_concat hbearer hlower).mpr (hlast.mpr hend)

/-! ## Tokens -/

/-- The tokens of a line once escapes are stripped, the evidence delimiters replaced and the bidi
    controls left out: between white space and control characters. -/
def shownTokens (raw : List Char) : List (List Char) :=
  words (fun c => isWhitespace c || isControl c)
    ((redactDelimiters (stripAnsi raw)).filter (fun c => !isBidiControl c))

/-- What stands for a token in the result. -/
def redactToken (token : List Char) : List Char :=
  if absoluteToken token then redactedAbsolutePath else token

/-- A token of its own: not empty, without white space. -/
def Solid (token : List Char) : Prop := token ≠ [] ∧ ∀ c ∈ token, isWhitespace c = false

theorem shownTokens_solid {raw token : List Char} (h : token ∈ shownTokens raw) : Solid token := by
  refine ⟨(mem_words h).2, fun c hc => ?_⟩
  exact (Bool.or_eq_false_iff.mp (not_of_mem_words h c hc)).1

theorem redactedAbsolutePath_solid : Solid redactedAbsolutePath := by
  have hne : redactedAbsolutePath ≠ [] := by decide
  have hall : ∀ c ∈ redactedAbsolutePath, isWhitespace c = false :=
    forall_mem_of_all (by decide)
  exact ⟨hne, hall⟩

theorem redactToken_solid {token : List Char} (h : Solid token) : Solid (redactToken token) := by
  rw [redactToken]
  split
  · exact redactedAbsolutePath_solid
  · exact h

/-- No token would be redacted again. -/
theorem redactToken_relative (token : List Char) : absoluteToken (redactToken token) = false := by
  have hpath : absoluteToken redactedAbsolutePath = false := by decide
  rw [redactToken]
  split
  · exact hpath
  · rename_i hrelative
    exact Bool.eq_false_iff.mpr hrelative

theorem words_trimChars (cs : List Char) :
    words isWhitespace (trimChars cs) = words isWhitespace cs := words_trim cs

/-- The words between white space, once control characters are spaces, are the words between white
    space and control characters. -/
theorem words_dropHidden (line : List Char) : words isWhitespace (dropHidden line) =
    words (fun c => isWhitespace c || isControl c) (line.filter (fun c => !isBidiControl c)) := by
  have hspace : (fun c => isWhitespace (if isControl c then ' ' else c)) =
      fun c => isWhitespace c || isControl c := by
    funext c
    split
    · rename_i hcontrol
      rw [hcontrol, Bool.or_true]
      rfl
    · rename_i hcontrol
      rw [Bool.eq_false_iff.mpr hcontrol, Bool.or_false]
  rw [dropHidden, words_map, hspace]
  conv_rhs => rw [← List.map_id (words _ _)]
  refine List.map_congr_left (fun word hword => ?_)
  rw [id_eq]
  conv_rhs => rw [← List.map_id word]
  refine List.map_congr_left (fun c hc => ?_)
  have hshown := (Bool.or_eq_false_iff.mp (not_of_mem_words hword c hc)).2
  rw [hshown]
  rfl

/-- A line without a marker comes out as its tokens, absolute paths replaced. -/
theorem sanitizeLine_tokens {raw : List Char}
    (h : containsSensitiveMarker (stripAnsi raw) = false) :
    sanitizeLine raw = [' '].intercalate ((shownTokens raw).map redactToken) := by
  rw [sanitizeLine, h, if_neg Bool.false_ne_true, redactAbsolutePathTokens, words_trimChars, words_dropHidden]
  rfl

theorem sanitizeLine_marked {raw : List Char}
    (h : containsSensitiveMarker (stripAnsi raw) = true) :
    sanitizeLine raw = redactedSensitiveLine := by
  rw [sanitizeLine, if_pos h]

/-- The words of the result are the tokens that were decided upon. -/
theorem words_sanitizeLine {raw : List Char}
    (h : containsSensitiveMarker (stripAnsi raw) = false) :
    words isWhitespace (sanitizeLine raw) = (shownTokens raw).map redactToken := by
  rw [sanitizeLine_tokens h]
  refine words_intercalate (by decide) (fun piece hpiece => ?_)
  obtain ⟨token, htoken, rfl⟩ := List.mem_map.mp hpiece
  exact redactToken_solid (shownTokens_solid htoken)

/-! ## Clean lines -/

/-- **A clean line**: no sensitive marker, nothing hidden, no token that would be redacted. -/
structure Clean (line : List Char) : Prop where
  noMarker : containsSensitiveMarker line = false
  noControl : ∀ c ∈ line, isControl c = false
  noBidi : ∀ c ∈ line, isBidiControl c = false
  noAbsolutePath : ∀ token ∈ words isWhitespace line, absoluteToken token = false

/-- Whatever the line, all that can be wrong with the result is a marker. -/
theorem clean_sanitizeLine {raw : List Char} :
    Clean (sanitizeLine raw) ↔ containsSensitiveMarker (sanitizeLine raw) = false := by
  constructor
  · intro h
    exact h.noMarker
  · intro h
    have hplain := sanitizeLine_plain raw
    refine ⟨h, fun c hc => ?_, fun c hc => ?_, ?_⟩
    · exact (Bool.or_eq_false_iff.mp (hplain c hc)).1
    · exact (Bool.or_eq_false_iff.mp (hplain c hc)).2
    · cases hmarked : containsSensitiveMarker (stripAnsi raw) with
      | true =>
        rw [sanitizeLine_marked hmarked]
        decide
      | false =>
        rw [words_sanitizeLine hmarked]
        intro token hin
        obtain ⟨original, -, rfl⟩ := List.mem_map.mp hin
        exact redactToken_relative original

/-- The escape-free line holds a marker, and is redacted as a whole; or no token that is shown
    holds one, and none but the last ends in `bearer`. -/
def MarkersInView (raw : List Char) : Prop :=
  containsSensitiveMarker (stripAnsi raw) = true ∨
    (∀ token ∈ shownTokens raw, absoluteToken token = false →
      containsSensitiveMarker token = false) ∧
    ∀ token ∈ (shownTokens raw).dropLast, absoluteToken token = false →
      ¬ bearer <:+ asciiLower token

theorem marker_redactToken {token : List Char} :
    containsSensitiveMarker (redactToken token) = true ↔
      absoluteToken token = false ∧ containsSensitiveMarker token = true := by
  have hpath : containsSensitiveMarker redactedAbsolutePath = false := by decide
  cases habsolute : absoluteToken token with
  | true =>
    rw [redactToken, if_pos habsolute, hpath]
    simp
  | false =>
    rw [redactToken, if_neg (Bool.eq_false_iff.mp habsolute)]
    simp

theorem bearer_redactToken {token : List Char} :
    bearer <:+ asciiLower (redactToken token) ↔
      absoluteToken token = false ∧ bearer <:+ asciiLower token := by
  have hpath : ¬ bearer <:+ asciiLower redactedAbsolutePath := by decide
  cases habsolute : absoluteToken token with
  | true =>
    rw [redactToken, if_pos habsolute]
    simp [hpath]
  | false =>
    rw [redactToken, if_neg (Bool.eq_false_iff.mp habsolute)]
    simp

/-- **Redaction.**  A line comes out clean exactly when its markers are in view where they are
    looked for. -/
theorem sanitizeLine_clean_iff (raw : List Char) : Clean (sanitizeLine raw) ↔ MarkersInView raw := by
  rw [clean_sanitizeLine]
  cases hmarked : containsSensitiveMarker (stripAnsi raw) with
  | true =>
    have hredacted : containsSensitiveMarker redactedSensitiveLine = false := by decide
    rw [sanitizeLine_marked hmarked]
    constructor
    · intro _
      exact .inl hmarked
    · intro _
      exact hredacted
  | false =>
    have hspace : ∀ piece ∈ (shownTokens raw).map redactToken, ' ' ∉ piece := by
      intro piece hpiece hin
      obtain ⟨token, htoken, rfl⟩ := List.mem_map.mp hpiece
      have hsolid := (redactToken_solid (shownTokens_solid htoken)).2 ' ' hin
      revert hsolid
      decide
    rw [sanitizeLine_tokens hmarked, ← Bool.not_eq_true, containsSensitiveMarker_tokens hspace,
      ← List.map_dropLast, MarkersInView, hmarked]
    simp only [List.mem_map, exists_exists_and_eq_and, marker_redactToken, bearer_redactToken,
      not_or, not_exists, not_and, Bool.false_eq_true, false_or, Bool.not_eq_true]

/-- A tab after `bearer` passes the check, and comes out as the space of the marker. -/
theorem bearer_tab_shown : ¬ Clean (sanitizeLine "bearer\tabc".toList) := by
  intro h
  have hmarker := h.noMarker
  revert hmarker
  decide

/-- So does a bidi control inside a marker, which is dropped. -/
example : sanitizeLine ("to".toList ++ Char.ofNat 0x202E :: "ken=abc".toList) =
    "token=abc".toList := by
  decide

end VibeCoder.Build
