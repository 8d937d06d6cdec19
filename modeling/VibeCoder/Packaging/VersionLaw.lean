/-
  What the version checks of native tools answer.

  1. **Alternatives** — the parts between `||` are the branches of a requirement
     (`readAlternatives_iff`), also when the text has been trimmed first (`map_tokens_trim`).

  2. **One reading** — `readRequirement` reads a text by the grammar (`readRequirement_iff`).  The
     support check asks whether it succeeds (`versionRequirementIsSupported_eq`), and the evaluation
     answers what the requirement admits (`matchBranches_eq`).

  3. **Output** — the scan slices at character boundaries only (`tripletFrom_ne_none`), and finds a
     version in its own text (`firstSemverTriplet_formatSemver`).
-/
import VibeCoder.Packaging.VersionGrammar

namespace VibeCoder.NativeProbe

open Chars

/-! ## Alternatives -/

/-- One character that starts no `||`. -/
theorem splitBranches_cons {c : Char} {cs : List Char} (h : ∀ rest, c :: cs ≠ '|' :: '|' :: rest) :
    splitBranches (c :: cs) = (splitBranches cs).modifyHead (c :: ·) := by
  rw [splitBranches]
  rintro rest rfl rfl
  exact h rest rfl

/-- What stands before a text without a bar. -/
theorem splitBranches_append {before : List Char} (h : '|' ∉ before) (cs : List Char) :
    splitBranches (before ++ cs) = (splitBranches cs).modifyHead (before ++ ·) := by
  induction before with
  | nil =>
    rw [List.nil_append]
    cases splitBranches cs with
    | nil => rfl
    | cons part parts => rfl
  | cons c before ih =>
    rw [List.mem_cons, not_or] at h
    obtain ⟨hc, hbefore⟩ := h
    have hstart : ∀ rest, c :: (before ++ cs) ≠ '|' :: '|' :: rest := by
      intro rest heq
      exact hc (List.cons.inj heq).1.symm
    rw [List.cons_append, splitBranches_cons hstart, ih hbefore, List.modifyHead_modifyHead]
    rfl

theorem splitBranches_or {text : List Char} (h : '|' ∉ text) (rest : List Char) :
    splitBranches (text ++ '|' :: '|' :: rest) = text :: splitBranches rest := by
  rw [splitBranches_append h, splitBranches, List.modifyHead_cons, List.append_nil]

theorem splitBranches_single {text : List Char} (h : '|' ∉ text) : splitBranches text = [text] := by
  have hsplit := splitBranches_append h []
  rwa [List.append_nil, splitBranches, List.modifyHead_cons, List.append_nil] at hsplit

/-- **The first part**, and what follows it. -/
theorem splitBranches_cases (text : List Char) :
    splitBranches text = [text] ∨ ∃ part rest, text = part ++ '|' :: '|' :: rest ∧
      splitBranches text = part :: splitBranches rest := by
  fun_induction splitBranches text with
  | case1 => exact .inl rfl
  | case2 cs ih => exact .inr ⟨[], cs, rfl, rfl⟩
  | case3 c cs h ih =>
    rcases ih with hone | ⟨part, rest, hcs, hparts⟩
    · rw [hone]
      exact .inl rfl
    · refine .inr ⟨c :: part, rest, ?_, ?_⟩
      · rw [hcs]
        rfl
      · rw [hparts]
        rfl

/-- What stands after a text belongs to its last part. -/
theorem splitBranches_concat {after : List Char} (h : '|' ∉ after) (cs : List Char) :
    ∃ parts last, splitBranches cs = parts ++ [last] ∧
      splitBranches (cs ++ after) = parts ++ [last ++ after] := by
  fun_induction splitBranches cs with
  | case1 => exact ⟨[], [], rfl, splitBranches_single h⟩
  | case2 cs ih =>
    obtain ⟨parts, last, hcs, hlong⟩ := ih
    refine ⟨[] :: parts, last, ?_, ?_⟩
    · rw [hcs]
      rfl
    · rw [List.cons_append, List.cons_append, splitBranches, hlong]
      rfl
  | case3 c cs hstart ih =>
    have hlong : ∀ rest, c :: (cs ++ after) ≠ '|' :: '|' :: rest := by
      rintro rest heq
      obtain ⟨rfl, hrest⟩ := List.cons.inj heq
      cases cs with
      | nil =>
        rw [List.nil_append] at hrest
        exact h (hrest ▸ List.mem_cons_self)
      | cons d cs =>
        obtain ⟨rfl, -⟩ := List.cons.inj hrest
        exact hstart cs rfl rfl
    obtain ⟨parts, last, hcs, hsplit⟩ := ih
    rw [List.cons_append, splitBranches_cons hlong, hsplit, hcs]
    cases parts with
    | nil => exact ⟨[], c :: last, rfl, rfl⟩
    | cons part parts => exact ⟨(c :: part) :: parts, last, rfl, rfl⟩

/-- Trimming the whole text changes no word of a part. -/
theorem map_tokens_trim (text : List Char) :
    (splitBranches (trimChars text)).map tokens = (splitBranches text).map tokens := by
  obtain ⟨before, after, htext, hbefore, hafter⟩ := trim_split isWhitespace text
  have hbar : ∀ {cs : List Char}, Blank cs → '|' ∉ cs :=
    fun hblank hin => absurd (hblank '|' hin) (by decide)
  have hfront : ∀ cs, (splitBranches (before ++ cs)).map tokens = (splitBranches cs).map tokens := by
    intro cs
    rw [splitBranches_append (hbar hbefore)]
    cases splitBranches cs with
    | nil => rfl
    | cons part parts =>
      rw [List.modifyHead_cons, List.map_cons, List.map_cons, tokens,
        words_space_append part hbefore]
      rfl
  have hback : ∀ cs, (splitBranches (cs ++ after)).map tokens = (splitBranches cs).map tokens := by
    intro cs
    obtain ⟨parts, last, hcs, hlong⟩ := splitBranches_concat (hbar hafter) cs
    rw [hcs, hlong, List.map_append, List.map_append]
    congr 1
    show [words isWhitespace (last ++ after)] = [words isWhitespace last]
    rw [words_append_space last hafter]
  conv_rhs => rw [htext, hback, hfront]
  rfl

/-- **The parts of a requirement** are its branches. -/
theorem readAlternatives_iff {text : List Char} {branches : List (List Comparator)} :
    ((splitBranches text).map tokens).mapM readBranch = some branches ↔
      Alternatives text branches := by
  constructor
  · intro h
    induction branches generalizing text with
    | nil =>
      cases hparts : splitBranches text with
      | nil => exact absurd hparts (splitBranches_ne_nil text)
      | cons part parts =>
        rw [hparts, List.map_cons, List.mapM_cons] at h
        simp [Option.bind_eq_some_iff] at h
    | cons branch branches ih =>
      rcases splitBranches_cases text with hone | ⟨part, rest, rfl, hparts⟩
      · rw [hone] at h
        obtain ⟨first, hfirst, heq⟩ := Option.bind_eq_some_iff.mp
          ((List.mapM_cons (f := readBranch)).symm.trans h)
        cases heq
        exact .last (readBranch_iff.mp hfirst)
      · rw [hparts] at h
        obtain ⟨hbranch, hrest⟩ : readBranch (tokens part) = some branch ∧
            ((splitBranches rest).map tokens).mapM readBranch = some branches := by
          simpa [Option.bind_eq_some_iff] using h
        exact .or (readBranch_iff.mp hbranch) (ih hrest)
  · intro h
    induction h with
    | last h =>
      rw [splitBranches_single h.chars.1, List.map_cons, List.mapM_cons, readBranch_iff.mpr h]
      rfl
    | or h hrest ih =>
      rw [splitBranches_or h.chars.1, List.map_cons, List.mapM_cons, readBranch_iff.mpr h, ih]
      rfl

/-! ## One reading -/

/-- What both functions read from a text. -/
def readRequirement (text : List Char) : Option (List (List Comparator)) :=
  match exactSemver (trimChars text) with
  | some version => some [[⟨.equal, version⟩]]
  | none => ((splitBranches text).map tokens).mapM readBranch

theorem Alternatives.operator {text : List Char} {branches : List (List Comparator)}
    (h : Alternatives text branches) : ∃ d ∈ text, isWhitespace d = false ∧ ¬ VersionChar d := by
  cases h with
  | last h => exact h.chars.2
  | or h hrest =>
    obtain ⟨d, hd, hwhat⟩ := h.chars.2
    exact ⟨d, List.mem_append_left _ hd, hwhat⟩

theorem isWhitespace_versionChar {c : Char} (h : VersionChar c) : isWhitespace c = false := by
  rcases h with h | rfl
  · obtain ⟨hlow, hhigh⟩ := toNat_of_isDigit.mp h
    unfold isWhitespace
    simp
    omega
  · decide

/-- **The reading** follows the grammar. -/
theorem readRequirement_iff {text : List Char} {requirement : List (List Comparator)} :
    readRequirement text = some requirement ↔ Means text requirement := by
  obtain ⟨before, after, htext, hbefore, hafter⟩ := trim_split isWhitespace text
  unfold readRequirement
  constructor
  · intro h
    cases hexact : exactSemver (trimChars text) with
    | some version =>
      rw [hexact] at h
      cases h
      rw [htext]
      exact .exact hbefore (exactSemver_iff.mp hexact) hafter
    | none =>
      rw [hexact] at h
      exact .range (readAlternatives_iff.mp h)
  · intro h
    cases h with
    | exact hb hversion ha =>
      have hsolid := fun c hc => isWhitespace_versionChar ((Bound.exact hversion).versionChar c hc)
      have htrim : trimChars _ = _ := trim_solid hb hsolid ha
      rw [htrim, exactSemver_iff.mpr hversion]
    | range h =>
      have hnone : exactSemver (trimChars text) = none := by
        rw [Option.eq_none_iff_forall_ne_some]
        intro version hversion
        -- then every character would be white space or part of a version
        obtain ⟨d, hd, hsolid, hchar⟩ := h.operator
        rw [htext, List.mem_append, List.mem_append] at hd
        rcases hd with (hd | hd) | hd
        · rw [hbefore d hd] at hsolid
          cases hsolid
        · exact hchar ((Bound.exact (exactSemver_iff.mp hversion)).versionChar d hd)
        · rw [hafter d hd] at hsolid
          cases hsolid
      rw [hnone]
      exact readAlternatives_iff.mpr h

/-- The support check of a branch. -/
theorem supportTokens_eq (words : List (List Char)) (saw : Bool) :
    supportTokens words saw =
      (words.mapM parseComparator).map (fun cs => saw || !cs.isEmpty) := by
  induction words generalizing saw with
  | nil => simp [supportTokens]
  | cons word rest ih =>
    rw [supportTokens, List.mapM_cons, ih]
    cases parseComparator word with
    | none => rfl
    | some c =>
      rw [if_neg nofun]
      cases rest.mapM parseComparator with
      | none => rfl
      | some cs => simp

/-- The words of a part, trimmed first or not. -/
theorem tokens_trim (part : List Char) : tokens (trimChars part) = tokens part := words_trim part

theorem tokens_of_trim_nil {part : List Char} (h : (trimChars part).isEmpty = true) :
    tokens part = [] := by
  rw [← tokens_trim, List.isEmpty_iff.mp h]
  rfl

/-- The support check of the branches. -/
theorem supportBranches_eq (parts : List (List Char)) (saw : Bool) :
    supportBranches parts saw =
      if parts = [] then saw else ((parts.map tokens).mapM readBranch).isSome := by
  induction parts generalizing saw with
  | nil => rfl
  | cons part parts ih =>
    rw [supportBranches, if_neg (List.cons_ne_nil part parts), List.map_cons, List.mapM_cons,
      tokens_trim]
    split
    · rename_i hempty
      rw [tokens_of_trim_nil hempty]
      rfl
    · rw [supportTokens_eq, ih, readBranch]
      cases htokens : tokens part with
      | nil => rfl
      | cons word words =>
        rw [if_neg (List.cons_ne_nil word words), List.mapM_cons]
        cases parseComparator word with
        | none => rfl
        | some c =>
          cases words.mapM parseComparator with
          | none => rfl
          | some cs =>
            cases parts with
            | nil => rfl
            | cons next parts =>
              cases hrest : ((next :: parts).map tokens).mapM readBranch with
              | none => simp
              | some branches => simp

/-- **Supported** is what can be read. -/
theorem versionRequirementIsSupported_eq (text : List Char) :
    versionRequirementIsSupported text = (readRequirement text).isSome := by
  unfold versionRequirementIsSupported readRequirement
  dsimp only
  cases exactSemver (trimChars text) with
  | some version => rfl
  | none =>
    show supportBranches (splitBranches (trimChars text)) false = _
    rw [supportBranches_eq, if_neg (splitBranches_ne_nil _), map_tokens_trim]

/-- The evaluation of a branch. -/
theorem matchTokens_eq (actual : Version) (words : List (List Char)) (saw ok : Bool) :
    matchTokens actual words saw ok = (words.mapM parseComparator).map
      (fun cs => (saw || !cs.isEmpty, ok && cs.all (·.accepts actual))) := by
  induction words generalizing saw ok with
  | nil => simp [matchTokens]
  | cons word rest ih =>
    rw [matchTokens, List.mapM_cons]
    cases parseComparator word with
    | none => rfl
    | some c =>
      show matchTokens actual rest true (ok && c.accepts actual) = _
      rw [ih]
      cases rest.mapM parseComparator with
      | none => rfl
      | some cs => simp [Bool.and_assoc]

/-- **The evaluation** of what can be read. -/
theorem matchBranches_eq {actual : Version} {parts : List (List Char)}
    {branches : List (List Comparator)} (h : (parts.map tokens).mapM readBranch = some branches) :
    matchBranches actual parts = branches.any (fun branch => branch.all (·.accepts actual)) := by
  induction parts generalizing branches with
  | nil =>
    cases h
    rfl
  | cons part parts ih =>
    rw [List.map_cons, List.mapM_cons] at h
    obtain ⟨branch, hbranch, h⟩ := Option.bind_eq_some_iff.mp h
    obtain ⟨rest, hrest, h⟩ := Option.bind_eq_some_iff.mp h
    cases h
    obtain ⟨hwords, hne⟩ := mapM_tokens_iff.mpr (readBranch_iff.mp hbranch)
    have hempty : ¬ (trimChars part).isEmpty = true := by
      intro hempty
      rw [tokens_of_trim_nil hempty] at hbranch
      cases hbranch
    rw [matchBranches, if_neg hempty, tokens_trim, matchTokens_eq, hwords, ih hrest, List.any_cons]
    have hsaw : branch.isEmpty = false := List.isEmpty_eq_false_iff.mpr hne
    simp only [Option.map_some, hsaw, Bool.not_false, Bool.or_true, Bool.not_true,
      Bool.false_eq_true, if_false, Bool.true_and]
    cases branch.all (·.accepts actual) with
    | true => rfl
    | false => rfl

/-- What a requirement admits. -/
theorem admits_iff {requirement : List (List Comparator)} {actual : Version} :
    requirement.any (fun branch => branch.all (·.accepts actual)) = true ↔
      Admits requirement actual := by
  simp only [List.any_eq_true, List.all_eq_true, accepts_iff, Admits]

instance (requirement : List (List Comparator)) (actual : Version) :
    Decidable (Admits requirement actual) := decidable_of_iff _ admits_iff

/-- The answer for an output with a version. -/
theorem versionRequirementMatches_eq {requirement output : List Char} {actual : Version}
    (h : firstSemverTriplet output = some (some actual)) :
    versionRequirementMatches requirement output = some (match readRequirement requirement with
      | none => false
      | some branches => decide (Admits branches actual)) := by
  have hadmits : ∀ branches, decide (Admits branches actual) =
      branches.any (fun branch => branch.all (·.accepts actual)) := by
    intro branches
    rw [Bool.eq_iff_iff, decide_eq_true_eq, admits_iff]
  have htrim : trimChars (trimChars requirement) = trimChars requirement :=
    trim_trim isWhitespace requirement
  have hsupported : versionRequirementIsSupported (trimChars requirement) =
      (readRequirement requirement).isSome := by
    rw [← versionRequirementIsSupported_eq, versionRequirementIsSupported,
      versionRequirementIsSupported, htrim]
  unfold versionRequirementMatches
  rw [h]
  dsimp only [Option.bind_eq_bind, Option.bind_some]
  rw [hsupported]
  cases hread : readRequirement requirement with
  | none => rfl
  | some branches =>
    simp only [Option.isSome_some, Bool.not_true, Bool.false_eq_true, if_false]
    unfold readRequirement at hread
    cases hexact : exactSemver (trimChars requirement) with
    | some version =>
      rw [hexact] at hread
      cases hread
      rw [hadmits]
      simp only [List.any_cons, List.any_nil, List.all_cons, List.all_nil, Comparator.accepts,
        Bool.and_true, Bool.or_false]
      exact congrArg some (Bool.beq_comm ..)
    | none =>
      rw [hexact, ← map_tokens_trim] at hread
      rw [hadmits]
      exact congrArg some (matchBranches_eq hread)

/-! ## Output -/

/-- The row of digits and dots from `start` on. -/
theorem candidateEnd_row (bytes : List UInt8) (start : Nat) : ∀ i, start ≤ i →
    i < candidateEnd bytes start → ∃ b, bytes[i]? = some b ∧ isVersionByte b = true := by
  induction start using candidateEnd.induct bytes with
  | case1 start h hbyte ih =>
    rw [candidateEnd, dif_pos h, if_pos hbyte]
    intro i hle hlt
    by_cases heq : i = start
    · subst heq
      exact ⟨_, List.getElem?_eq_getElem h, hbyte⟩
    · exact ih i (by omega) hlt
  | case2 start h hbyte =>
    rw [candidateEnd, dif_pos h, if_neg hbyte]
    intro i hle hlt
    omega
  | case3 start h =>
    rw [candidateEnd, dif_neg h]
    intro i hle hlt
    omega

theorem candidateEnd_all {bytes : List UInt8} (h : ∀ b ∈ bytes, isVersionByte b = true)
    (start : Nat) (hle : start ≤ bytes.length) : candidateEnd bytes start = bytes.length := by
  induction start using candidateEnd.induct bytes with
  | case1 start hlt hbyte ih =>
    rw [candidateEnd, dif_pos hlt, if_pos hbyte]
    exact ih hlt
  | case2 start hlt hbyte => exact absurd (h _ (List.getElem_mem hlt)) hbyte
  | case3 start hlt =>
    rw [candidateEnd, dif_neg hlt]
    omega

theorem low_of_version {b : UInt8} (h : isVersionByte b = true) : b.toNat < 0x80 := by
  have := isVersionByte_iff.mp h
  omega

theorem isVersionByte_of_digit {b : UInt8} (h : isDigitByte b = true) : isVersionByte b = true := by
  unfold isDigitByte at h
  unfold isVersionByte
  rw [h]
  rfl

/-- **The scan never slices inside a character.** -/
theorem tripletFrom_ne_none (value : List Char) (start : Nat) : tripletFrom value start ≠ none := by
  induction start using tripletFrom.induct value with
  | case1 start h hdigit ih =>
    rw [tripletFrom, dif_pos h, if_pos hdigit]
    exact ih
  | case2 start h hdigit stop hslice =>
    -- the row has one byte at least, and its last byte is a digit or a dot
    rw [Bool.not_eq_true, Bool.not_eq_false'] at hdigit
    have hversion := isVersionByte_of_digit hdigit
    have hstop : start + 1 ≤ stop := by
      show start + 1 ≤ candidateEnd (encode value) start
      rw [candidateEnd, dif_pos h, if_pos hversion]
      exact le_candidateEnd _ _
    obtain ⟨b, hb, hrow⟩ := candidateEnd_row (encode value) start (stop - 1) (by omega)
      (by show stop - 1 < stop; omega)
    obtain ⟨mid, hmid⟩ := slice_low (by omega) (List.getElem?_eq_getElem h) (low_of_version hversion)
      hb (low_of_version hrow)
    rw [Nat.sub_add_cancel (by omega), hslice] at hmid
    cases hmid
  | case3 start h hdigit stop candidate hslice version hexact =>
    rw [tripletFrom, dif_pos h, if_neg hdigit]
    simp only [hslice, hexact, stop]
    intro h
    cases h
  | case4 start h hdigit stop candidate hslice hexact ih =>
    rw [tripletFrom, dif_pos h, if_neg hdigit]
    simp only [hslice, hexact, stop]
    exact ih
  | case5 start h =>
    rw [tripletFrom, dif_neg h]
    intro hnone
    cases hnone

/-- The digits of a number. -/
theorem number_toDigits (n : UInt64) : Number (Nat.toDigits 10 n.toNat) n where
  nonempty := Nat.toDigits_ne_nil
  digits c hc := Nat.isDigit_of_mem_toDigits (by decide) (by decide) hc
  value := Nat.ofDigitChars_ten_toDigits

theorem exact_formatSemver (version : Version) : Exact (formatSemver version) version :=
  .parts (number_toDigits _) (number_toDigits _) (number_toDigits _)

/-- **A version is found in its own text.** -/
theorem firstSemverTriplet_formatSemver (version : Version) :
    firstSemverTriplet (formatSemver version) = some (some version) := by
  have hexact := exact_formatSemver version
  have hchars := (Bound.exact hexact).versionChar
  have hbytes := all_isVersionByte.mpr hchars
  obtain ⟨c, cs, htext, hc⟩ := (Bound.exact hexact).head
  -- the last character is a digit, so that nothing is trimmed
  have hlast : (formatSemver version).rdropWhile (· == '.') = formatSemver version := by
    have hpatch := number_toDigits version.patch
    obtain ⟨before, d, hd⟩ : ∃ before d, Nat.toDigits 10 version.patch.toNat = before ++ [d] := by
      rcases List.eq_nil_or_concat (Nat.toDigits 10 version.patch.toNat) with hnil | hd
      · exact absurd hnil hpatch.nonempty
      · simpa only [List.concat_eq_append] using hd
    have hdigit : ¬ (d == '.') = true := by
      rw [beq_iff_eq]
      rintro rfl
      apply hpatch.no_dot
      rw [hd]
      simp
    have htail : formatSemver version = Nat.toDigits 10 version.major.toNat ++
        '.' :: (Nat.toDigits 10 version.minor.toNat ++ '.' :: before) ++ [d] := by
      rw [formatSemver, hd]
      simp
    rw [htail, List.rdropWhile_concat_neg (· == '.') _ _ hdigit]
  have hstart : 0 < (encode (formatSemver version)).length := by
    rw [length_encode]
    apply byteLen_pos
    rw [htext]
    exact List.cons_ne_nil c cs
  have hfirst : isDigitByte (encode (formatSemver version))[0] = true := by
    have hsize := utf8Size_versionChar (.inl hc : VersionChar c)
    have hbyte : (encode (formatSemver version))[0] = c.val.toUInt8 := by
      simp only [htext, encode_cons, String.utf8EncodeChar_eq_singleton hsize, List.singleton_append,
        List.getElem_cons_zero]
    obtain ⟨hlow, hhigh⟩ := toNat_of_isDigit.mp hc
    rw [hbyte, isDigitByte, Bool.and_eq_true, decide_eq_true_eq, decide_eq_true_eq,
      UInt8.le_iff_toNat_le, UInt8.le_iff_toNat_le, UInt32.toNat_toUInt8]
    change 48 ≤ c.toNat % 256 ∧ c.toNat % 256 ≤ 57
    omega
  rw [firstSemverTriplet, tripletFrom, dif_pos hstart, hfirst]
  have hrow := candidateEnd_all (fun b hb => List.all_eq_true.mp hbytes b hb) 0 (Nat.zero_le _)
  simp only [Bool.not_true, Bool.false_eq_true, if_false, hrow, length_encode, slice_all, hlast,
    exactSemver_iff.mpr hexact]

/-! ## The law -/

/-- **Version requirements.**  A supported text is one of the grammar, with one meaning; the answer
    for a version is whether the requirement admits it, and no for every other text.  The scan of an
    output never panics, and finds a version in its own text. -/
theorem version_requirement_law :
    (∀ requirement, versionRequirementIsSupported requirement = true →
      ∃ branches, (∀ other, Means requirement other ↔ other = branches) ∧
        ∀ output actual, firstSemverTriplet output = some (some actual) →
          versionRequirementMatches requirement output = some (decide (Admits branches actual))) ∧
    (∀ requirement output, versionRequirementIsSupported requirement = false →
      versionRequirementMatches requirement output = some false) ∧
    (∀ output, firstSemverTriplet output ≠ none) ∧
    ∀ version, firstSemverTriplet (formatSemver version) = some (some version) := by
  refine ⟨?_, ?_, fun output => tripletFrom_ne_none output 0, firstSemverTriplet_formatSemver⟩
  · intro requirement h
    rw [versionRequirementIsSupported_eq, Option.isSome_iff_exists] at h
    obtain ⟨branches, hread⟩ := h
    refine ⟨branches, fun other => ?_, fun output actual houtput => ?_⟩
    · rw [← readRequirement_iff, hread, Option.some.injEq, eq_comm]
    · rw [versionRequirementMatches_eq houtput, hread]
  · intro requirement output h
    rw [versionRequirementIsSupported_eq, Option.isSome_eq_false_iff, Option.isNone_iff_eq_none] at h
    cases houtput : firstSemverTriplet output with
    | none => exact absurd houtput (tripletFrom_ne_none output 0)
    | some found =>
      cases found with
      | none =>
        rw [versionRequirementMatches, houtput]
        rfl
      | some actual => rw [versionRequirementMatches_eq houtput, h]

/-- One of two ranges holds `24.19.1`. -/
theorem version_requirement_law_ranges :
    versionRequirementMatches ">=22.22.2 <23 || >=24.0.0 <27".toList (formatSemver ⟨24, 19, 1⟩) =
      some true := by
  obtain ⟨hsupported, -, -, hformat⟩ := version_requirement_law
  obtain ⟨branches, hmeans, hanswer⟩ :=
    hsupported ">=22.22.2 <23 || >=24.0.0 <27".toList (by decide)
  have hbranches : [[⟨.greaterOrEqual, ⟨22, 22, 2⟩⟩, ⟨.less, ⟨23, 0, 0⟩⟩],
      [⟨.greaterOrEqual, ⟨24, 0, 0⟩⟩, ⟨.less, ⟨27, 0, 0⟩⟩]] = branches := by
    rw [← hmeans, ← readRequirement_iff]
    decide
  rw [hanswer _ _ (hformat ⟨24, 19, 1⟩), ← hbranches]
  decide

end VibeCoder.NativeProbe
