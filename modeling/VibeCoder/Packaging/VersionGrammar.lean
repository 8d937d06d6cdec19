/-
  The grammar of version requirements, and what a requirement means.

  1. **Grammar** — `Means text requirement`: alternatives of comparators between white space, or one
     version with all its parts.  A requirement admits a version if all comparators of some
     alternative accept it.

  2. **Versions** — `semver_bound` reads the versions of the grammar (`semverBound_iff`).

  3. **Branches** — the words of a text are the comparators of a branch (`readBranch_iff`).
-/
import VibeCoder.Lib.Text
import VibeCoder.Packaging.VersionRequirement

namespace VibeCoder.NativeProbe

open Chars

/-! ## Grammar -/

/-- White space. -/
def Blank (cs : List Char) : Prop := ∀ c ∈ cs, isWhitespace c = true

/-- A row of digits for a number below 2^64. -/
structure Number (text : List Char) (n : UInt64) : Prop where
  nonempty : text ≠ []
  digits : ∀ c ∈ text, c.isDigit = true
  value : Nat.ofDigitChars 10 text 0 = n.toNat

/-- A version with all three parts. -/
inductive Exact : List Char → Version → Prop
  | parts {a b c : List Char} {x y z : UInt64} (ha : Number a x) (hb : Number b y) (hc : Number c z) :
    Exact (a ++ '.' :: (b ++ '.' :: c)) ⟨x, y, z⟩

/-- A version, with zero for a part that is missing. -/
inductive Bound : List Char → Version → Prop
  | major {a : List Char} {x : UInt64} (ha : Number a x) : Bound a ⟨x, 0, 0⟩
  | minor {a b : List Char} {x y : UInt64} (ha : Number a x) (hb : Number b y) :
    Bound (a ++ '.' :: b) ⟨x, y, 0⟩
  | exact {text : List Char} {version : Version} (h : Exact text version) : Bound text version

/-- The text of an operator. -/
def Comparison.text : Comparison → List Char
  | .less => ['<']
  | .lessOrEqual => ['<', '=']
  | .greater => ['>']
  | .greaterOrEqual => ['>', '=']
  | .equal => ['=']

/-- An operator and a version, without space. -/
inductive Token : List Char → Comparator → Prop
  | compare {bound : List Char} {version : Version} (operator : Comparison)
      (h : Bound bound version) : Token (operator.text ++ bound) ⟨operator, version⟩

/-- Comparators with white space between them. -/
inductive Branch : List Char → List Comparator → Prop
  | last {before token after : List Char} {c : Comparator} (hbefore : Blank before)
      (h : Token token c) (hafter : Blank after) : Branch (before ++ token ++ after) [c]
  | cons {before token rest : List Char} {c : Comparator} {cs : List Comparator} {gap : Char}
      (hbefore : Blank before) (h : Token token c) (hgap : isWhitespace gap = true)
      (hrest : Branch rest cs) : Branch (before ++ token ++ gap :: rest) (c :: cs)

/-- Branches with `||` between them. -/
inductive Alternatives : List Char → List (List Comparator) → Prop
  | last {text : List Char} {branch : List Comparator} (h : Branch text branch) :
    Alternatives text [branch]
  | or {text rest : List Char} {branch : List Comparator} {branches : List (List Comparator)}
      (h : Branch text branch) (hrest : Alternatives rest branches) :
    Alternatives (text ++ '|' :: '|' :: rest) (branch :: branches)

/-- What a text requires. -/
inductive Means : List Char → List (List Comparator) → Prop
  | exact {before text after : List Char} {version : Version} (hbefore : Blank before)
      (h : Exact text version) (hafter : Blank after) :
    Means (before ++ text ++ after) [[⟨.equal, version⟩]]
  | range {text : List Char} {branches : List (List Comparator)} (h : Alternatives text branches) :
    Means text branches

/-- Versions in the order of their parts. -/
def Version.Before (a b : Version) : Prop :=
  a.major < b.major ∨ a.major = b.major ∧ (a.minor < b.minor ∨ a.minor = b.minor ∧ a.patch < b.patch)

/-- The relation of an operator. -/
def Comparison.Relates (a b : Version) : Comparison → Prop
  | .less => a.Before b
  | .lessOrEqual => a.Before b ∨ a = b
  | .greater => b.Before a
  | .greaterOrEqual => b.Before a ∨ a = b
  | .equal => a = b

/-- **What a requirement admits**: all comparators of some alternative hold of the version. -/
def Admits (requirement : List (List Comparator)) (actual : Version) : Prop :=
  ∃ branch ∈ requirement, ∀ c ∈ branch, c.operator.Relates actual c.expected

theorem less_iff {a b : Version} : a.less b = true ↔ a.Before b := by
  simp only [Version.less, Version.Before, Bool.or_eq_true, Bool.and_eq_true, decide_eq_true_eq,
    beq_iff_eq]

theorem accepts_iff {c : Comparator} {actual : Version} :
    c.accepts actual = true ↔ c.operator.Relates actual c.expected := by
  unfold Comparator.accepts
  cases c.operator with
  | less => exact less_iff
  | lessOrEqual =>
    rw [Bool.or_eq_true, less_iff, beq_iff_eq]
    rfl
  | greater => exact less_iff
  | greaterOrEqual =>
    rw [Bool.or_eq_true, less_iff, beq_iff_eq]
    rfl
  | equal => exact beq_iff_eq

/-! ## Versions -/

/-- A digit or a dot. -/
def VersionChar (c : Char) : Prop := c.isDigit = true ∨ c = '.'

theorem toNat_of_isDigit {c : Char} : c.isDigit = true ↔ 48 ≤ c.toNat ∧ c.toNat ≤ 57 := by
  unfold Char.isDigit
  rw [Bool.and_eq_true, decide_eq_true_eq, decide_eq_true_eq]
  rfl

theorem utf8Size_versionChar {c : Char} (h : VersionChar c) : c.utf8Size = 1 := by
  apply Text.utf8Size_ascii
  rcases h with h | rfl
  · have := toNat_of_isDigit.mp h
    omega
  · decide

theorem isVersionByte_iff {b : UInt8} :
    isVersionByte b = true ↔ (48 ≤ b.toNat ∧ b.toNat ≤ 57) ∨ b.toNat = 46 := by
  unfold isVersionByte
  rw [Bool.or_eq_true, Bool.and_eq_true, decide_eq_true_eq, decide_eq_true_eq, beq_iff_eq,
    UInt8.le_iff_toNat_le, UInt8.le_iff_toNat_le, ← UInt8.toNat_inj]
  rfl

theorem isVersionByte_char {c : Char} {b : UInt8} (hb : b.toNat = c.toNat) :
    isVersionByte b = true ↔ VersionChar c := by
  have hdot : c.toNat = 46 ↔ c = '.' := by
    rw [← Char.toNat_inj]
    rfl
  rw [isVersionByte_iff, hb, VersionChar, toNat_of_isDigit, hdot]

/-- The check of the bytes is one of the characters. -/
theorem all_isVersionByte {value : List Char} :
    (encode value).all isVersionByte = true ↔ ∀ c ∈ value, VersionChar c := by
  rw [List.all_eq_true]
  constructor
  · intro h c hc
    cases hbytes : String.utf8EncodeChar c with
    | nil => exact absurd hbytes String.utf8EncodeChar_ne_nil
    | cons b bytes =>
      have hb : b ∈ String.utf8EncodeChar c := by
        rw [hbytes]
        exact List.mem_cons_self
      have hversion := h b (List.mem_flatMap.mpr ⟨c, hc, hb⟩)
      have hlow : b.toNat < 0x80 := by
        have := isVersionByte_iff.mp hversion
        omega
      exact (isVersionByte_char (eq_of_low_byte hb hlow).2.2.symm).mp hversion
  · intro h b hb
    obtain ⟨c, hc, hbyte⟩ := List.mem_flatMap.mp hb
    have hsize := utf8Size_versionChar (h c hc)
    rw [String.utf8EncodeChar_eq_singleton hsize, List.mem_singleton] at hbyte
    have hlow : c.val.toNat ≤ 127 := UInt32.le_iff_toNat_le.mp (Char.utf8Size_eq_one_iff.mp hsize)
    refine (isVersionByte_char (c := c) ?_).mpr (h c hc)
    rw [hbyte, UInt32.toNat_toUInt8]
    show c.val.toNat % 2 ^ 8 = c.val.toNat
    omega

/-- A part of a version is read as its number. -/
theorem parseU64_iff {part : List Char} {n : UInt64} (h : ∀ c ∈ part, VersionChar c) :
    parseU64 part = some n ↔ Number part n := by
  have hplus : ∀ rest, part ≠ '+' :: rest := by
    rintro rest rfl
    rcases h '+' List.mem_cons_self with hc | hc
    · exact absurd hc (by decide)
    · exact absurd hc (by decide)
  have hread : parseU64 part = if part.isEmpty || !part.all Char.isDigit then none
      else if Nat.ofDigitChars 10 part 0 < 2 ^ 64 then
        some (UInt64.ofNat (Nat.ofDigitChars 10 part 0))
      else none := by
    unfold parseU64
    split
    · exact absurd rfl (hplus _)
    · rfl
  rw [hread]
  constructor
  · intro hsome
    split at hsome
    · cases hsome
    · rename_i hform
      split at hsome
      · rename_i hfits
        simp only [Bool.or_eq_true, List.isEmpty_iff, Bool.not_eq_true', not_or,
          Bool.not_eq_false, List.all_eq_true] at hform
        cases hsome
        exact ⟨hform.1, hform.2, (UInt64.toNat_ofNat_of_lt' hfits).symm⟩
      · cases hsome
  · rintro ⟨hne, hdigits, hvalue⟩
    have hform : (part.isEmpty || !part.all Char.isDigit) = false := by
      rw [Bool.or_eq_false_iff, List.isEmpty_eq_false_iff, Bool.not_eq_false', List.all_eq_true]
      exact ⟨hne, hdigits⟩
    rw [hform, hvalue, if_neg Bool.false_ne_true, if_pos n.toNat_lt]
    exact congrArg some UInt64.ofNat_toNat

theorem Number.versionChar {text : List Char} {n : UInt64} (h : Number text n) :
    ∀ c ∈ text, VersionChar c := fun c hc => .inl (h.digits c hc)

theorem Number.no_dot {text : List Char} {n : UInt64} (h : Number text n) : '.' ∉ text :=
  fun hdot => absurd (h.digits '.' hdot) (by decide)

theorem Number.parse {text : List Char} {n : UInt64} (h : Number text n) :
    parseU64 text = some n := (parseU64_iff h.versionChar).mpr h

/-- The characters of a version. -/
theorem Bound.versionChar {text : List Char} {version : Version} (h : Bound text version) :
    ∀ c ∈ text, VersionChar c := by
  cases h with
  | major ha => exact ha.versionChar
  | minor ha hb =>
    intro c hc
    rcases List.mem_append.mp hc with hc | hc
    · exact ha.versionChar c hc
    · rcases List.mem_cons.mp hc with rfl | hc
      · exact .inr rfl
      · exact hb.versionChar c hc
  | exact h =>
    cases h with
    | parts ha hb hd =>
      intro c hc
      rcases List.mem_append.mp hc with hc | hc
      · exact ha.versionChar c hc
      · rcases List.mem_cons.mp hc with rfl | hc
        · exact .inr rfl
        · rcases List.mem_append.mp hc with hc | hc
          · exact hb.versionChar c hc
          · rcases List.mem_cons.mp hc with rfl | hc
            · exact .inr rfl
            · exact hd.versionChar c hc

theorem Number.head {text : List Char} {n : UInt64} (h : Number text n) :
    ∃ c cs, text = c :: cs ∧ c.isDigit = true := by
  cases text with
  | nil => exact absurd rfl h.nonempty
  | cons c cs => exact ⟨c, cs, rfl, h.digits c List.mem_cons_self⟩

/-- A version begins with a digit. -/
theorem Bound.head {text : List Char} {version : Version} (h : Bound text version) :
    ∃ c cs, text = c :: cs ∧ c.isDigit = true := by
  cases h with
  | major ha => exact ha.head
  | minor ha hb =>
    obtain ⟨c, cs, rfl, hc⟩ := ha.head
    exact ⟨c, _, rfl, hc⟩
  | exact h =>
    cases h with
    | parts ha hb hd =>
      obtain ⟨c, cs, rfl, hc⟩ := ha.head
      exact ⟨c, _, rfl, hc⟩

/-- The parts between the dots. -/
def readParts (parts : List (List Char)) : Option Version := do
  let major ← parts.head?.bind parseU64
  let minor ← partOr parts[1]?
  let patch ← partOr parts[2]?
  return ⟨major, minor, patch⟩

theorem semverBound_eq {value : List Char} (hne : value ≠ []) (hchars : ∀ c ∈ value, VersionChar c)
    (hlen : (value.splitOn '.').length ≤ 3) (hparts : ∀ part ∈ value.splitOn '.', part ≠ []) :
    semverBound value = readParts (value.splitOn '.') := by
  have hform : (value.isEmpty || !(encode value).all isVersionByte) = false := by
    rw [Bool.or_eq_false_iff, List.isEmpty_eq_false_iff, Bool.not_eq_false', all_isVersionByte]
    exact ⟨hne, hchars⟩
  have hcount : ((value.splitOn '.').isEmpty || decide (3 < (value.splitOn '.').length) ||
      (value.splitOn '.').any List.isEmpty) = false := by
    rw [Bool.or_eq_false_iff, Bool.or_eq_false_iff, List.isEmpty_eq_false_iff,
      decide_eq_false_iff_not, List.any_eq_false]
    refine ⟨⟨List.splitOn_ne_nil '.' value, by omega⟩, fun part hpart => ?_⟩
    rw [List.isEmpty_iff]
    exact hparts part hpart
  unfold semverBound
  rw [hform, if_neg Bool.false_ne_true]
  dsimp only
  rw [hcount, if_neg Bool.false_ne_true]
  rfl

/-- What `semver_bound` accepts passes its checks. -/
theorem semverBound_checks {value : List Char} {version : Version}
    (h : semverBound value = some version) :
    value ≠ [] ∧ (∀ c ∈ value, VersionChar c) ∧ (value.splitOn '.').length ≤ 3 ∧
      ∀ part ∈ value.splitOn '.', part ≠ [] := by
  unfold semverBound at h
  split at h
  · cases h
  · rename_i hform
    dsimp only at h
    split at h
    · cases h
    · rename_i hcount
      rw [Bool.not_eq_true, Bool.or_eq_false_iff, List.isEmpty_eq_false_iff, Bool.not_eq_false',
        all_isVersionByte] at hform
      rw [Bool.not_eq_true, Bool.or_eq_false_iff, Bool.or_eq_false_iff, decide_eq_false_iff_not,
        List.any_eq_false] at hcount
      refine ⟨hform.1, hform.2, by omega, fun part hpart hnil => hcount.2 part hpart ?_⟩
      rw [hnil]
      rfl

theorem readParts_one {a : List Char} {version : Version} (ha : ∀ c ∈ a, VersionChar c) :
    readParts [a] = some version ↔ ∃ x, Number a x ∧ version = ⟨x, 0, 0⟩ := by
  show ((parseU64 a).bind fun x => some (Version.mk x 0 0)) = some version ↔ _
  rw [Option.bind_eq_some_iff]
  simp only [parseU64_iff ha, Option.some.injEq, eq_comm (a := version)]

theorem readParts_two {a b : List Char} {version : Version} (ha : ∀ c ∈ a, VersionChar c)
    (hb : ∀ c ∈ b, VersionChar c) :
    readParts [a, b] = some version ↔
      ∃ x, Number a x ∧ ∃ y, Number b y ∧ version = ⟨x, y, 0⟩ := by
  show ((parseU64 a).bind fun x => (parseU64 b).bind fun y => some (Version.mk x y 0)) =
    some version ↔ _
  simp only [Option.bind_eq_some_iff, parseU64_iff ha, parseU64_iff hb, Option.some.injEq,
    eq_comm (a := version)]

theorem readParts_three {a b c : List Char} {version : Version} (ha : ∀ d ∈ a, VersionChar d)
    (hb : ∀ d ∈ b, VersionChar d) (hc : ∀ d ∈ c, VersionChar d) :
    readParts [a, b, c] = some version ↔
      ∃ x, Number a x ∧ ∃ y, Number b y ∧ ∃ z, Number c z ∧ version = ⟨x, y, z⟩ := by
  show ((parseU64 a).bind fun x => (parseU64 b).bind fun y => (parseU64 c).bind fun z =>
    some (Version.mk x y z)) = some version ↔ _
  simp only [Option.bind_eq_some_iff, parseU64_iff ha, parseU64_iff hb, parseU64_iff hc,
    Option.some.injEq, eq_comm (a := version)]

/-- **`semver_bound` reads the versions of the grammar.** -/
theorem semverBound_iff {value : List Char} {version : Version} :
    semverBound value = some version ↔ Bound value version := by
  constructor
  · intro h
    obtain ⟨hne, hchars, hlen, hparts⟩ := semverBound_checks h
    rw [semverBound_eq hne hchars hlen hparts] at h
    have hjoin : ['.'].intercalate (value.splitOn '.') = value := List.intercalate_splitOn '.'
    have hpart : ∀ part ∈ value.splitOn '.', ∀ c ∈ part, VersionChar c := by
      intro part hmem c hc
      rw [List.splitOn_eq_splitOnP] at hmem
      exact hchars c ((mem_splitOnP hmem).1.subset hc)
    -- one, two or three parts
    match hsplit : value.splitOn '.', hlen with
    | [], _ => exact absurd hsplit (List.splitOn_ne_nil '.' value)
    | [a], _ =>
      rw [hsplit] at h hjoin hpart
      obtain ⟨x, hx, rfl⟩ := (readParts_one (hpart a (by simp))).mp h
      rw [← hjoin]
      simpa [List.intercalate] using Bound.major hx
    | [a, b], _ =>
      rw [hsplit] at h hjoin hpart
      obtain ⟨x, hx, y, hy, rfl⟩ := (readParts_two (hpart a (by simp)) (hpart b (by simp))).mp h
      rw [← hjoin]
      simpa [List.intercalate] using Bound.minor hx hy
    | [a, b, c], _ =>
      rw [hsplit] at h hjoin hpart
      obtain ⟨x, hx, y, hy, z, hz, rfl⟩ := (readParts_three (hpart a (by simp)) (hpart b (by simp))
        (hpart c (by simp))).mp h
      rw [← hjoin]
      simpa [List.intercalate] using Bound.exact (Exact.parts hx hy hz)
    | a :: b :: c :: d :: rest, hlen => exact absurd hlen (by simp)
  · intro h
    have hne : value ≠ [] := by
      obtain ⟨c, cs, rfl, -⟩ := h.head
      exact List.cons_ne_nil c cs
    have hchars := h.versionChar
    cases h with
    | major ha =>
      have hsplit := List.splitOn_eq_singleton ha.no_dot
      rw [semverBound_eq hne hchars (by simp [hsplit]) (by simp [hsplit, ha.nonempty]), hsplit]
      exact (readParts_one ha.versionChar).mpr ⟨_, ha, rfl⟩
    | @minor a b _ _ ha hb =>
      have hsplit : (a ++ '.' :: b).splitOn '.' = [a, b] := by
        rw [List.splitOn_append_cons_self_of_not_mem ha.no_dot,
          List.splitOn_eq_singleton hb.no_dot]
      rw [semverBound_eq hne hchars (by simp [hsplit])
        (by simp [hsplit, ha.nonempty, hb.nonempty]), hsplit]
      exact (readParts_two ha.versionChar hb.versionChar).mpr ⟨_, ha, _, hb, rfl⟩
    | exact h =>
      cases h with
      | @parts a b c _ _ _ ha hb hc =>
        have hsplit : (a ++ '.' :: (b ++ '.' :: c)).splitOn '.' = [a, b, c] := by
          rw [List.splitOn_append_cons_self_of_not_mem ha.no_dot,
            List.splitOn_append_cons_self_of_not_mem hb.no_dot,
            List.splitOn_eq_singleton hc.no_dot]
        rw [semverBound_eq hne hchars (by simp [hsplit])
          (by simp [hsplit, ha.nonempty, hb.nonempty, hc.nonempty]), hsplit]
        exact (readParts_three ha.versionChar hb.versionChar hc.versionChar).mpr
          ⟨_, ha, _, hb, _, hc, rfl⟩

theorem Number.count_dot {text : List Char} {n : UInt64} (h : Number text n) :
    text.count '.' = 0 := List.count_eq_zero.mpr h.no_dot

/-- **`exact_semver` reads those with all three parts.** -/
theorem exactSemver_iff {value : List Char} {version : Version} :
    exactSemver value = some version ↔ Exact value version := by
  constructor
  · intro h
    rw [exactSemver] at h
    split at h
    · cases h
    · rename_i hcount
      rw [Ne, not_not] at hcount
      cases semverBound_iff.mp h with
      | major ha =>
        rw [ha.count_dot] at hcount
        cases hcount
      | minor ha hb =>
        rw [List.count_append, List.count_cons_self, ha.count_dot, hb.count_dot] at hcount
        cases hcount
      | exact h => exact h
  · intro h
    have hcount : value.count '.' = 2 := by
      cases h with
      | parts ha hb hc =>
        rw [List.count_append, List.count_cons_self, List.count_append, List.count_cons_self,
          ha.count_dot, hb.count_dot, hc.count_dot]
    rw [exactSemver, if_neg (not_not.mpr hcount)]
    exact semverBound_iff.mpr (.exact h)

/-! ## Branches -/

/-- **A token** is an operator and a version. -/
theorem parseComparator_iff {token : List Char} {c : Comparator} :
    parseComparator token = some c ↔ Token token c := by
  constructor
  · intro h
    have hread : ∀ {value : List Char} (operator : Comparison),
        (semverBound value).map (⟨operator, ·⟩) = some c → Token (operator.text ++ value) c := by
      intro value operator hmap
      obtain ⟨version, hversion, rfl⟩ := Option.map_eq_some_iff.mp hmap
      exact .compare operator (semverBound_iff.mp hversion)
    unfold parseComparator at h
    split at h
    · exact hread .greaterOrEqual h
    · exact hread .lessOrEqual h
    · exact hread .greater h
    · exact hread .less h
    · exact hread .equal h
    · cases h
  · rintro ⟨operator, hbound⟩
    have hread := semverBound_iff.mpr hbound
    -- the digit after `<` or `>` is no `=`
    obtain ⟨d, ds, rfl, hd⟩ := hbound.head
    have hne : d ≠ '=' := by
      rintro rfl
      exact absurd hd (by decide)
    cases operator with
    | greaterOrEqual => simp [Comparison.text, parseComparator, hread]
    | lessOrEqual => simp [Comparison.text, parseComparator, hread]
    | greater =>
      simp only [Comparison.text, List.singleton_append, parseComparator]
      split <;> simp_all
    | less =>
      simp only [Comparison.text, List.singleton_append, parseComparator]
      split <;> simp_all
    | equal => simp [Comparison.text, parseComparator, hread]

/-- The characters of a token. -/
theorem Token.chars {token : List Char} {c : Comparator} (h : Token token c) :
    token ≠ [] ∧ ∀ d ∈ token, isWhitespace d = false ∧ d ≠ '|' := by
  obtain ⟨operator, hbound⟩ := h
  have hop : ∀ d ∈ operator.text, isWhitespace d = false ∧ d ≠ '|' := by
    cases operator <;> exact forall_mem_of_all (by decide)
  refine ⟨?_, ?_⟩
  · cases operator <;> exact List.cons_ne_nil _ _
  · intro d hd
    rcases List.mem_append.mp hd with hd | hd
    · exact hop d hd
    · rcases hbound.versionChar d hd with hdigit | rfl
      · obtain ⟨hlow, hhigh⟩ := toNat_of_isDigit.mp hdigit
        refine ⟨?_, ?_⟩
        · unfold isWhitespace
          simp
          omega
        · rintro rfl
          exact absurd hhigh (by decide)
      · decide

theorem Token.words {before token after : List Char} {c : Comparator} (hbefore : Blank before)
    (h : Token token c) (hafter : Stops isWhitespace after) :
    tokens (before ++ token ++ after) = token :: tokens after :=
  words_first hbefore h.chars.1 (fun d hd => (h.chars.2 d hd).1) hafter

/-- **The words of a branch** are its comparators. -/
theorem mapM_tokens_iff {text : List Char} {cs : List Comparator} :
    (tokens text).mapM parseComparator = some cs ∧ cs ≠ [] ↔ Branch text cs := by
  constructor
  · rintro ⟨h, hne⟩
    induction cs generalizing text with
    | nil => exact absurd rfl hne
    | cons c cs ih =>
      rcases blank_or_word isWhitespace text with hblank | hword
      · rw [tokens, words_of_space hblank] at h
        cases h
      · obtain ⟨before, word, after, rfl, hbefore, hword, hsolid, hafter⟩ := hword
        rw [tokens, words_first hbefore hword hsolid hafter, List.mapM_cons] at h
        obtain ⟨first, hfirst, rest, hrest, heq⟩ : ∃ first, parseComparator word = some first ∧
            ∃ rest, (tokens after).mapM parseComparator = some rest ∧
              first :: rest = c :: cs := by
          simpa [tokens, Option.bind_eq_some_iff] using h
        cases heq
        have htoken := parseComparator_iff.mp hfirst
        by_cases hlast : cs = []
        · subst hlast
          have hblank : Blank after := by
            rcases blank_or_word isWhitespace after with hblank | hmore
            · exact hblank
            · obtain ⟨b, w, a, rfl, hb, hw, hs, ha⟩ := hmore
              rw [tokens, words_first hb hw hs ha, List.mapM_cons] at hrest
              simp [Option.bind_eq_some_iff] at hrest
          exact .last hbefore htoken hblank
        · rcases hafter with rfl | ⟨gap, more, rfl, hgap⟩
          · cases hrest
            exact absurd rfl hlast
          · rw [tokens, words_cons_space hgap] at hrest
            exact .cons hbefore htoken hgap (ih hrest hlast)
  · intro h
    refine ⟨?_, ?_⟩
    · induction h with
      | last hbefore h hafter =>
        have hstops : Stops isWhitespace _ := Stops.of_space hafter
        rw [h.words hbefore hstops, List.mapM_cons, parseComparator_iff.mpr h, tokens,
          words_of_space hafter]
        rfl
      | cons hbefore h hgap hrest ih =>
        rw [h.words hbefore (.inr ⟨_, _, rfl, hgap⟩), List.mapM_cons, parseComparator_iff.mpr h,
          tokens, words_cons_space hgap]
        rw [tokens] at ih
        rw [ih]
        rfl
    · cases h with
      | last => exact List.cons_ne_nil _ _
      | cons => exact List.cons_ne_nil _ _

/-- The comparators of a branch, of which there is one at least. -/
def readBranch (words : List (List Char)) : Option (List Comparator) :=
  if words = [] then none else words.mapM parseComparator

theorem readBranch_iff {text : List Char} {cs : List Comparator} :
    readBranch (tokens text) = some cs ↔ Branch text cs := by
  rw [← mapM_tokens_iff, readBranch]
  cases htokens : tokens text with
  | nil =>
    rw [if_pos rfl]
    constructor
    · intro h
      cases h
    · rintro ⟨h, hne⟩
      cases h
      exact absurd rfl hne
  | cons word rest =>
    rw [if_neg (List.cons_ne_nil word rest)]
    refine (and_iff_left_of_imp fun h => ?_).symm
    rintro rfl
    rw [List.mapM_cons] at h
    simp [Option.bind_eq_some_iff] at h

/-- A branch has no bar, and holds an operator. -/
theorem Branch.chars {text : List Char} {cs : List Comparator} (h : Branch text cs) :
    '|' ∉ text ∧ ∃ d ∈ text, isWhitespace d = false ∧ ¬ VersionChar d := by
  have hblank : ∀ {before : List Char}, Blank before → '|' ∉ before :=
    fun hbefore hbar => absurd (hbefore '|' hbar) (by decide)
  have htoken : ∀ {token : List Char} {c : Comparator}, Token token c →
      '|' ∉ token ∧ ∃ d ∈ token, isWhitespace d = false ∧ ¬ VersionChar d := by
    intro token c htoken
    refine ⟨fun hbar => (htoken.chars.2 '|' hbar).2 rfl, ?_⟩
    obtain ⟨operator, -⟩ := htoken
    have hop : ∃ d ∈ operator.text, isWhitespace d = false ∧ ¬ VersionChar d := by
      unfold VersionChar
      cases operator <;> exact ⟨_, List.mem_cons_self, by decide⟩
    obtain ⟨d, hd, hwhat⟩ := hop
    exact ⟨d, List.mem_append_left _ hd, hwhat⟩
  induction h with
  | last hbefore h hafter =>
    obtain ⟨hbar, d, hd, hwhat⟩ := htoken h
    refine ⟨?_, d, List.mem_append_left _ (List.mem_append_right _ hd), hwhat⟩
    rw [List.mem_append, List.mem_append]
    rintro ((hin | hin) | hin)
    · exact hblank hbefore hin
    · exact hbar hin
    · exact hblank hafter hin
  | cons hbefore h hgap hrest ih =>
    obtain ⟨hbar, d, hd, hwhat⟩ := htoken h
    refine ⟨?_, d, List.mem_append_left _ (List.mem_append_right _ hd), hwhat⟩
    rw [List.mem_append, List.mem_append, List.mem_cons]
    rintro ((hin | hin) | rfl | hin)
    · exact hblank hbefore hin
    · exact hbar hin
    · exact absurd hgap (by decide)
    · exact ih.1 hin

end VibeCoder.NativeProbe
