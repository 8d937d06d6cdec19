/-
  Version requirements of native tools (`vibecoder-runtime-packaging::native_probe`).

  1. **Versions** — a triplet of `u64`, its order, and `semver_bound`, which reads one with the
     missing parts as zero.

  2. **Requirements** — `version_requirement_is_supported` and `version_requirement_matches`, which
     read the same text each on its own.

  3. **Output** — `first_semver_triplet` walks over the bytes of a text and slices the text at what
     it finds.  A slice off a character boundary is a panic, `none` here.
-/
import VibeCoder.Lib.Utf8
import VibeCoder.Domain

namespace VibeCoder.NativeProbe

open Chars

/-! ## Versions -/

/-- `(u64, u64, u64)`. -/
structure Version where
  major : UInt64
  minor : UInt64
  patch : UInt64
  deriving DecidableEq, Repr

/-- `<` of tuples. -/
def Version.less (a b : Version) : Bool :=
  a.major < b.major ||
    (a.major == b.major && (a.minor < b.minor || (a.minor == b.minor && a.patch < b.patch)))

/-- `part.parse::<u64>()`, which takes a leading `+`. -/
def parseU64 (part : List Char) : Option UInt64 :=
  let digits := match part with
    | '+' :: rest => rest
    | part => part
  if digits.isEmpty || !digits.all Char.isDigit then none
  else if Nat.ofDigitChars 10 digits 0 < 2 ^ 64 then
    some (UInt64.ofNat (Nat.ofDigitChars 10 digits 0))
  else none

/-- `byte.is_ascii_digit() || byte == b'.'`. -/
def isVersionByte (byte : UInt8) : Bool := (48 ≤ byte && byte ≤ 57) || byte == 46

/-- `parts.get(index).map_or(Some(0), |part| part.parse().ok())`. -/
def partOr (part : Option (List Char)) : Option UInt64 :=
  match part with
  | none => some 0
  | some part => parseU64 part

/-- `semver_bound`. -/
def semverBound (value : List Char) : Option Version :=
  if value.isEmpty || !(encode value).all isVersionByte then none
  else
    let parts := value.splitOn '.'
    if parts.isEmpty || 3 < parts.length || parts.any List.isEmpty then none
    else do
      let major ← parts.head?.bind parseU64
      let minor ← partOr parts[1]?
      let patch ← partOr parts[2]?
      return ⟨major, minor, patch⟩

/-- `exact_semver`. -/
def exactSemver (value : List Char) : Option Version :=
  if value.count '.' ≠ 2 then none else semverBound value

/-! ## Requirements -/

inductive Comparison where
  | less
  | lessOrEqual
  | greater
  | greaterOrEqual
  | equal
  deriving DecidableEq, Repr

/-- The operator and the version it compares with. -/
structure Comparator where
  operator : Comparison
  expected : Version
  deriving DecidableEq, Repr

/-- The match on the operator. -/
def Comparator.accepts (c : Comparator) (actual : Version) : Bool :=
  match c.operator with
  | .less => actual.less c.expected
  | .lessOrEqual => actual.less c.expected || actual == c.expected
  | .greater => c.expected.less actual
  | .greaterOrEqual => c.expected.less actual || actual == c.expected
  | .equal => actual == c.expected

/-- `parse_comparator`. -/
def parseComparator (token : List Char) : Option Comparator :=
  match token with
  | '>' :: '=' :: value => (semverBound value).map (⟨.greaterOrEqual, ·⟩)
  | '<' :: '=' :: value => (semverBound value).map (⟨.lessOrEqual, ·⟩)
  | '>' :: value => (semverBound value).map (⟨.greater, ·⟩)
  | '<' :: value => (semverBound value).map (⟨.less, ·⟩)
  | '=' :: value => (semverBound value).map (⟨.equal, ·⟩)
  | _ => none

/-- `requirement.split("||")`. -/
def splitBranches : List Char → List (List Char)
  | [] => [[]]
  | '|' :: '|' :: cs => [] :: splitBranches cs
  | c :: cs => (splitBranches cs).modifyHead (c :: ·)

theorem splitBranches_ne_nil (text : List Char) : splitBranches text ≠ [] := by
  fun_induction splitBranches text with
  | case1 => exact List.cons_ne_nil _ _
  | case2 cs ih => exact List.cons_ne_nil _ _
  | case3 c cs h ih =>
    cases hparts : splitBranches cs with
    | nil => exact absurd hparts ih
    | cons part parts => exact List.cons_ne_nil _ _

/-- `split_whitespace`. -/
def tokens (branch : List Char) : List (List Char) := words isWhitespace branch

/-- The loop over the tokens of a branch: `saw_comparator`, or none if the function returns `false`. -/
def supportTokens : List (List Char) → Bool → Option Bool
  | [], sawComparator => some sawComparator
  | token :: rest, _ => if parseComparator token = none then none else supportTokens rest true

/-- The loop over the branches, with `saw_branch`. -/
def supportBranches : List (List Char) → Bool → Bool
  | [], sawBranch => sawBranch
  | branch :: rest, _ =>
    let branch := trimChars branch
    if branch.isEmpty then false
    else match supportTokens (tokens branch) false with
      | none => false
      | some sawComparator => if !sawComparator then false else supportBranches rest true

/-- `version_requirement_is_supported`. -/
def versionRequirementIsSupported (requirement : List Char) : Bool :=
  let requirement := trimChars requirement
  if (exactSemver requirement).isSome then true
  else supportBranches (splitBranches requirement) false

/-- The loop over the tokens of a branch: `(saw_comparator, branch_matches)`. -/
def matchTokens (actual : Version) : List (List Char) → Bool → Bool → Option (Bool × Bool)
  | [], sawComparator, branchMatches => some (sawComparator, branchMatches)
  | token :: rest, _, branchMatches =>
    match parseComparator token with
    | none => none
    | some c => matchTokens actual rest true (branchMatches && c.accepts actual)

/-- The loop over the branches. -/
def matchBranches (actual : Version) : List (List Char) → Bool
  | [] => false
  | branch :: rest =>
    let branch := trimChars branch
    if branch.isEmpty then false
    else match matchTokens actual (tokens branch) false true with
      | none => false
      | some (sawComparator, branchMatches) =>
        if !sawComparator then false
        else if branchMatches then true
        else matchBranches actual rest

/-! ## Output -/

/-- `is_ascii_digit`. -/
def isDigitByte (byte : UInt8) : Bool := 48 ≤ byte && byte ≤ 57

/-- The inner loop: where the row of digits and dots ends. -/
def candidateEnd (bytes : List UInt8) (stop : Nat) : Nat :=
  if h : stop < bytes.length then
    if isVersionByte bytes[stop] then candidateEnd bytes (stop + 1) else stop
  else stop
termination_by bytes.length - stop

theorem le_candidateEnd (bytes : List UInt8) (stop : Nat) : stop ≤ candidateEnd bytes stop := by
  induction stop using candidateEnd.induct bytes with
  | case1 stop h hbyte ih =>
    rw [candidateEnd, dif_pos h, if_pos hbyte]
    omega
  | case2 stop h hbyte =>
    rw [candidateEnd, dif_pos h, if_neg hbyte]
  | case3 stop h =>
    rw [candidateEnd, dif_neg h]

/-- The outer loop.  The length of a text is far from `usize::MAX`, so `saturating_add` adds. -/
def tripletFrom (value : List Char) (start : Nat) : Option (Option Version) :=
  if h : start < (encode value).length then
    if !isDigitByte (encode value)[start] then tripletFrom value (start + 1)
    else
      let stop := candidateEnd (encode value) start
      match slice value start stop with
      | none => none
      | some candidate =>
        match exactSemver (candidate.rdropWhile (· == '.')) with
        | some version => some (some version)
        | none => tripletFrom value (stop + 1)
  else some none
termination_by (encode value).length - start
decreasing_by
  · omega
  · have hstop := le_candidateEnd (encode value) start
    omega

/-- `first_semver_triplet`.  `none` is a panic. -/
def firstSemverTriplet (value : List Char) : Option (Option Version) := tripletFrom value 0

/-- `format_semver`. -/
def formatSemver (version : Version) : List Char :=
  Nat.toDigits 10 version.major.toNat ++ '.' :: (Nat.toDigits 10 version.minor.toNat ++
    '.' :: Nat.toDigits 10 version.patch.toNat)

/-- `version_requirement_matches`.  `none` is a panic. -/
def versionRequirementMatches (requirement output : List Char) : Option Bool := do
  match ← firstSemverTriplet output with
  | none => return false
  | some actual =>
    let requirement := trimChars requirement
    if !versionRequirementIsSupported requirement then return false
    match exactSemver requirement with
    | some expected => return expected == actual
    | none => return matchBranches actual (splitBranches requirement)

end VibeCoder.NativeProbe
