/-
  The text forms of a 128-bit identifier.

  * `hyphenated` — the canonical form, 32 lower-case hex digits in groups of 8, 4, 4, 4 and 12;
  * `parseStr`   — the forms a parser takes: 32 digits, the hyphenated form, and that form in
    braces or after `urn:uuid:`, with digits of either case.

  `parseStr_hyphenated` is the round trip, so that distinct identifiers have distinct texts;
`all_hyphenated` says what their characters are.
-/
import Mathlib.Algebra.GroupWithZero.Nat
import Mathlib.Data.List.Basic
import Mathlib.Tactic.Ring

namespace UuidText

/-! ## Hex digits -/

/-- The lower-case digit of a value below 16. -/
def hexDigit (v : Nat) : Char := Char.ofNat (if v < 10 then 48 + v else 87 + v)

/-- The value of a digit of either case. -/
def hexValue (c : Char) : Option Nat :=
  let n := c.toNat
  if 48 ≤ n && n ≤ 57 then some (n - 48)
  else if 97 ≤ n && n ≤ 102 then some (n - 87)
  else if 65 ≤ n && n ≤ 70 then some (n - 55)
  else none

theorem hexValue_hexDigit {v : Nat} (h : v < 16) : hexValue (hexDigit v) = some v := by
  have hall : ∀ v : Fin 16, hexValue (hexDigit v.val) = some v.val := by decide
  exact hall ⟨v, h⟩

/-- The last `count` hex digits of a number. -/
def hexDigits : Nat → Nat → List Char
  | 0, _ => []
  | count + 1, v => hexDigit (v / 16 ^ count % 16) :: hexDigits count v

@[simp] theorem length_hexDigits (count v : Nat) : (hexDigits count v).length = count := by
  induction count with
  | zero => rfl
  | succ count ih =>
    unfold hexDigits
    rw [List.length_cons, ih]

/-- The number a list of digits stands for, after those in `acc`. -/
def parseHex : Nat → List Char → Option Nat
  | acc, [] => some acc
  | acc, c :: cs => (hexValue c).bind (fun d => parseHex (acc * 16 + d) cs)

theorem parseHex_hexDigits (count v acc : Nat) :
    parseHex acc (hexDigits count v) = some (acc * 16 ^ count + v % 16 ^ count) := by
  induction count generalizing acc with
  | zero =>
    unfold hexDigits parseHex
    rw [Nat.pow_zero, Nat.mod_one, Nat.mul_one, Nat.add_zero]
  | succ count ih =>
    have hdigit : v / 16 ^ count % 16 < 16 := Nat.mod_lt _ (by decide)
    unfold hexDigits parseHex
    rw [hexValue_hexDigit hdigit, Option.bind_some, ih, Nat.mod_pow_succ]
    congr 1
    ring

/-! ## The hyphenated form -/

/-- Hyphens after 8, 12, 16 and 20 digits. -/
def group (ds : List Char) : List Char :=
  ds.take 8 ++ '-' :: ((ds.drop 8).take 4 ++ '-' :: ((ds.drop 12).take 4 ++ '-' ::
    ((ds.drop 16).take 4 ++ '-' :: ds.drop 20)))

/-- The digits, when the hyphens stand where they must. -/
def ungroup (cs : List Char) : Option (List Char) :=
  if cs.length = 36 ∧ (cs.drop 8).head? = some '-' ∧ (cs.drop 13).head? = some '-' ∧
      (cs.drop 18).head? = some '-' ∧ (cs.drop 23).head? = some '-' then
    some (cs.take 8 ++ (cs.drop 9).take 4 ++ (cs.drop 14).take 4 ++ (cs.drop 19).take 4 ++
      cs.drop 24)
  else none

theorem ungroup_group {ds : List Char} (h : ds.length = 32) : ungroup (group ds) = some ds := by
  -- a list of 32 characters, taken apart into its groups
  obtain ⟨a, b, c, d, e, rfl, ha, hb, hc, hd, he⟩ : ∃ a b c d e : List Char,
      ds = a ++ (b ++ (c ++ (d ++ e))) ∧ a.length = 8 ∧ b.length = 4 ∧ c.length = 4 ∧
        d.length = 4 ∧ e.length = 12 := by
    refine ⟨ds.take 8, (ds.drop 8).take 4, (ds.drop 12).take 4, (ds.drop 16).take 4, ds.drop 20,
      ?_, ?_, ?_, ?_, ?_, ?_⟩
    · have h16 := List.take_append_drop 4 (ds.drop 16)
      have h12 := List.take_append_drop 4 (ds.drop 12)
      have h8 := List.take_append_drop 4 (ds.drop 8)
      rw [List.drop_drop] at h16 h12 h8
      rw [h16, h12, h8, List.take_append_drop]
    all_goals simp [h]
  have hgroup : group (a ++ (b ++ (c ++ (d ++ e)))) =
      a ++ '-' :: (b ++ '-' :: (c ++ '-' :: (d ++ '-' :: e))) := by
    unfold group
    simp [List.drop_append, ha, hb, hc, hd, List.drop_eq_nil_of_le]
  rw [hgroup]
  unfold ungroup
  rw [if_pos]
  · simp [List.drop_append, ha, hb, hc, hd, List.drop_eq_nil_of_le]
  · simp [List.drop_append, ha, hb, hc, hd, he, List.drop_eq_nil_of_le]

/-- `Uuid::hyphenated().to_string()`. -/
def hyphenated (u : BitVec 128) : String := String.ofList (group (hexDigits 32 u.toNat))

/-- The value of 32 digits. -/
def parseDigits (ds : List Char) : Option (BitVec 128) :=
  if ds.length = 32 then (parseHex 0 ds).map (BitVec.ofNat 128) else none

/-- The value of a hyphenated text. -/
def parseHyphenated (cs : List Char) : Option (BitVec 128) := (ungroup cs).bind parseDigits

/-- `Uuid::parse_str`. -/
def parseStr (text : String) : Option (BitVec 128) :=
  let cs := text.toList
  if cs.length = 32 then parseDigits cs
  else if cs.length = 36 then parseHyphenated cs
  else if cs.length = 38 ∧ cs.head? = some '{' ∧ cs.getLast? = some '}' then
    parseHyphenated cs.tail.dropLast
  else if cs.length = 45 ∧ cs.take 9 = "urn:uuid:".toList then parseHyphenated (cs.drop 9)
  else none

theorem parseDigits_hexDigits (u : BitVec 128) : parseDigits (hexDigits 32 u.toNat) = some u := by
  unfold parseDigits
  rw [if_pos (length_hexDigits 32 _), parseHex_hexDigits, Option.map_some]
  have hlt : u.toNat < 16 ^ 32 := u.isLt
  rw [Nat.zero_mul, Nat.zero_add, Nat.mod_eq_of_lt hlt, BitVec.ofNat_toNat, BitVec.setWidth_eq]

theorem length_group {ds : List Char} (h : ds.length = 32) : (group ds).length = 36 := by
  unfold group
  simp [h]

/-- **Round trip.** -/
theorem parseStr_hyphenated (u : BitVec 128) : parseStr (hyphenated u) = some u := by
  have hlength : (hexDigits 32 u.toNat).length = 32 := length_hexDigits 32 _
  unfold parseStr hyphenated
  rw [String.toList_ofList]
  dsimp only
  rw [length_group hlength, if_neg (by decide), if_pos rfl]
  unfold parseHyphenated
  rw [ungroup_group hlength, Option.bind_some, parseDigits_hexDigits]

theorem hyphenated_injective {u v : BitVec 128} (h : hyphenated u = hyphenated v) : u = v := by
  have hu := parseStr_hyphenated u
  rw [h, parseStr_hyphenated] at hu
  exact (Option.some.inj hu).symm

theorem mem_hexDigits {count v : Nat} {c : Char} (h : c ∈ hexDigits count v) :
    ∃ w, w < 16 ∧ c = hexDigit w := by
  induction count with
  | zero => exact absurd h List.not_mem_nil
  | succ count ih =>
    rcases List.mem_cons.mp h with rfl | hrest
    · exact ⟨_, Nat.mod_lt _ (by decide), rfl⟩
    · exact ih hrest

/-- The texts are made of hex digits and hyphens. -/
theorem mem_hyphenated {u : BitVec 128} {c : Char} (h : c ∈ (hyphenated u).toList) :
    c = '-' ∨ ∃ v, v < 16 ∧ c = hexDigit v := by
  unfold hyphenated group at h
  rw [String.toList_ofList] at h
  simp only [List.mem_append, List.mem_cons] at h
  have hdigit : c ∈ hexDigits 32 u.toNat → ∃ v, v < 16 ∧ c = hexDigit v := mem_hexDigits
  rcases h with h | rfl | h | rfl | h | rfl | h | rfl | h
  · exact .inr (hdigit (List.mem_of_mem_take h))
  · exact .inl rfl
  · exact .inr (hdigit (List.mem_of_mem_drop (List.mem_of_mem_take h)))
  · exact .inl rfl
  · exact .inr (hdigit (List.mem_of_mem_drop (List.mem_of_mem_take h)))
  · exact .inl rfl
  · exact .inr (hdigit (List.mem_of_mem_drop (List.mem_of_mem_take h)))
  · exact .inl rfl
  · exact .inr (hdigit (List.mem_of_mem_drop h))

/-- What no hex digit and no hyphen has, no character of a text has. -/
theorem all_hyphenated {p : Char → Bool} (hhyphen : p '-' = true)
    (hdigit : ∀ v : Fin 16, p (hexDigit v.val) = true) (u : BitVec 128) :
    ∀ c, c ∈ (hyphenated u).toList → p c = true := by
  intro c hc
  rcases mem_hyphenated hc with rfl | ⟨v, hv, rfl⟩
  · exact hhyphen
  · exact hdigit ⟨v, hv⟩

theorem length_hyphenated (u : BitVec 128) : (hyphenated u).toList.length = 36 := by
  unfold hyphenated
  rw [String.toList_ofList, length_group (length_hexDigits 32 _)]

/-- The texts start with a hex digit. -/
theorem head_hyphenated (u : BitVec 128) :
    ∃ v, v < 16 ∧ (hyphenated u).toList.head? = some (hexDigit v) := by
  refine ⟨u.toNat / 16 ^ 31 % 16, Nat.mod_lt _ (by decide), ?_⟩
  unfold hyphenated group
  rw [String.toList_ofList]
  rfl

end UuidText
