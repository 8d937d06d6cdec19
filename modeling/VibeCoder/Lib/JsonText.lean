/-
  Compact JSON text and its size.

  A writer as serialisers have it: strings with escapes, numbers, arrays and objects without blanks.

  1. **Escapes** — `escape`: a quote, a backslash and the five controls with a letter take two
     characters, every other control takes six.
  2. **Sizes** — one lemma a constructor gives the bytes of a text from those of its parts
     (`size_string`, `size_member`, `size_array`, `size_object`).
-/
import VibeCoder.Lib.Text

namespace JsonText

/-! ## Writing -/

/-- A character inside a string. -/
def escape (c : Char) : List Char :=
  if c == '"' || c == '\\' then ['\\', c]
  else if c.toNat < 0x20 then
    if c.toNat == 8 then ['\\', 'b']
    else if c.toNat == 9 then ['\\', 't']
    else if c.toNat == 10 then ['\\', 'n']
    else if c.toNat == 12 then ['\\', 'f']
    else if c.toNat == 13 then ['\\', 'r']
    else ['\\', 'u', '0', '0', Nat.digitChar (c.toNat / 16), Nat.digitChar (c.toNat % 16)]
  else [c]

/-- A string. -/
def string (value : String) : List Char := '"' :: (value.toList.flatMap escape ++ ['"'])

/-- An unsigned number. -/
def number (n : Nat) : List Char := Nat.toDigits 10 n

/-- `true` or `false`. -/
def boolean (b : Bool) : List Char := (if b then "true" else "false").toList

/-- A member of an object. -/
def member (name : String) (value : List Char) : List Char := string name ++ ':' :: value

/-- Values between brackets. -/
def array (values : List (List Char)) : List Char := '[' :: (List.intercalate [','] values ++ [']'])

/-- Members between braces. -/
def object (members : List (List Char)) : List Char :=
  '\x7b' :: (List.intercalate [','] members ++ ['\x7d'])

/-! ## Sizes -/

/-- The bytes of a text. -/
def size (cs : List Char) : Nat := (cs.map Char.utf8Size).sum

theorem utf8ByteSize_ofList (cs : List Char) : (String.ofList cs).utf8ByteSize = size cs :=
  Text.utf8ByteSize_ofList cs

@[simp] theorem size_nil : size [] = 0 := rfl

@[simp] theorem size_cons (c : Char) (cs : List Char) : size (c :: cs) = c.utf8Size + size cs := by
  rw [size, List.map_cons, List.sum_cons, size]

@[simp] theorem size_append (cs ds : List Char) : size (cs ++ ds) = size cs + size ds := by
  rw [size, List.map_append, List.sum_append, size, size]

theorem size_flatMap {α : Type} (f : α → List Char) (as : List α) :
    size (as.flatMap f) = (as.map (fun a => size (f a))).sum := by
  induction as with
  | nil => rfl
  | cons a as ih => rw [List.flatMap_cons, size_append, ih, List.map_cons, List.sum_cons]

/-- Separated values take one comma less than there are values. -/
theorem size_separated (values : List (List Char)) :
    size (List.intercalate [','] values) = (values.map size).sum + (values.length - 1) := by
  have hcomma : size [','] = 1 := by decide
  induction values with
  | nil => rfl
  | cons value rest ih =>
    cases rest with
    | nil => simp [List.intercalate]
    | cons next rest =>
      have hsplit : List.intercalate [','] (value :: next :: rest) =
          value ++ ([','] ++ List.intercalate [','] (next :: rest)) := by
        simp [List.intercalate, List.intersperse]
      rw [hsplit, size_append, size_append, ih, hcomma]
      simp only [List.map_cons, List.sum_cons, List.length_cons]
      omega

/-- The bytes of a string between its quotes. -/
def escapedSize (value : String) : Nat := (value.toList.map (fun c => size (escape c))).sum

/-- An escape takes at most six times the bytes. -/
theorem size_escape_le (c : Char) : size (escape c) ≤ 6 * c.utf8Size := by
  have hpos := c.utf8Size_pos
  have hdigit : ∀ n < 32, (Nat.digitChar (n / 16)).utf8Size = 1 ∧ (Nat.digitChar (n % 16)).utf8Size = 1 := by
    decide
  have hslash : ('\\').utf8Size = 1 := by decide
  have hletters : ('b').utf8Size = 1 ∧ ('t').utf8Size = 1 ∧ ('n').utf8Size = 1 ∧
      ('f').utf8Size = 1 ∧ ('r').utf8Size = 1 ∧ ('u').utf8Size = 1 ∧ ('0').utf8Size = 1 := by decide
  obtain ⟨hb, ht, hn, hf, hr, hu, hzero⟩ := hletters
  rw [escape]
  split
  · simp only [size_cons, size_nil, hslash]
    omega
  · split
    · rename_i hcontrol
      obtain ⟨hhigh, hlow⟩ := hdigit c.toNat hcontrol
      split_ifs <;> simp only [size_cons, size_nil, hslash, hb, ht, hn, hf, hr, hu, hzero, hhigh, hlow] <;> omega
    · simp only [size_cons, size_nil]
      omega

theorem escapedSize_le (value : String) : escapedSize value ≤ 6 * value.utf8ByteSize := by
  have hsum : ∀ cs : List Char, (cs.map (fun c => size (escape c))).sum ≤ 6 * size cs := by
    intro cs
    induction cs with
    | nil => exact Nat.le_refl _
    | cons c cs ih =>
      have hc := size_escape_le c
      rw [List.map_cons, List.sum_cons, size_cons]
      omega
  rw [Text.utf8ByteSize_eq_sum]
  exact hsum value.toList

theorem size_string (value : String) : size (string value) = 2 + escapedSize value := by
  have hquote : ('"').utf8Size = 1 := by decide
  rw [string, size_cons, size_append, size_cons, size_nil, size_flatMap, hquote, escapedSize]
  omega

theorem size_number (n : Nat) : size (number n) = (Nat.toDigits 10 n).length := by
  have hones : (number n).map Char.utf8Size = (number n).map (fun _ => 1) := by
    refine List.map_congr_left (fun c hc => Text.utf8Size_ascii ?_)
    have hdigit := Nat.isDigit_of_mem_toDigits (by decide) (by decide) hc
    rw [Char.isDigit, Bool.and_eq_true, decide_eq_true_eq, decide_eq_true_eq] at hdigit
    have hle : c.toNat ≤ ('9').toNat := UInt32.le_iff_toNat_le.mp hdigit.2
    exact Nat.lt_of_le_of_lt hle (by decide)
  rw [size, hones, List.map_const']
  simp [number]

theorem size_member (name : String) (value : List Char) :
    size (member name value) = size (string name) + 1 + size value := by
  have hcolon : (':').utf8Size = 1 := by decide
  rw [member, size_append, size_cons, hcolon]
  omega

theorem size_array (values : List (List Char)) :
    size (array values) = 2 + (values.map size).sum + (values.length - 1) := by
  have hopen : ('[').utf8Size = 1 := by decide
  have hclose : (']').utf8Size = 1 := by decide
  rw [array, size_cons, size_append, size_cons, size_nil, size_separated, hopen, hclose]
  omega

theorem size_object (members : List (List Char)) :
    size (object members) = 2 + (members.map size).sum + (members.length - 1) := by
  have hopen : ('\x7b').utf8Size = 1 := by decide
  have hclose : ('\x7d').utf8Size = 1 := by decide
  rw [object, size_cons, size_append, size_cons, size_nil, size_separated, hopen, hclose]
  omega

end JsonText
