/-
  Flat JSON objects: the writer of `JsonText`, a reader, and the size.

  An object has named fields; a field is null, a boolean, an unsigned number or a string.

  1. **The reader** — `scan` reads a string one character at a time, undoing the escapes; `read` takes
     exactly one object without blanks, and nothing after it.
  2. **Round trip** — `read_write`: what is written is read back, whatever the names and the strings
     are.  Every part is followed by a character that cannot continue it.
  3. **Size** — `size_write_le`: a string takes at most six times its bytes, and its quotes.
-/
import VibeCoder.Lib.JsonText

namespace JsonObject

open JsonText

/-- A field of an object. -/
inductive Value where
  | null
  | boolean (b : Bool)
  | number (n : Nat)
  | text (value : String)
  deriving DecidableEq, Repr

/-! ## Writing -/

def Value.write : Value → List Char
  | .null => ['n', 'u', 'l', 'l']
  | .boolean b => JsonText.boolean b
  | .number n => JsonText.number n
  | .text value => string value

/-- The fields of an object in order, one comma between two of them. -/
def writeMembers (fields : List (String × Value)) : List Char :=
  List.intercalate [','] (fields.map fun field => member field.1 field.2.write)

/-- An object. -/
def write (fields : List (String × Value)) : List Char := '\x7b' :: (writeMembers fields ++ ['\x7d'])

/-! ## Reading -/

/-- Where a reader stands inside a string. -/
inductive ScanState where
  | plain
  | escaped
  /-- Inside `\u`: how many digits follow the next one, and the code so far. -/
  | hex (left code : Nat)

/-- What a letter after a backslash stands for. -/
def unescape (c : Char) : Option Char :=
  if c = '"' ∨ c = '\\' ∨ c = '/' then some c
  else if c = 'b' then some (Char.ofNat 8)
  else if c = 't' then some (Char.ofNat 9)
  else if c = 'n' then some (Char.ofNat 10)
  else if c = 'f' then some (Char.ofNat 12)
  else if c = 'r' then some (Char.ofNat 13)
  else none

/-- The value of a hexadecimal digit. -/
def hexDigit (c : Char) : Option Nat :=
  if '0' ≤ c ∧ c ≤ '9' then some (c.toNat - 48)
  else if 'a' ≤ c ∧ c ≤ 'f' then some (c.toNat - 87)
  else if 'A' ≤ c ∧ c ≤ 'F' then some (c.toNat - 55)
  else none

/-- One more character before what is read after it. -/
def push (c : Char) (rest : Option (List Char × List Char)) : Option (List Char × List Char) :=
  rest.map fun r => (c :: r.1, r.2)

/-- The rest of a string, up to its quote, and what follows.  Halves of a surrogate pair are not
    read. -/
def scan : ScanState → List Char → Option (List Char × List Char)
  | _, [] => none
  | .plain, c :: cs =>
    if c = '"' then some ([], cs)
    else if c = '\\' then scan .escaped cs
    else if c.toNat < 0x20 then none
    else push c (scan .plain cs)
  | .escaped, c :: cs =>
    if c = 'u' then scan (.hex 3 0) cs
    else
      match unescape c with
      | none => none
      | some d => push d (scan .plain cs)
  | .hex left code, c :: cs =>
    match hexDigit c with
    | none => none
    | some digit =>
      match left with
      | left + 1 => scan (.hex left (16 * code + digit)) cs
      | 0 =>
        if (16 * code + digit).isValidChar then
          push (Char.ofNat (16 * code + digit)) (scan .plain cs)
        else none

/-- A fixed character. -/
def expect (c : Char) : List Char → Option (List Char)
  | [] => none
  | d :: cs => if d = c then some cs else none

/-- A fixed word. -/
def expectAll (word cs : List Char) : Option (List Char) :=
  if word.isPrefixOf cs then some (cs.drop word.length) else none

def readString (cs : List Char) : Option (String × List Char) :=
  ((expect '"' cs).bind (scan .plain)).map fun r => (String.ofList r.1, r.2)

/-- An unsigned number; no zero stands before another digit. -/
def readNumber (cs : List Char) : Option (Nat × List Char) :=
  if Nat.toDigits 10 (Nat.ofDigitChars 10 (cs.takeWhile Char.isDigit) 0) =
      cs.takeWhile Char.isDigit then
    some (Nat.ofDigitChars 10 (cs.takeWhile Char.isDigit) 0, cs.dropWhile Char.isDigit)
  else none

/-- A field; its first character says which kind it is. -/
def readValue : List Char → Option (Value × List Char)
  | [] => none
  | c :: cs =>
    if c = '"' then (readString (c :: cs)).map fun r => (.text r.1, r.2)
    else if c = 'n' then (expectAll Value.null.write (c :: cs)).map fun r => (.null, r)
    else if c = 't' then (expectAll (boolean true) (c :: cs)).map fun r => (.boolean true, r)
    else if c = 'f' then (expectAll (boolean false) (c :: cs)).map fun r => (.boolean false, r)
    else (readNumber (c :: cs)).map fun r => (.number r.1, r.2)

/-- A name, a colon and a field. -/
def readMember (cs : List Char) : Option ((String × Value) × List Char) :=
  (readString cs).bind fun name =>
    (expect ':' name.2).bind fun cs =>
      (readValue cs).map fun value => ((name.1, value.1), value.2)

/-- The fields from here up to the closing brace, at most so many. -/
def readMembers : Nat → List Char → Option (List (String × Value) × List Char)
  | 0, _ => none
  | most + 1, cs =>
    (readMember cs).bind fun field =>
      match field.2 with
      | [] => none
      | c :: cs =>
        if c = ',' then (readMembers most cs).map fun more => (field.1 :: more.1, more.2)
        else if c = '\x7d' then some ([field.1], cs)
        else none

/-- One object, and nothing after it. -/
def read (cs : List Char) : Option (List (String × Value)) :=
  (expect '\x7b' cs).bind fun cs =>
    if cs = ['\x7d'] then some []
    else
      (readMembers cs.length cs).bind fun fields => if fields.2 = [] then some fields.1 else none

/-! ## Strings -/

@[simp] theorem expect_cons (c : Char) (cs : List Char) : expect c (c :: cs) = some cs := if_pos rfl

@[simp] theorem expectAll_append (word cs : List Char) : expectAll word (word ++ cs) = some cs := by
  rw [expectAll, if_pos (List.isPrefixOf_iff_prefix.mpr (List.prefix_append word cs)),
    List.drop_left]

/-- The two digits of a control are read back. -/
theorem hexDigit_control {n : Nat} (h : n < 32) :
    hexDigit (Nat.digitChar (n / 16)) = some (n / 16) ∧
      hexDigit (Nat.digitChar (n % 16)) = some (n % 16) := by
  have hall : ∀ m < 32, hexDigit (Nat.digitChar (m / 16)) = some (m / 16) ∧
      hexDigit (Nat.digitChar (m % 16)) = some (m % 16) := by decide
  exact hall n h

/-- **An escape is undone.**  One case for each kind of character. -/
theorem scan_escape (c : Char) (cs : List Char) :
    scan .plain (escape c ++ cs) = push c (scan .plain cs) := by
  have hof : Char.ofNat c.toNat = c := Char.ofNat_toNat c
  rw [escape]
  split
  · -- a quote or a backslash stands for itself
    rename_i hself
    rw [Bool.or_eq_true, beq_iff_eq, beq_iff_eq] at hself
    rcases hself with rfl | rfl <;> rfl
  · rename_i hself
    rw [Bool.or_eq_true, beq_iff_eq, beq_iff_eq, not_or] at hself
    split
    · rename_i hcontrol
      split_ifs with h8 h9 h10 h12 h13
      · rw [← hof, beq_iff_eq.mp h8]
        rfl
      · rw [← hof, beq_iff_eq.mp h9]
        rfl
      · rw [← hof, beq_iff_eq.mp h10]
        rfl
      · rw [← hof, beq_iff_eq.mp h12]
        rfl
      · rw [← hof, beq_iff_eq.mp h13]
        rfl
      · -- six characters: the two last digits carry the code
        obtain ⟨hhigh, hlow⟩ := hexDigit_control hcontrol
        have hcode : 16 * (c.toNat / 16) + c.toNat % 16 = c.toNat := Nat.div_add_mod c.toNat 16
        have hvalid : c.toNat.isValidChar := c.valid
        have hzero : hexDigit '0' = some 0 := by decide
        show scan (.hex 3 0) ('0' :: '0' :: Nat.digitChar (c.toNat / 16) ::
          Nat.digitChar (c.toNat % 16) :: cs) = _
        simp only [scan, hzero, hhigh, hlow, Nat.mul_zero, Nat.zero_add]
        rw [hcode, if_pos hvalid, hof]
    · rename_i hprintable
      show scan .plain (c :: cs) = _
      rw [scan, if_neg hself.1, if_neg hself.2, if_neg hprintable]

theorem scan_string (text cs : List Char) :
    scan .plain (text.flatMap escape ++ '"' :: cs) = some (text, cs) := by
  induction text with
  | nil => rfl
  | cons c text ih => rw [List.flatMap_cons, List.append_assoc, scan_escape, ih, push, Option.map_some]

theorem readString_string (value : String) (cs : List Char) :
    readString (string value ++ cs) = some (value, cs) := by
  have htext : string value ++ cs = '"' :: (value.toList.flatMap escape ++ '"' :: cs) := by
    simp [string]
  rw [readString, htext, expect_cons, Option.bind_some, scan_string, Option.map_some,
    String.ofList_toList]

/-! ## Fields -/

theorem readNumber_number (n : Nat) {c : Char} (hc : c.isDigit = false) (cs : List Char) :
    readNumber (JsonText.number n ++ c :: cs) = some (n, c :: cs) := by
  have hdigits : ∀ d, d ∈ JsonText.number n → d.isDigit = true :=
    fun d hd => Nat.isDigit_of_mem_toDigits (by decide) (by decide) hd
  have htake : (JsonText.number n ++ c :: cs).takeWhile Char.isDigit = JsonText.number n := by
    rw [List.takeWhile_append_of_pos hdigits, List.takeWhile_cons, hc]
    simp
  have hdrop : (JsonText.number n ++ c :: cs).dropWhile Char.isDigit = c :: cs := by
    rw [List.dropWhile_append_of_pos hdigits, List.dropWhile_cons, hc]
    simp
  have hvalue : Nat.ofDigitChars 10 (JsonText.number n) 0 = n := Nat.ofDigitChars_ten_toDigits
  rw [readNumber, htake, hdrop, hvalue, if_pos (by rfl)]

/-- A field is read up to a character that is no digit. -/
theorem readValue_write (v : Value) {c : Char} (hc : c.isDigit = false) (cs : List Char) :
    readValue (v.write ++ c :: cs) = some (v, c :: cs) := by
  cases v with
  | null => rfl
  | boolean b =>
    cases b with
    | true => rfl
    | false => rfl
  | number n =>
    -- the first digit is none of the four letters
    obtain ⟨d, digits, hnumber⟩ : ∃ d digits, JsonText.number n = d :: digits :=
      List.exists_cons_of_ne_nil Nat.toDigits_ne_nil
    have hdigit : d.isDigit = true :=
      Nat.isDigit_of_mem_toDigits (by decide) (by decide)
        (show d ∈ JsonText.number n by rw [hnumber]; exact List.mem_cons_self)
    have hne : ∀ e : Char, e.isDigit = false → d ≠ e := by
      rintro e he rfl
      rw [hdigit] at he
      cases he
    have hread := readNumber_number n hc cs
    rw [hnumber] at hread
    rw [Value.write, hnumber, List.cons_append, readValue, if_neg (hne _ (by decide)),
      if_neg (hne _ (by decide)), if_neg (hne _ (by decide)), if_neg (hne _ (by decide))]
    rw [List.cons_append] at hread
    rw [hread, Option.map_some]
  | text value =>
    have hquote : string value ++ c :: cs =
        '"' :: (value.toList.flatMap escape ++ ['"'] ++ c :: cs) := rfl
    rw [Value.write, hquote, readValue, if_pos rfl, ← hquote, readString_string, Option.map_some]

theorem readMember_member (field : String × Value) {c : Char} (hc : c.isDigit = false)
    (cs : List Char) :
    readMember (member field.1 field.2.write ++ c :: cs) = some (field, c :: cs) := by
  rw [readMember, member, List.append_assoc, readString_string, Option.bind_some,
    List.cons_append, expect_cons, Option.bind_some, readValue_write _ hc, Option.map_some]

/-! ## Objects -/

theorem writeMembers_cons_cons (field next : String × Value) (rest : List (String × Value)) :
    writeMembers (field :: next :: rest) =
      member field.1 field.2.write ++ ',' :: writeMembers (next :: rest) := by
  simp [writeMembers, List.intercalate]

theorem writeMembers_singleton (field : String × Value) :
    writeMembers [field] = member field.1 field.2.write := by
  simp [writeMembers, List.intercalate]

/-- Fields are read up to the brace, if that many may be read. -/
theorem readMembers_write (field : String × Value) (fields : List (String × Value)) (cs : List Char) :
    ∀ most, fields.length < most →
      readMembers most (writeMembers (field :: fields) ++ '\x7d' :: cs) =
        some (field :: fields, cs) := by
  induction fields generalizing field with
  | nil =>
    rintro (_ | most) hmost
    · exact absurd hmost (Nat.not_lt_zero _)
    · rw [writeMembers_singleton, readMembers, readMember_member _ (by decide), Option.bind_some]
      rfl
  | cons next fields ih =>
    rintro (_ | most) hmost
    · exact absurd hmost (Nat.not_lt_zero _)
    · rw [writeMembers_cons_cons, List.append_assoc, List.cons_append, readMembers,
        readMember_member _ (by decide), Option.bind_some]
      dsimp only
      rw [if_pos rfl, ih next most (Nat.lt_of_succ_lt_succ hmost), Option.map_some]

/-- Every field takes at least one character. -/
theorem length_le_writeMembers (fields : List (String × Value)) :
    fields.length ≤ (writeMembers fields).length := by
  have hpos : ∀ field : String × Value, 1 ≤ (member field.1 field.2.write).length := fun field => by
    simp [member, string]
  induction fields with
  | nil => exact Nat.zero_le _
  | cons field fields ih =>
    have hfield := hpos field
    cases fields with
    | nil =>
      rw [writeMembers_singleton]
      exact hfield
    | cons next rest =>
      rw [writeMembers_cons_cons, List.length_append, List.length_cons (a := field), List.length_cons (a := ',')]
      omega

/-- **What is written is read back.** -/
theorem read_write (fields : List (String × Value)) : read (write fields) = some fields := by
  cases fields with
  | nil => rfl
  | cons field fields =>
    have hlength := length_le_writeMembers (field :: fields)
    rw [List.length_cons] at hlength
    have hall : (writeMembers (field :: fields) ++ ['\x7d']).length =
        (writeMembers (field :: fields)).length + 1 := by
      rw [List.length_append, List.length_singleton]
    have hmore : writeMembers (field :: fields) ++ ['\x7d'] ≠ ['\x7d'] := by
      intro heq
      rw [heq, List.length_singleton] at hall
      omega
    rw [read, write, expect_cons, Option.bind_some, if_neg hmore,
      readMembers_write field fields [] _ (by omega), Option.bind_some]
    rfl

/-- Objects that are written the same have the same fields. -/
theorem write_injective {as bs : List (String × Value)} (h : write as = write bs) : as = bs := by
  have hread := read_write as
  rw [h, read_write bs, Option.some.injEq] at hread
  exact hread.symm

/-! ## Size -/

/-- A bound on the bytes of a field. -/
def Value.room : Value → Nat
  | .null => 4
  | .boolean _ => 5
  | .number n => (Nat.toDigits 10 n).length
  | .text value => 2 + 6 * value.utf8ByteSize

theorem Value.size_write_le (v : Value) : size v.write ≤ v.room := by
  cases v with
  | null => decide
  | boolean b =>
    cases b with
    | true => decide
    | false => decide
  | number n => exact Nat.le_of_eq (size_number n)
  | text value =>
    have hescaped := escapedSize_le value
    rw [Value.write, size_string, Value.room]
    omega

/-- **The size of an object**: its braces, and each field with its name, colon and comma. -/
theorem size_write_le (fields : List (String × Value)) :
    size (write fields) ≤
      2 + (fields.map fun field => 4 + 6 * field.1.utf8ByteSize + field.2.room).sum := by
  have hfields : ((fields.map fun field => member field.1 field.2.write).map size).sum +
      fields.length ≤ (fields.map fun field => 4 + 6 * field.1.utf8ByteSize + field.2.room).sum := by
    induction fields with
    | nil => exact Nat.le_refl _
    | cons field fields ih =>
      have hname := escapedSize_le field.1
      have hvalue := field.2.size_write_le
      simp only [List.map_cons, List.sum_cons, List.length_cons]
      rw [size_member, size_string]
      omega
  have hobject : write fields = object (fields.map fun field => member field.1 field.2.write) := rfl
  rw [hobject, size_object, List.length_map]
  omega

end JsonObject
