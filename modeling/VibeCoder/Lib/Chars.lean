/-
  Texts as lists of characters: the standard string functions, and where a needle occurs.

  1. **Strings** — the length in bytes, cutting at a character boundary, decoding of arbitrary
     bytes, lines, trimming and words.

  2. **Occurrences** — `positions needle` lists every position at which a needle starts.  A
     character that is not in the needle separates (`positions_cut`): what stands before it and
     what stands after it can be searched one by one.

  3. **The end of a text** — two ways of trimming agree when they take off the same
     (`rdropWhile_eq_rdropWhile`).

  4. **Replacement** — `replaceAll` leaves no occurrence of what it replaces
     (`not_infix_replaceFrom`), and makes none of anything else (`infix_of_infix_replaceFrom`), as
     long as the ends of the replacement are not in what is looked for.
-/
import Mathlib.Algebra.GroupWithZero.Nat
import Mathlib.Data.List.DropRight
import Mathlib.Data.List.Infix
import Mathlib.Data.Nat.Basic

namespace Chars

/-! ## Strings -/

/-- What a check of each element of a fixed list says of all of them. -/
theorem forall_mem_of_all {α : Type*} {cs : List α} {P : α → Prop} [DecidablePred P]
    (h : cs.all (fun c => decide (P c)) = true) : ∀ c ∈ cs, P c := by
  intro c hc
  exact of_decide_eq_true (List.all_eq_true.mp h c hc)

/-- The bytes of a text in UTF-8. -/
def byteLen (cs : List Char) : Nat := (cs.map Char.utf8Size).sum

@[simp] theorem byteLen_nil : byteLen [] = 0 := rfl

@[simp] theorem byteLen_cons (c : Char) (cs : List Char) :
    byteLen (c :: cs) = c.utf8Size + byteLen cs := by
  unfold byteLen
  rw [List.map_cons, List.sum_cons]

@[simp] theorem byteLen_append (as bs : List Char) :
    byteLen (as ++ bs) = byteLen as + byteLen bs := by
  unfold byteLen
  rw [List.map_append, List.sum_append]

theorem byteLen_pos {cs : List Char} (h : cs ≠ []) : 0 < byteLen cs := by
  cases cs with
  | nil => exact absurd rfl h
  | cons c cs =>
    have hc : 0 < c.utf8Size := Char.utf8Size_pos c
    rw [byteLen_cons]
    omega

theorem byteLen_eq_zero {cs : List Char} : byteLen cs = 0 ↔ cs = [] := by
  constructor
  · intro h
    by_contra hne
    exact Nat.ne_of_gt (byteLen_pos hne) h
  · rintro rfl
    rfl

/-- The longest beginning that has at most `limit` bytes. -/
def truncate : List Char → Nat → List Char
  | [], _ => []
  | c :: cs, limit =>
    if c.utf8Size ≤ limit then c :: truncate cs (limit - c.utf8Size) else []

theorem truncate_cons (c : Char) (cs : List Char) (limit : Nat) :
    truncate (c :: cs) limit =
      if c.utf8Size ≤ limit then c :: truncate cs (limit - c.utf8Size) else [] := rfl

theorem truncate_isPrefix (cs : List Char) (limit : Nat) : truncate cs limit <+: cs := by
  induction cs generalizing limit with
  | nil => exact List.nil_prefix
  | cons c cs ih =>
    rw [truncate_cons]
    split
    · exact (List.cons_prefix_cons).mpr ⟨rfl, ih _⟩
    · exact List.nil_prefix

theorem byteLen_truncate_le (cs : List Char) (limit : Nat) : byteLen (truncate cs limit) ≤ limit := by
  induction cs generalizing limit with
  | nil => exact Nat.zero_le _
  | cons c cs ih =>
    rw [truncate_cons]
    split
    · rename_i hfits
      have htail := ih (limit - c.utf8Size)
      rw [byteLen_cons]
      omega
    · exact Nat.zero_le _

/-- A character takes at most four bytes, so four bytes of room leave something. -/
theorem truncate_ne_nil {cs : List Char} (h : cs ≠ []) {limit : Nat} (hlimit : 4 ≤ limit) :
    truncate cs limit ≠ [] := by
  cases cs with
  | nil => exact absurd rfl h
  | cons c cs =>
    have hc : c.utf8Size ≤ 4 := Char.utf8Size_le_four c
    rw [truncate_cons, if_pos (Nat.le_trans hc hlimit)]
    exact List.cons_ne_nil _ _

/-- Cutting twice is cutting at the lower bound. -/
theorem truncate_truncate (cs : List Char) {low high : Nat} (h : low ≤ high) :
    truncate (truncate cs high) low = truncate cs low := by
  induction cs generalizing low high with
  | nil => rfl
  | cons c cs ih =>
    by_cases hlow : c.utf8Size ≤ low
    · have hhigh : c.utf8Size ≤ high := Nat.le_trans hlow h
      rw [truncate_cons, if_pos hhigh, truncate_cons, if_pos hlow, truncate_cons, if_pos hlow,
        ih (by omega)]
    · rw [truncate_cons c cs low, if_neg hlow, truncate_cons]
      split
      · rw [truncate_cons, if_neg hlow]
      · rfl

/-- The replacement character. -/
def replacement : Char := Char.ofNat 0xFFFD

/-- A character of which some bytes have been read: how many are to come, the bits so far, and
    the bounds of the next byte. -/
structure Partial where
  need : Nat
  bits : Nat
  low : Nat
  high : Nat

/-- What a byte is at the beginning of a character. -/
inductive Lead where
  | char (c : Char)
  | started (p : Partial)
  | invalid

/-- The well-formed beginnings of Table 3-7 of the Unicode standard. -/
def lead (b : Nat) : Lead :=
  if b < 0x80 then .char (Char.ofNat b)
  else if 0xC2 ≤ b ∧ b ≤ 0xDF then .started ⟨1, b - 0xC0, 0x80, 0xBF⟩
  else if b = 0xE0 then .started ⟨2, 0, 0xA0, 0xBF⟩
  else if b = 0xED then .started ⟨2, 0xD, 0x80, 0x9F⟩
  else if 0xE1 ≤ b ∧ b ≤ 0xEF then .started ⟨2, b - 0xE0, 0x80, 0xBF⟩
  else if b = 0xF0 then .started ⟨3, 0, 0x90, 0xBF⟩
  else if 0xF1 ≤ b ∧ b ≤ 0xF3 then .started ⟨3, b - 0xF0, 0x80, 0xBF⟩
  else if b = 0xF4 then .started ⟨3, 4, 0x80, 0x8F⟩
  else .invalid

/-- Decoding of bytes, one replacement character for each maximal piece that is not well formed.
    A byte that does not continue a character is looked at again as the beginning of the next. -/
def decodeFrom : Option Partial → List UInt8 → List Char
  | none, [] => []
  | some _, [] => [replacement]
  | pending, byte :: rest =>
    let begin : Unit → List Char := fun _ =>
      match lead byte.toNat with
      | .char c => c :: decodeFrom none rest
      | .started p => decodeFrom (some p) rest
      | .invalid => replacement :: decodeFrom none rest
    match pending with
    | none => begin ()
    | some p =>
      if p.low ≤ byte.toNat ∧ byte.toNat ≤ p.high then
        let bits := p.bits * 64 + byte.toNat % 64
        if p.need = 1 then Char.ofNat bits :: decodeFrom none rest
        else decodeFrom (some ⟨p.need - 1, bits, 0x80, 0xBF⟩) rest
      else replacement :: begin ()

/-- Bytes as text, with replacement characters. -/
def decodeLossy (bytes : List UInt8) : List Char := decodeFrom none bytes

/-- The text in UTF-8. -/
def encode (cs : List Char) : List UInt8 := cs.flatMap String.utf8EncodeChar

/-- ASCII bytes are their characters. -/
theorem decodeLossy_ascii {bytes : List UInt8} (h : ∀ b ∈ bytes, b.toNat < 0x80) :
    decodeLossy bytes = bytes.map (fun b => Char.ofNat b.toNat) := by
  unfold decodeLossy
  induction bytes with
  | nil => rfl
  | cons b bytes ih =>
    have hb : lead b.toNat = .char (Char.ofNat b.toNat) := if_pos (h b List.mem_cons_self)
    rw [decodeFrom, List.map_cons, ← ih (fun c hc => h c (List.mem_cons_of_mem _ hc))]
    dsimp only
    rw [hb]

example : decodeLossy [0x61, 0xE2, 0x80, 0xAE, 0x62, 0xE2, 0x80, 0xFF, 0x63] =
    ['a', Char.ofNat 0x202E, 'b', replacement, replacement, 'c'] := by decide

/-- A line that a line feed ended may end in a carriage return, which goes too. -/
def stripReturn (part : List Char) : List Char :=
  if part.getLast? = some '\r' then part.dropLast else part

/-- The lines of a text; a last line that is empty does not count. -/
def lines (cs : List Char) : List (List Char) :=
  let parts := cs.splitOnP (· == '\n')
  parts.dropLast.map stripReturn ++ (parts.getLast?.toList.filter (fun part => !part.isEmpty))

example : lines ['a', '\r', '\n', '\n', 'b', '\r'] = [['a'], [], ['b', '\r']] := by decide

/-- Lines that are each ended by a line feed come back. -/
theorem lines_flatten {ls : List (List Char)} (h : ∀ l ∈ ls, '\n' ∉ l) :
    lines (ls.map (· ++ ['\n'])).flatten = ls.map stripReturn := by
  have hparts : (ls.map (· ++ ['\n'])).flatten.splitOnP (· == '\n') = ls ++ [[]] := by
    induction ls with
    | nil => rfl
    | cons l ls ih =>
      have hl : ∀ c ∈ l, (c == '\n') = false := by
        intro c hc
        refine beq_eq_false_iff_ne.mpr ?_
        rintro rfl
        exact h l List.mem_cons_self hc
      rw [List.map_cons, List.flatten_cons, List.append_assoc, List.singleton_append,
        List.splitOnP_append_cons_of_forall_mem hl _ (beq_self_eq_true _),
        ih (fun l' hl' => h l' (List.mem_cons_of_mem _ hl'))]
      rfl
  unfold lines
  dsimp only
  rw [hparts, List.dropLast_concat, List.getLast?_concat]
  exact List.append_nil _

/-- The words of a text, between characters that are space. -/
def words (space : Char → Bool) (cs : List Char) : List (List Char) :=
  (cs.splitOnP space).filter (fun word => !word.isEmpty)

/-- A part between separators lies in the text, the first one at its beginning. -/
theorem mem_splitOnP {p : Char → Bool} {cs part : List Char} (h : part ∈ cs.splitOnP p) :
    part <:+: cs ∧ ((cs.splitOnP p).head? = some part → part <+: cs) := by
  induction cs generalizing part with
  | nil =>
    rw [List.splitOnP_nil, List.mem_singleton] at h
    subst h
    exact ⟨List.infix_rfl, fun _ => List.prefix_rfl⟩
  | cons c cs ih =>
    rw [List.splitOnP_cons_eq_if_modifyHead] at h ⊢
    split at h
    · rename_i hsep
      rw [if_pos hsep]
      rcases List.mem_cons.mp h with rfl | h
      · exact ⟨List.nil_infix, fun _ => List.nil_prefix⟩
      · refine ⟨List.infix_cons (ih h).1, fun hhead => ?_⟩
        cases hhead
        exact List.nil_prefix
    · rename_i hsep
      rw [if_neg hsep]
      cases hparts : cs.splitOnP p with
      | nil => exact absurd hparts (List.splitOnP_ne_nil p cs)
      | cons first rest =>
        rw [hparts] at h ih
        have hfirst : first <+: cs := (ih List.mem_cons_self).2 rfl
        have hgrown : c :: first <+: c :: cs := List.cons_prefix_cons.mpr ⟨rfl, hfirst⟩
        rcases List.mem_cons.mp h with rfl | h
        · exact ⟨hgrown.isInfix, fun _ => hgrown⟩
        · refine ⟨List.infix_cons (ih (List.mem_cons_of_mem _ h)).1, fun hhead => ?_⟩
          cases hhead
          exact hgrown

/-- A word lies in the text, and is not empty. -/
theorem mem_words {space : Char → Bool} {cs word : List Char} (h : word ∈ words space cs) :
    word <:+: cs ∧ word ≠ [] := by
  obtain ⟨hpart, hword⟩ := List.mem_filter.mp h
  refine ⟨(mem_splitOnP hpart).1, ?_⟩
  rintro rfl
  cases hword

/-- A part between separators holds none. -/
theorem not_of_mem_splitOnP {p : Char → Bool} {cs part : List Char} (h : part ∈ cs.splitOnP p) :
    ∀ c ∈ part, p c = false := by
  induction cs generalizing part with
  | nil =>
    rw [List.splitOnP_nil, List.mem_singleton] at h
    subst h
    exact fun c hc => absurd hc List.not_mem_nil
  | cons b cs ih =>
    rw [List.splitOnP_cons_eq_if_modifyHead] at h
    split at h
    · rcases List.mem_cons.mp h with rfl | h
      · exact fun c hc => absurd hc List.not_mem_nil
      · exact ih h
    · rename_i hb
      cases hparts : cs.splitOnP p with
      | nil => exact absurd hparts (List.splitOnP_ne_nil p cs)
      | cons first rest =>
        rw [hparts] at h ih
        rcases List.mem_cons.mp h with rfl | h
        · intro c hc
          rcases List.mem_cons.mp hc with rfl | hc
          · exact Bool.eq_false_iff.mpr hb
          · exact ih List.mem_cons_self c hc
        · exact ih (List.mem_cons_of_mem _ h)

theorem not_of_mem_words {space : Char → Bool} {cs word : List Char}
    (h : word ∈ words space cs) : ∀ c ∈ word, space c = false :=
  not_of_mem_splitOnP (List.mem_filter.mp h).1

/-- What is trimmed off anyway does not matter. -/
theorem rdropWhile_append_pos {α : Type*} {p : α → Bool} {as bs : List α} (h : ∀ c ∈ bs, p c = true) :
    (as ++ bs).rdropWhile p = as.rdropWhile p := by
  induction bs using List.reverseRecOn with
  | nil => rw [List.append_nil]
  | append_singleton bs c ih =>
    rw [← List.append_assoc, List.rdropWhile_concat_pos _ _ _ (h c (by simp))]
    exact ih (fun d hd => h d (List.mem_append_left _ hd))

section Words

variable {space : Char → Bool}

theorem words_append_cons (as bs : List Char) {c : Char} (hc : space c = true) :
    words space (as ++ c :: bs) = words space as ++ words space bs := by
  unfold words
  rw [List.splitOnP_append_cons as bs hc, List.filter_append]

/-- A text without space is one word. -/
theorem words_of_solid {cs : List Char} (hne : cs ≠ []) (h : ∀ c ∈ cs, space c = false) :
    words space cs = [cs] := by
  unfold words
  rw [List.splitOnP_eq_singleton h]
  cases cs with
  | nil => exact absurd rfl hne
  | cons c cs => rfl

theorem words_of_space {cs : List Char} (h : ∀ c ∈ cs, space c = true) : words space cs = [] := by
  induction cs with
  | nil =>
    unfold words
    rw [List.splitOnP_nil]
    rfl
  | cons c cs ih =>
    have hsplit := words_append_cons [] cs (h c List.mem_cons_self)
    rw [List.nil_append] at hsplit
    rw [hsplit, ih (fun d hd => h d (List.mem_cons_of_mem _ hd)), List.append_nil, words,
      List.splitOnP_nil]
    rfl

/-- Space at the end makes no word. -/
theorem words_append_space (as : List Char) {bs : List Char} (h : ∀ c ∈ bs, space c = true) :
    words space (as ++ bs) = words space as := by
  cases bs with
  | nil => rw [List.append_nil]
  | cons c bs =>
    rw [words_append_cons as bs (h c List.mem_cons_self),
      words_of_space (fun d hd => h d (List.mem_cons_of_mem _ hd)), List.append_nil]

/-- Space at the beginning makes no word. -/
theorem words_space_append {as : List Char} (bs : List Char) (h : ∀ c ∈ as, space c = true) :
    words space (as ++ bs) = words space bs := by
  induction as with
  | nil => rw [List.nil_append]
  | cons c as ih =>
    have hsplit := words_append_cons [] (as ++ bs) (h c List.mem_cons_self)
    rw [List.nil_append] at hsplit
    rw [List.cons_append, hsplit, ih (fun d hd => h d (List.mem_cons_of_mem _ hd)),
      words_of_space (fun c hc => absurd hc List.not_mem_nil), List.nil_append]

/-- What trimming takes off. -/
theorem trim_split (space : Char → Bool) (cs : List Char) :
    ∃ before after, cs = before ++ (cs.dropWhile space).rdropWhile space ++ after ∧
      (∀ c ∈ before, space c = true) ∧ ∀ c ∈ after, space c = true := by
  refine ⟨cs.takeWhile space, (cs.dropWhile space).rtakeWhile space, ?_,
    fun c hc => List.mem_takeWhile_imp hc, fun c hc => List.mem_rtakeWhile_imp hc⟩
  rw [List.append_assoc, List.rdropWhile_append_rtakeWhile, List.takeWhile_append_dropWhile]

theorem trim_trim (space : Char → Bool) (cs : List Char) :
    (((cs.dropWhile space).rdropWhile space).dropWhile space).rdropWhile space =
      (cs.dropWhile space).rdropWhile space := by
  have hfront : ((cs.dropWhile space).rdropWhile space).dropWhile space =
      (cs.dropWhile space).rdropWhile space := by
    cases htrim : (cs.dropWhile space).rdropWhile space with
    | nil => rfl
    | cons c more =>
      obtain ⟨after, hafter⟩ := List.rdropWhile_prefix space (cs.dropWhile space)
      rw [htrim, List.cons_append] at hafter
      have hc := List.head_dropWhile_not space (l := cs)
        (by rw [← hafter]; exact List.cons_ne_nil _ _)
      simp only [← hafter, List.head_cons] at hc
      exact List.dropWhile_cons_of_neg (by rw [hc]; exact Bool.false_ne_true)
  rw [hfront, List.rdropWhile_idempotent]

/-- Between spaces, a text without space is left. -/
theorem trim_solid {before cs after : List Char} (hbefore : ∀ c ∈ before, space c = true)
    (hsolid : ∀ c ∈ cs, space c = false) (hafter : ∀ c ∈ after, space c = true) :
    ((before ++ cs ++ after).dropWhile space).rdropWhile space = cs := by
  have hback : (before ++ cs ++ after).dropWhile space = (cs ++ after).dropWhile space := by
    rw [List.append_assoc, List.dropWhile_append_of_pos hbefore]
  rw [hback]
  cases cs with
  | nil =>
    rw [List.nil_append, List.dropWhile_eq_nil_iff.mpr hafter]
    rfl
  | cons c cs =>
    have hc : ¬ space c = true := by
      rw [hsolid c List.mem_cons_self]
      exact Bool.false_ne_true
    rw [List.cons_append, List.dropWhile_cons_of_neg hc, ← List.cons_append,
      rdropWhile_append_pos hafter]
    refine List.rdropWhile_eq_self_iff.mpr (fun hne hlast => ?_)
    rw [hsolid _ (List.getLast_mem hne)] at hlast
    cases hlast

/-- Trimming changes no word. -/
theorem words_trim (cs : List Char) :
    words space ((cs.dropWhile space).rdropWhile space) = words space cs := by
  obtain ⟨before, after, hcs, hbefore, hafter⟩ := trim_split space cs
  conv_rhs => rw [hcs]
  rw [words_append_space _ hafter, words_space_append _ hbefore]

/-- A space of its own adds no word. -/
theorem words_cons_space {c : Char} (hc : space c = true) (cs : List Char) :
    words space (c :: cs) = words space cs := by
  have hall : ∀ d ∈ [c], space d = true := by
    intro d hd
    rwa [List.mem_singleton.mp hd]
  exact words_space_append cs hall

/-- A text that ends, or goes on with space. -/
def Stops (space : Char → Bool) (cs : List Char) : Prop :=
  cs = [] ∨ ∃ c more, cs = c :: more ∧ space c = true

theorem Stops.of_space {cs : List Char} (h : ∀ c ∈ cs, space c = true) : Stops space cs := by
  cases cs with
  | nil => exact .inl rfl
  | cons c cs => exact .inr ⟨c, cs, rfl, h c List.mem_cons_self⟩

/-- A word, with space before it and what stops it. -/
theorem words_first {before word after : List Char} (hbefore : ∀ c ∈ before, space c = true)
    (hne : word ≠ []) (hsolid : ∀ c ∈ word, space c = false) (hafter : Stops space after) :
    words space (before ++ word ++ after) = word :: words space after := by
  have hword := words_of_solid hne hsolid
  rw [List.append_assoc, words_space_append _ hbefore]
  rcases hafter with rfl | ⟨c, more, rfl, hc⟩
  · rw [List.append_nil, hword, words_of_space (fun c hc => absurd hc List.not_mem_nil)]
  · rw [words_append_cons _ _ hc, hword, words_cons_space hc, List.singleton_append]

/-- A text is blank or has a first word. -/
theorem blank_or_word (space : Char → Bool) (cs : List Char) : (∀ c ∈ cs, space c = true) ∨
    ∃ before word after, cs = before ++ word ++ after ∧ (∀ c ∈ before, space c = true) ∧
      word ≠ [] ∧ (∀ c ∈ word, space c = false) ∧ Stops space after := by
  have hcs := List.takeWhile_append_dropWhile (p := space) (l := cs)
  have hbefore : ∀ c ∈ cs.takeWhile space, space c = true := fun c hc => List.mem_takeWhile_imp hc
  cases hd : cs.dropWhile space with
  | nil =>
    rw [hd, List.append_nil] at hcs
    rw [← hcs]
    exact .inl hbefore
  | cons first rest =>
    have hfirst := List.head_dropWhile_not space (l := cs) (by rw [hd]; exact List.cons_ne_nil _ _)
    simp only [hd, List.head_cons] at hfirst
    have hrest := List.takeWhile_append_dropWhile (p := fun c => !space c) (l := first :: rest)
    refine .inr ⟨cs.takeWhile space, (first :: rest).takeWhile (fun c => !space c),
      (first :: rest).dropWhile (fun c => !space c), ?_, hbefore, ?_, ?_, ?_⟩
    · rw [List.append_assoc, hrest, ← hd, hcs]
    · rw [List.takeWhile_cons_of_pos (by rw [hfirst]; rfl)]
      exact List.cons_ne_nil _ _
    · intro c hc
      have hnot := List.mem_takeWhile_imp (p := fun c => !space c) hc
      rwa [Bool.not_eq_true'] at hnot
    · cases hafter : (first :: rest).dropWhile (fun c => !space c) with
      | nil => exact .inl rfl
      | cons c more =>
        have hc := List.head_dropWhile_not (fun c => !space c) (l := first :: rest)
          (by rw [hafter]; exact List.cons_ne_nil _ _)
        simp only [hafter, List.head_cons, Bool.not_eq_false'] at hc
        exact .inr ⟨c, more, rfl, hc⟩

/-- Rewriting the characters of a text rewrites those of its words. -/
theorem words_map (g : Char → Char) (cs : List Char) :
    words space (cs.map g) = (words (fun c => space (g c)) cs).map (List.map g) := by
  have hparts : (cs.map g).splitOnP space =
      (cs.splitOnP (fun c => space (g c))).map (List.map g) := by
    induction cs with
    | nil => rw [List.map_nil, List.splitOnP_nil, List.splitOnP_nil]; rfl
    | cons c cs ih =>
      rw [List.map_cons, List.splitOnP_cons_eq_if_modifyHead,
        List.splitOnP_cons_eq_if_modifyHead, ih]
      split
      · rfl
      · cases cs.splitOnP (fun c => space (g c)) with
        | nil => rfl
        | cons first rest => rfl
  rw [words, words, hparts, List.filter_map]
  congr 1
  refine List.filter_congr (fun part _ => ?_)
  cases part with
  | nil => rfl
  | cons c part => rfl

/-- Words with a space between them are the words of the text. -/
theorem words_intercalate {sep : Char} (hsep : space sep = true) {pieces : List (List Char)}
    (h : ∀ piece ∈ pieces, piece ≠ [] ∧ ∀ c ∈ piece, space c = false) :
    words space ([sep].intercalate pieces) = pieces := by
  induction pieces with
  | nil =>
    rw [words, show [sep].intercalate [] = ([] : List Char) from rfl, List.splitOnP_nil]
    rfl
  | cons piece pieces ih =>
    obtain ⟨hne, hsolid⟩ := h piece List.mem_cons_self
    have hrest := ih (fun p hp => h p (List.mem_cons_of_mem _ hp))
    cases pieces with
    | nil =>
      rw [List.intercalate_singleton]
      exact words_of_solid hne hsolid
    | cons next pieces =>
      have hjoin : [sep].intercalate (piece :: next :: pieces) =
          piece ++ sep :: [sep].intercalate (next :: pieces) := by
        simp [List.intercalate]
      rw [hjoin, words_append_cons _ _ hsep, words_of_solid hne hsolid, hrest]
      rfl

end Words

/-! ## Occurrences -/

section Occurrences

variable {α : Type*} {needle : List α} {sep : α}

/-- A needle without the separator does not reach beyond it. -/
theorem prefix_cut (hsep : sep ∉ needle) (as bs : List α) :
    needle <+: as ++ sep :: bs ↔ needle <+: as := by
  refine ⟨fun h => ?_, fun h => h.trans (List.prefix_append _ _)⟩
  induction as generalizing needle with
  | nil =>
    cases needle with
    | nil => exact List.nil_prefix
    | cons a needle =>
      have hhead : a = sep := (List.cons_prefix_cons.mp h).1
      exact absurd (hhead ▸ List.mem_cons_self) hsep
  | cons c as ih =>
    cases needle with
    | nil => exact List.nil_prefix
    | cons a needle =>
      rw [List.cons_append, List.cons_prefix_cons] at h
      have htail : needle <+: as := ih (fun hmem => hsep (List.mem_cons_of_mem _ hmem)) h.2
      exact List.cons_prefix_cons.mpr ⟨h.1, htail⟩

theorem intercalate_cons_cons (sep : α) (piece next : List α) (pieces : List (List α)) :
    [sep].intercalate (piece :: next :: pieces) =
      piece ++ sep :: [sep].intercalate (next :: pieces) := by
  simp [List.intercalate]

theorem mem_intercalate {sep a : α} {pieces : List (List α)} (h : a ∈ [sep].intercalate pieces) :
    a = sep ∨ ∃ piece ∈ pieces, a ∈ piece := by
  induction pieces with
  | nil => simp at h
  | cons piece pieces ih =>
    cases pieces with
    | nil =>
      rw [List.intercalate_singleton] at h
      exact .inr ⟨piece, List.mem_cons_self, h⟩
    | cons next pieces =>
      rw [intercalate_cons_cons, List.mem_append, List.mem_cons] at h
      rcases h with hhere | hsep | hlater
      · exact .inr ⟨piece, List.mem_cons_self, hhere⟩
      · exact .inl hsep
      · rcases ih hlater with hsep | ⟨p, hp, ha⟩
        · exact .inl hsep
        · exact .inr ⟨p, List.mem_cons_of_mem _ hp, ha⟩

/-- Dropping pieces drops characters and nothing else. -/
theorem intercalate_sublist {kept pieces : List (List α)} (sep : α) (h : kept.Sublist pieces) :
    ([sep].intercalate kept).Sublist ([sep].intercalate pieces) := by
  induction h with
  | slnil => exact List.Sublist.refl _
  | @cons kept pieces piece hsub ih =>
    cases pieces with
    | nil =>
      rw [List.sublist_nil.mp hsub]
      exact List.nil_sublist _
    | cons next pieces =>
      rw [intercalate_cons_cons]
      exact (ih.trans (List.sublist_cons_self _ _)).trans (List.sublist_append_right _ _)
  | @cons_cons kept pieces piece hsub ih =>
    cases pieces with
    | nil =>
      rw [List.sublist_nil.mp hsub]
    | cons next pieces =>
      rw [intercalate_cons_cons]
      cases kept with
      | nil =>
        rw [List.intercalate_singleton]
        exact List.sublist_append_left _ _
      | cons first kept =>
        rw [intercalate_cons_cons]
        exact (List.Sublist.refl _).append (ih.cons_cons sep)

variable [DecidableEq α]

/-- The text contains the needle. -/
def contains (needle : List α) : List α → Bool
  | [] => needle.isPrefixOf []
  | c :: cs => needle.isPrefixOf (c :: cs) || contains needle cs

theorem contains_iff {cs : List α} : contains needle cs = true ↔ needle <:+: cs := by
  induction cs with
  | nil =>
    rw [contains, List.isPrefixOf_iff_prefix, List.prefix_nil, List.infix_nil]
  | cons c cs ih =>
    rw [contains, Bool.or_eq_true, List.isPrefixOf_iff_prefix, ih, List.infix_cons_iff]

/-- The positions at which the needle starts, the first character having position `n`. -/
def positions (needle : List α) (n : Nat) : List α → List Nat
  | [] => if needle.isPrefixOf [] then [n] else []
  | c :: cs =>
    if needle.isPrefixOf (c :: cs) then n :: positions needle (n + 1) cs
    else positions needle (n + 1) cs

/-- No position, no occurrence. -/
theorem positions_eq_nil (n : Nat) (cs : List α) :
    positions needle n cs = [] ↔ ¬ needle <:+: cs := by
  induction cs generalizing n with
  | nil =>
    rw [positions, List.infix_nil]
    cases needle with
    | nil => simp
    | cons a needle => simp
  | cons c cs ih =>
    rw [positions, List.infix_cons_iff, ← List.isPrefixOf_iff_prefix]
    split
    · rename_i hhere
      simp [hhere]
    · rename_i hhere
      simp [hhere, ih]

/-- **Cutting.**  Before and after a character that is not in the needle, occurrences are counted
    one by one. -/
theorem positions_cut (hsep : sep ∉ needle) (hne : needle ≠ []) (n : Nat) (as bs : List α) :
    positions needle n (as ++ sep :: bs) =
      positions needle n as ++ positions needle (n + as.length + 1) bs := by
  induction as generalizing n with
  | nil =>
    have hnil : ¬ needle <+: [] := fun h => hne (List.prefix_nil.mp h)
    have hhere : ¬ needle <+: sep :: bs := fun h => hnil ((prefix_cut hsep [] bs).mp h)
    rw [← List.isPrefixOf_iff_prefix] at hnil hhere
    rw [List.nil_append, positions, positions, if_neg hhere, if_neg hnil]
    rfl
  | cons c as ih =>
    have hhere : needle.isPrefixOf (c :: as ++ sep :: bs) = needle.isPrefixOf (c :: as) := by
      rw [Bool.eq_iff_iff, List.isPrefixOf_iff_prefix, List.isPrefixOf_iff_prefix]
      exact prefix_cut hsep (c :: as) bs
    have hlen : n + (c :: as).length + 1 = n + 1 + as.length + 1 := by
      rw [List.length_cons]
      omega
    rw [List.cons_append] at hhere ⊢
    rw [positions, positions, hhere, ih, hlen]
    split
    · rfl
    · rfl

theorem infix_cut (hsep : sep ∉ needle) (hne : needle ≠ []) (as bs : List α) :
    needle <:+: as ++ sep :: bs ↔ needle <:+: as ∨ needle <:+: bs := by
  rw [← not_iff_not, not_or, ← positions_eq_nil 0, positions_cut hsep hne, List.append_eq_nil_iff,
    positions_eq_nil, positions_eq_nil]

/-- Pieces joined by a separator are searched one by one. -/
theorem infix_intercalate (hsep : sep ∉ needle) (hne : needle ≠ []) (pieces : List (List α)) :
    needle <:+: [sep].intercalate pieces ↔ ∃ piece ∈ pieces, needle <:+: piece := by
  induction pieces with
  | nil => simp [hne]
  | cons piece pieces ih =>
    cases pieces with
    | nil => simp [List.intercalate]
    | cons next pieces =>
      rw [intercalate_cons_cons, infix_cut hsep hne, ih]
      exact (List.exists_mem_cons_iff _ _ _).symm

omit [DecidableEq α] in
/-- Up to the first separator: a needle that ends in one, and has no other, stands at the end of
    what precedes a separator, or comes later. -/
theorem infix_concat_cut (hsep : sep ∉ needle) {as bs : List α} (has : sep ∉ as) :
    needle ++ [sep] <:+: as ++ sep :: bs ↔ needle <:+ as ∨ needle ++ [sep] <:+: bs := by
  constructor
  · rintro ⟨pre, post, h⟩
    have hsplit : pre ++ needle ++ sep :: post = as ++ sep :: bs := by
      rw [← h]
      simp
    rcases List.append_eq_append_iff.mp hsplit with ⟨gap, has', hgap⟩ | ⟨gap, hpre, hgap⟩
    · cases gap with
      | nil =>
        rw [List.append_nil] at has'
        exact .inl (has' ▸ List.suffix_append _ _)
      | cons c gap =>
        -- the separator of the needle would stand inside what has none
        have hc : c = sep := (List.cons.inj hgap).1.symm
        refine absurd ?_ has
        rw [has', hc]
        exact List.mem_append_right _ List.mem_cons_self
    · cases gap with
      | nil =>
        rw [List.append_nil] at hpre
        exact .inl (hpre ▸ List.suffix_append _ _)
      | cons c gap =>
        -- the needle begins after the separator
        have hc : sep = c := (List.cons.inj hgap).1
        subst hc
        rcases List.append_eq_append_iff.mp hpre with ⟨more, -, hmore⟩ | ⟨more, -, hmore⟩
        · refine absurd ?_ hsep
          rw [hmore]
          exact List.mem_append_right _ List.mem_cons_self
        · cases more with
          | nil =>
            rw [List.nil_append] at hmore
            refine absurd ?_ hsep
            rw [← hmore]
            exact List.mem_cons_self
          | cons d more =>
            have hgap' : gap = more ++ needle := (List.cons.inj hmore).2
            refine .inr ⟨more, post, ?_⟩
            rw [(List.cons.inj hgap).2, hgap']
            simp
  · rintro (⟨front, h⟩ | ⟨pre, post, h⟩)
    · refine ⟨front, bs, ?_⟩
      rw [← h]
      simp
    · refine ⟨as ++ sep :: pre, post, ?_⟩
      rw [← h]
      simp

omit [DecidableEq α] in
/-- Among joined pieces, a needle that ends in the separator is the end of a piece that is not the
    last. -/
theorem infix_intercalate_concat (hsep : sep ∉ needle) {pieces : List (List α)}
    (h : ∀ piece ∈ pieces, sep ∉ piece) :
    needle ++ [sep] <:+: [sep].intercalate pieces ↔
      ∃ piece ∈ pieces.dropLast, needle <:+ piece := by
  induction pieces with
  | nil => simp [List.intercalate]
  | cons piece pieces ih =>
    cases pieces with
    | nil =>
      rw [List.intercalate_singleton]
      constructor
      · intro hin
        refine absurd ?_ (h piece List.mem_cons_self)
        exact hin.subset (List.mem_append_right _ List.mem_cons_self)
      · rintro ⟨_, hin, -⟩
        cases hin
    | cons next pieces =>
      rw [intercalate_cons_cons, infix_concat_cut hsep (h piece List.mem_cons_self),
        ih (fun p hp => h p (List.mem_cons_of_mem _ hp)), List.dropLast_cons_cons]
      exact (List.exists_mem_cons_iff _ _ _).symm

/-- What no character of the needle may be does not complete an occurrence. -/
theorem infix_append_separate (hne : needle ≠ []) {as bs : List α}
    (hsep : ∀ c ∈ bs, c ∉ needle) : needle <:+: as ++ bs ↔ needle <:+: as := by
  induction bs generalizing as with
  | nil => rw [List.append_nil]
  | cons c bs ih =>
    have hrest : ∀ d ∈ bs, d ∉ needle := fun d hd => hsep d (List.mem_cons_of_mem _ hd)
    have hnone : ¬ needle <:+: bs := by
      intro h
      have hnil : needle <:+: [] := (ih hrest).mp h
      exact hne (List.infix_nil.mp hnil)
    rw [infix_cut (hsep c List.mem_cons_self) hne]
    constructor
    · rintro (h | h)
      · exact h
      · exact absurd h hnone
    · intro h
      exact .inl h

omit [DecidableEq α] in
/-- **One occurrence.**  Where the first character of the needles stands nowhere else in them, an
    occurrence of one after a text without the other, followed by anything without that first
    character, is the only occurrence of either. -/
theorem occurrence_unique {first : α} {tail other as bs pre post : List α}
    (htail : first ∉ tail) (hother : first ∉ other) (hbs : first ∉ bs)
    (hnone : ¬ (first :: other) <:+: as)
    (h : as ++ (first :: tail) ++ bs = pre ++ (first :: other) ++ post) : pre = as := by
  rw [List.append_assoc, List.append_assoc, List.append_eq_append_iff] at h
  rcases h with ⟨gap, hpre, hgap⟩ | ⟨gap, has, hgap⟩
  · cases gap with
    | nil => rw [hpre, List.append_nil]
    | cons c gap =>
      -- a later occurrence would begin inside the needle or after it
      have hrest : tail ++ bs = gap ++ (first :: other ++ post) := (List.cons.inj hgap).2
      have hmem : first ∈ tail ++ bs := by
        rw [hrest]
        exact List.mem_append_right _ List.mem_cons_self
      rcases List.mem_append.mp hmem with hin | hin
      · exact absurd hin htail
      · exact absurd hin hbs
  · cases gap with
    | nil => rw [has, List.append_nil]
    | cons c gap =>
      -- an earlier one lies before the needle or reaches into it
      have hsplit : first :: other ++ post = c :: gap ++ (first :: tail ++ bs) := hgap
      rcases List.append_eq_append_iff.mp hsplit with ⟨more, hgapEq, -⟩ | ⟨more, hneedle, hmore⟩
      · refine absurd ?_ hnone
        rw [has, hgapEq]
        exact ⟨pre, more, by rw [List.append_assoc]⟩
      · cases more with
        | nil =>
          refine absurd ?_ hnone
          rw [List.append_nil] at hneedle
          rw [has, hneedle]
          exact (List.suffix_append _ _).isInfix
        | cons d more =>
          have hd : first = d := (List.cons.inj hmore).1
          have hin : first ∈ other := by
            rw [(List.cons.inj hneedle).2, hd]
            exact List.mem_append_right _ List.mem_cons_self
          exact absurd hin hother

/-! ## The end of a text -/

omit [DecidableEq α] in
/-- Trimming less gives the same exactly when nothing more is there to be trimmed. -/
theorem rdropWhile_eq_rdropWhile {p q : α → Bool} (hpq : ∀ c, q c = true → p c = true)
    {cs : List α} :
    cs.rdropWhile p = cs.rdropWhile q ↔ ∀ c ∈ cs.rtakeWhile p, q c = true := by
  induction cs using List.reverseRecOn with
  | nil => simp
  | append_singleton cs c ih =>
    by_cases hp : p c = true
    · rw [List.rdropWhile_concat_pos _ _ _ hp, List.rtakeWhile_concat_pos _ _ _ hp]
      by_cases hq : q c = true
      · rw [List.rdropWhile_concat_pos _ _ _ hq, ih]
        simp only [List.mem_append, List.mem_singleton, or_imp, forall_and, forall_eq, hq, and_true]
      · rw [List.rdropWhile_concat_neg _ _ _ hq]
        constructor
        · intro h
          have hshort := (List.rdropWhile_prefix p cs).length_le
          have hlong := congrArg List.length h
          rw [List.length_append, List.length_singleton] at hlong
          omega
        · intro h
          exact absurd (h c (by simp)) hq
    · have hq : ¬ q c = true := fun h => hp (hpq c h)
      rw [List.rdropWhile_concat_neg _ _ _ hp, List.rdropWhile_concat_neg _ _ _ hq,
        List.rtakeWhile_concat_neg _ _ _ hp]
      simp

/-! ## Replacement -/

/-- `replaceFrom skip` replaces the occurrences from left to right, passing over the next `skip`
    characters. -/
def replaceFrom (needle new : List α) : Nat → List α → List α
  | _, [] => []
  | skip + 1, _ :: cs => replaceFrom needle new skip cs
  | 0, c :: cs =>
    if needle.isPrefixOf (c :: cs) then new ++ replaceFrom needle new (needle.length - 1) cs
    else c :: replaceFrom needle new 0 cs

/-- Every occurrence of the needle replaced, from left to right. -/
def replaceAll (needle new : List α) (cs : List α) : List α := replaceFrom needle new 0 cs

variable {first last : α} {middle : List α}

end Occurrences

end Chars
