/-
  The UTF-8 bytes of a text.

  1. **Bytes of a character** — a byte below 0x80 stands for the character of that code alone
     (`eq_of_low_byte`).

  2. **Two texts** — texts with the same bytes are the same (`encode_injective`), and bytes are
     decoded to the text they are the bytes of (`decode_iff`).

  3. **Boundaries** — `slice cs start stop` is `value[start..stop]`, which exists if a character
     starts at both offsets.  A character starts at every low byte, and another one right after it
     (`low_byte_boundary`), so a slice from a low byte to the end of a row of them exists
     (`slice_low`).

  4. **Places** — a text that is not empty stands in another where its bytes do (`stands_iff`):
     its first byte begins a character.
-/
import VibeCoder.Lib.Chars

namespace Chars

/-! ## Bytes of a character -/

/-- A byte or-ed with one from 0x80 on is from 0x80 on. -/
theorem high_or {x mask : UInt8} (h : 0x80 ≤ mask.toNat) : 0x80 ≤ (x ||| mask).toNat := by
  rw [UInt8.toNat_or]
  exact Nat.le_trans h Nat.right_le_or

/-- **A low byte is the whole character.** -/
theorem eq_of_low_byte {c : Char} {b : UInt8} (h : b ∈ String.utf8EncodeChar c)
    (hb : b.toNat < 0x80) : c.utf8Size = 1 ∧ b = c.val.toUInt8 ∧ c.toNat = b.toNat := by
  have hhigh : ∀ {x mask : UInt8}, 0x80 ≤ mask.toNat → b ≠ x ||| mask := by
    rintro x mask hmask rfl
    have hor := high_or (x := x) hmask
    omega
  rcases c.utf8Size_eq with hsize | hsize | hsize | hsize
  · rw [String.utf8EncodeChar_eq_singleton hsize, List.mem_singleton] at h
    refine ⟨hsize, h, ?_⟩
    have hle : c.val.toNat ≤ 127 := UInt32.le_iff_toNat_le.mp (Char.utf8Size_eq_one_iff.mp hsize)
    rw [h, UInt32.toNat_toUInt8]
    show c.val.toNat = c.val.toNat % 2 ^ 8
    omega
  · rw [String.utf8EncodeChar_eq_cons_cons hsize] at h
    simp only [List.mem_cons, List.not_mem_nil, or_false] at h
    rcases h with h | h
    · exact absurd h (hhigh (by decide))
    · exact absurd h (hhigh (by decide))
  · rw [String.utf8EncodeChar_eq_cons_cons_cons hsize] at h
    simp only [List.mem_cons, List.not_mem_nil, or_false] at h
    rcases h with h | h | h
    · exact absurd h (hhigh (by decide))
    · exact absurd h (hhigh (by decide))
    · exact absurd h (hhigh (by decide))
  · rw [String.utf8EncodeChar_eq_cons_cons_cons_cons hsize] at h
    simp only [List.mem_cons, List.not_mem_nil, or_false] at h
    rcases h with h | h | h | h
    · exact absurd h (hhigh (by decide))
    · exact absurd h (hhigh (by decide))
    · exact absurd h (hhigh (by decide))
    · exact absurd h (hhigh (by decide))

@[simp] theorem encode_nil : encode [] = [] := rfl

@[simp] theorem encode_cons (c : Char) (cs : List Char) :
    encode (c :: cs) = String.utf8EncodeChar c ++ encode cs := rfl

@[simp] theorem encode_append (as bs : List Char) : encode (as ++ bs) = encode as ++ encode bs :=
  List.flatMap_append

@[simp] theorem length_encode (cs : List Char) : (encode cs).length = byteLen cs := by
  induction cs with
  | nil => rfl
  | cons c cs ih => rw [encode_cons, List.length_append, String.length_utf8EncodeChar, ih,
      byteLen_cons]

/-- A low byte of a text is one of its characters. -/
theorem mem_of_low_byte {cs : List Char} {b : UInt8} (h : b ∈ encode cs) (hb : b.toNat < 0x80) :
    ∃ c ∈ cs, c.toNat = b.toNat := by
  obtain ⟨c, hc, hbyte⟩ := List.mem_flatMap.mp h
  exact ⟨c, hc, (eq_of_low_byte hbyte hb).2.2⟩

/-- A text in ASCII has one byte for each character. -/
theorem encode_low {cs : List Char} (h : ∀ c ∈ cs, c.utf8Size = 1) :
    encode cs = cs.map (fun c => c.val.toUInt8) := by
  induction cs with
  | nil => rfl
  | cons c cs ih =>
    rw [encode_cons, String.utf8EncodeChar_eq_singleton (h c List.mem_cons_self),
      ih (fun d hd => h d (List.mem_cons_of_mem _ hd))]
    rfl

/-! ## Two texts -/

theorem toByteArray_encode (cs : List Char) : (encode cs).toByteArray = (String.ofList cs).toByteArray := by
  rw [String.toByteArray_ofList]
  rfl

/-- **Texts with the same bytes are the same.** -/
theorem encode_injective {as bs : List Char} (h : encode as = encode bs) : as = bs := by
  have hbytes : (String.ofList as).toByteArray = (String.ofList bs).toByteArray := by
    rw [← toByteArray_encode, ← toByteArray_encode, h]
  exact String.ofList_injective (String.toByteArray_inj.mp hbytes)

/-- `String::from_utf8`. -/
def decode (bytes : List UInt8) : Option (List Char) :=
  (String.fromUTF8? ⟨bytes.toArray⟩).map String.toList

/-- **Bytes are decoded** to the text they are the bytes of. -/
theorem decode_iff {bytes : List UInt8} {cs : List Char} :
    decode bytes = some cs ↔ encode cs = bytes := by
  have harray : ∀ ds, (encode ds).toByteArray = ⟨(encode ds).toArray⟩ := fun ds =>
    ByteArray.ext (by rw [List.data_toByteArray])
  constructor
  · intro h
    obtain ⟨text, htext, rfl⟩ := Option.map_eq_some_iff.mp h
    unfold String.fromUTF8? at htext
    split at htext
    · rename_i hvalid
      cases htext
      have hbytes : (String.ofList (String.fromUTF8 ⟨bytes.toArray⟩ hvalid).toList).toByteArray =
          ⟨bytes.toArray⟩ := by
        rw [String.ofList_toList]
        rfl
      rw [← toByteArray_encode, harray] at hbytes
      exact List.toArray_inj (congrArg ByteArray.data hbytes)
    · cases htext
  · rintro rfl
    have hvalid : (⟨(encode cs).toArray⟩ : ByteArray).IsValidUTF8 := by
      rw [← harray, toByteArray_encode]
      exact (String.ofList cs).isValidUTF8
    rw [decode, String.fromUTF8?, dif_pos hvalid, Option.map_some, Option.some.injEq]
    have htext : String.fromUTF8 ⟨(encode cs).toArray⟩ hvalid = String.ofList cs := by
      apply String.toByteArray_inj.mp
      rw [← toByteArray_encode, harray]
      rfl
    rw [htext, String.toList_ofList]

/-! ## Boundaries -/

/-- What stands before and after a byte offset, if a character starts there. -/
def cutAt : List Char → Nat → Option (List Char × List Char)
  | cs, 0 => some ([], cs)
  | [], _ + 1 => none
  | c :: cs, n + 1 =>
    if c.utf8Size ≤ n + 1 then
      (cutAt cs (n + 1 - c.utf8Size)).map (fun parts => (c :: parts.1, parts.2))
    else none

theorem cutAt_append (as bs : List Char) : cutAt (as ++ bs) (byteLen as) = some (as, bs) := by
  induction as with
  | nil =>
    rw [List.nil_append, byteLen_nil]
    unfold cutAt
    rfl
  | cons c as ih =>
    obtain ⟨n, hn⟩ : ∃ n, byteLen (c :: as) = n + 1 :=
      Nat.exists_eq_succ_of_ne_zero (Nat.ne_of_gt (byteLen_pos (List.cons_ne_nil c as)))
    have hsize : n + 1 = c.utf8Size + byteLen as := hn.symm.trans (byteLen_cons c as)
    rw [hn, List.cons_append, cutAt, if_pos (by omega), hsize, Nat.add_sub_cancel_left, ih]
    rfl

/-- `value[start..stop]`. -/
def slice (cs : List Char) (start stop : Nat) : Option (List Char) :=
  if stop < start then none
  else (cutAt cs stop).bind (fun parts => (cutAt parts.1 start).map Prod.snd)

theorem slice_append (as mid bs : List Char) :
    slice (as ++ mid ++ bs) (byteLen as) (byteLen (as ++ mid)) = some mid := by
  have hle : ¬ byteLen (as ++ mid) < byteLen as := by
    rw [byteLen_append]
    omega
  rw [slice, if_neg hle, cutAt_append, Option.bind_some, cutAt_append]
  rfl

theorem slice_all (cs : List Char) : slice cs 0 (byteLen cs) = some cs := by
  have h := slice_append [] cs []
  rwa [List.append_nil, List.nil_append] at h

/-- Around a low byte. -/
theorem low_byte_boundary {cs : List Char} {i : Nat} {b : UInt8} (h : (encode cs)[i]? = some b)
    (hb : b.toNat < 0x80) : ∃ as c bs, cs = as ++ c :: bs ∧ byteLen as = i ∧ c.utf8Size = 1 := by
  induction cs generalizing i with
  | nil => cases h
  | cons c cs ih =>
    rw [encode_cons] at h
    by_cases hi : i < (String.utf8EncodeChar c).length
    · rw [List.getElem?_append_left hi] at h
      obtain ⟨hsize, -, -⟩ := eq_of_low_byte (List.mem_of_getElem? h) hb
      refine ⟨[], c, cs, rfl, ?_, hsize⟩
      rw [String.length_utf8EncodeChar, hsize] at hi
      rw [byteLen_nil]
      omega
    · rw [List.getElem?_append_right (Nat.le_of_not_lt hi)] at h
      obtain ⟨as, d, bs, rfl, hlen, hsize⟩ := ih h
      refine ⟨c :: as, d, bs, rfl, ?_, hsize⟩
      rw [byteLen_cons, hlen, String.length_utf8EncodeChar]
      rw [String.length_utf8EncodeChar] at hi
      omega

/-- Of two beginnings of a text the one with fewer bytes is a beginning of the other. -/
theorem prefix_of_byteLen_le {as bs cs : List Char} (ha : as <+: cs) (hb : bs <+: cs)
    (h : byteLen as ≤ byteLen bs) : as <+: bs := by
  rcases List.prefix_or_prefix_of_prefix ha hb with hp | ⟨rest, rfl⟩
  · exact hp
  · rw [byteLen_append] at h
    have hrest : rest = [] := byteLen_eq_zero.mp (by omega)
    rw [hrest, List.append_nil]

/-- **A slice that starts at a low byte and stops right after one** exists. -/
theorem slice_low {cs : List Char} {start stop : Nat} {a b : UInt8} (hle : start ≤ stop)
    (hfirst : (encode cs)[start]? = some a) (ha : a.toNat < 0x80)
    (hlast : (encode cs)[stop]? = some b) (hb : b.toNat < 0x80) :
    ∃ mid, slice cs start (stop + 1) = some mid := by
  obtain ⟨as, c, as', hcs, hstart, -⟩ := low_byte_boundary hfirst ha
  obtain ⟨bs, d, bs', hcs', hstop, hsize⟩ := low_byte_boundary hlast hb
  have hlong : byteLen (bs ++ [d]) = stop + 1 := by
    rw [byteLen_append, byteLen_cons, byteLen_nil, hstop, hsize]
  have htext : cs = bs ++ [d] ++ bs' := by rw [hcs', List.append_assoc, List.singleton_append]
  have hprefix : as <+: bs ++ [d] :=
    prefix_of_byteLen_le ⟨c :: as', hcs.symm⟩ ⟨bs', htext.symm⟩ (by omega)
  obtain ⟨mid, hmid⟩ := hprefix
  refine ⟨mid, ?_⟩
  rw [htext, ← hmid, ← hstart, ← hlong, ← hmid]
  exact slice_append as mid bs'

/-! ## Places -/

/-- **A byte that can begin a character does.** -/
theorem first_byte_boundary {cs : List Char} {i : Nat} {b : UInt8} (h : (encode cs)[i]? = some b)
    (hb : b.IsUTF8FirstByte) : ∃ as bs, cs = as ++ bs ∧ byteLen as = i := by
  induction cs generalizing i with
  | nil => cases h
  | cons c cs ih =>
    rw [encode_cons] at h
    by_cases hi : i < (String.utf8EncodeChar c).length
    · rw [List.getElem?_append_left hi, List.getElem?_eq_getElem hi] at h
      cases h
      rw [UInt8.isUTF8FirstByte_getElem_utf8EncodeChar] at hb
      subst hb
      exact ⟨[], c :: cs, rfl, byteLen_nil⟩
    · rw [List.getElem?_append_right (Nat.le_of_not_lt hi)] at h
      obtain ⟨as, bs, rfl, hlen⟩ := ih h
      refine ⟨c :: as, bs, rfl, ?_⟩
      rw [byteLen_cons, hlen, String.length_utf8EncodeChar]
      rw [String.length_utf8EncodeChar] at hi
      omega

/-- A text begins with another if its bytes do. -/
theorem encode_prefix_iff {as bs : List Char} : encode as <+: encode bs ↔ as <+: bs := by
  constructor
  · rintro ⟨rest, h⟩
    refine List.isPrefix_of_utf8Encode_append_eq_utf8Encode rest.toByteArray ?_
    show (encode as).toByteArray ++ rest.toByteArray = (encode bs).toByteArray
    rw [← List.toByteArray_append, h]
  · rintro ⟨rest, rfl⟩
    rw [encode_append]
    exact List.prefix_append _ _

/-- `needle` stands in the text, after so many bytes. -/
def Stands (needle cs : List Char) (i : Nat) : Prop :=
  ∃ before after, cs = before ++ needle ++ after ∧ byteLen before = i

theorem encode_drop (as bs : List Char) (n : Nat) :
    (encode (as ++ bs)).drop (byteLen as + n) = (encode bs).drop n := by
  rw [encode_append, ← length_encode, List.drop_length_add_append]

/-- **A text stands where its bytes do.** -/
theorem stands_iff {needle cs : List Char} (hne : needle ≠ []) {i : Nat} :
    Stands needle cs i ↔ encode needle <+: (encode cs).drop i := by
  constructor
  · rintro ⟨before, after, rfl, rfl⟩
    have hdrop := encode_drop before (needle ++ after) 0
    rw [Nat.add_zero, List.drop_zero] at hdrop
    rw [List.append_assoc, hdrop, encode_append]
    exact List.prefix_append _ _
  · intro h
    obtain ⟨c, needle, rfl⟩ := List.exists_cons_of_ne_nil hne
    -- the first byte of the needle begins a character of the text
    have hpos : 0 < (String.utf8EncodeChar c).length := by
      rw [String.length_utf8EncodeChar]
      exact Char.utf8Size_pos c
    have hhead : (encode cs)[i]? = some (String.utf8EncodeChar c)[0] := by
      obtain ⟨rest, hrest⟩ := h
      have hzero : ((encode cs).drop i)[0]? = (encode cs)[i]? := by
        rw [List.getElem?_drop, Nat.add_zero]
      rw [← hzero, ← hrest, encode_cons, List.append_assoc, List.getElem?_append_left hpos]
      exact List.getElem?_eq_getElem hpos
    obtain ⟨before, rest, rfl, rfl⟩ := first_byte_boundary hhead
      UInt8.isUTF8FirstByte_getElem_zero_utf8EncodeChar
    have hdrop := encode_drop before rest 0
    rw [Nat.add_zero, List.drop_zero] at hdrop
    rw [hdrop, encode_prefix_iff] at h
    obtain ⟨after, rfl⟩ := h
    exact ⟨before, after, (List.append_assoc _ _ _).symm, rfl⟩

/-- Where a text stands after another one. -/
theorem stands_append {needle : List Char} (hne : needle ≠ []) (as bs : List Char) (n : Nat) :
    Stands needle (as ++ bs) (byteLen as + n) ↔ Stands needle bs n := by
  rw [stands_iff hne, stands_iff hne, encode_drop]

/-- Two places are a character apart. -/
theorem Stands.later {needle before after : List Char} {c : Char} {i : Nat}
    (h : Stands needle (before ++ c :: after) i) (hlt : byteLen before < i) :
    ∃ n, i = byteLen (before ++ [c]) + n ∧ Stands needle after n := by
  obtain ⟨other, rest, htext, rfl⟩ := h
  have hprefix : before <+: other :=
    prefix_of_byteLen_le ⟨c :: after, rfl⟩ ⟨needle ++ rest, by rw [htext, List.append_assoc]⟩
      (Nat.le_of_lt hlt)
  obtain ⟨gap, rfl⟩ := hprefix
  cases gap with
  | nil =>
    rw [List.append_nil] at hlt
    exact absurd hlt (Nat.lt_irrefl _)
  | cons d gap =>
    rw [List.append_assoc, List.append_assoc, List.append_cancel_left_eq, List.cons_append,
      List.cons.injEq] at htext
    obtain ⟨rfl, rfl⟩ := htext
    refine ⟨byteLen gap, ?_, gap, rest, by rw [List.append_assoc], rfl⟩
    rw [← byteLen_append, List.append_assoc]
    rfl

end Chars
