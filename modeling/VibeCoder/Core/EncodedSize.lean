/-
  The size of texts and conversations as JSON.

  A text takes at least its own bytes between its quotes and at most six times as many: a control
  character is what takes six (`stringBytes_le`, `stringBytes_replicate`).  The size of a record is
  that of the record without its messages, and of each message (`encodedBytes_messages`).
-/
import VibeCoder.Conversation
import VibeCoder.Lib.Text

namespace VibeCoder.Json

theorem charBytes_le (c : Char) : charBytes c ≤ 6 * c.utf8Size := by
  have hpos := c.utf8Size_pos
  rw [charBytes]
  split
  · omega
  · split
    · split
      · omega
      · omega
    · omega

theorem utf8Size_le_charBytes (c : Char) : c.utf8Size ≤ charBytes c := by
  rw [charBytes]
  split
  · rename_i hquote
    rw [Bool.or_eq_true, beq_iff_eq, beq_iff_eq] at hquote
    rcases hquote with rfl | rfl
    · decide
    · decide
  · split
    · rename_i hcontrol
      rw [Text.utf8Size_ascii (by omega)]
      split
      · omega
      · omega
    · exact Nat.le_refl _

/-- What holds of every character holds of the whole text. -/
theorem stringBytes_le (value : String) : stringBytes value ≤ 2 + 6 * len value := by
  have hsum : ∀ cs : List Char, (cs.map charBytes).sum ≤ 6 * (cs.map Char.utf8Size).sum := by
    intro cs
    induction cs with
    | nil => exact Nat.le_refl _
    | cons c cs ih =>
      have hc := charBytes_le c
      simp only [List.map_cons, List.sum_cons]
      omega
  have h := hsum value.toList
  rw [stringBytes, len, Text.utf8ByteSize_eq_sum]
  omega

theorem len_le_stringBytes (value : String) : len value + 2 ≤ stringBytes value := by
  have hsum : ∀ cs : List Char, (cs.map Char.utf8Size).sum ≤ (cs.map charBytes).sum := by
    intro cs
    induction cs with
    | nil => exact Nat.le_refl _
    | cons c cs ih =>
      have hc := utf8Size_le_charBytes c
      simp only [List.map_cons, List.sum_cons]
      omega
  have h := hsum value.toList
  rw [stringBytes, len, Text.utf8ByteSize_eq_sum]
  omega

end VibeCoder.Json

namespace VibeCoder

/-! ## Texts of one character -/

/-- The same character over and over. -/
def repeated (n : Nat) (c : Char) : String := String.ofList (List.replicate n c)

theorem repeated_toList (n : Nat) (c : Char) : (repeated n c).toList = List.replicate n c :=
  String.toList_ofList

theorem len_repeated (n : Nat) (c : Char) : len (repeated n c) = n * c.utf8Size := by
  rw [len, repeated, Text.utf8ByteSize_ofList, List.map_replicate, List.sum_replicate_nat]

theorem Json.stringBytes_repeated (n : Nat) (c : Char) :
    Json.stringBytes (repeated n c) = 2 + n * Json.charBytes c := by
  rw [Json.stringBytes, repeated_toList, List.map_replicate, List.sum_replicate_nat]

theorem messageText_repeated {n : Nat} {c : Char} (hpos : 0 < n)
    (hshort : n * c.utf8Size ≤ maxConversationMessageBytes) (hc : c.toNat ≠ 0) :
    messageTextInvalid (repeated n c) = false := by
  have hempty : (repeated n c).isEmpty = false := by
    rw [String.isEmpty_eq_false_iff]
    intro hnil
    have hlist := congrArg String.toList hnil
    rw [repeated_toList] at hlist
    have hlength := congrArg List.length hlist
    rw [List.length_replicate] at hlength
    exact absurd hlength (by simp; omega)
  have hnul : hasNul (repeated n c) = false := by
    rw [hasNul, repeated_toList, List.any_eq_false]
    intro d hd
    rw [List.eq_of_mem_replicate hd, beq_iff_eq]
    exact hc
  rw [messageTextInvalid, hempty, hnul, len_repeated, Bool.false_or, Bool.or_false,
    decide_eq_false_iff_not]
  omega

theorem blank_repeated {n : Nat} {c : Char} (hpos : 0 < n) (hc : isWhitespace c = false) :
    blank (repeated n c) = false := by
  have hkept : ∀ m, List.dropWhile isWhitespace (List.replicate m c) = List.replicate m c := by
    intro m
    cases m with
    | zero => rfl
    | succ m => rw [List.replicate_succ, List.dropWhile_cons, hc, if_neg Bool.false_ne_true]
  rw [blank, repeated_toList, trimChars, hkept, List.reverse_replicate, hkept, List.reverse_replicate,
    List.isEmpty_eq_false_iff]
  intro hnil
  have hzero : n = 0 := by simpa using hnil
  omega

/-! ## Records -/

/-- A record is as large as without its messages, and each message and comma. -/
theorem encodedBytes_messages (c : PersistedConversation) :
    c.encodedBytes = { c with messages := [] }.encodedBytes +
      (c.messages.map Json.messageBytes).sum + (c.messages.length - 1) := by
  simp only [PersistedConversation.encodedBytes, Json.groupBytes, Json.memberBytes, List.sum_cons,
    List.sum_nil, List.length_map, List.length_cons, List.length_nil, List.map_nil]
  omega

/-- A message is as large as with an empty text, and the characters of its text. -/
theorem messageBytes_text (message : PersistedConversationMessage) :
    Json.messageBytes message =
      Json.messageBytes { message with text := "" } + (Json.stringBytes message.text - 2) := by
  have hempty : Json.stringBytes "" = 2 := rfl
  have htwo : 2 ≤ Json.stringBytes message.text := Nat.le_add_right 2 _
  simp only [Json.messageBytes, Json.groupBytes, Json.memberBytes, List.sum_cons, List.sum_nil,
    List.length_cons, List.length_nil, hempty]
  omega

/-- Messages are as large as with empty texts, and the characters of their texts. -/
theorem messagesBytes_texts (messages : List PersistedConversationMessage) :
    (messages.map Json.messageBytes).sum =
      ((messages.map (fun message => { message with text := "" })).map Json.messageBytes).sum +
        (messages.map (fun message => Json.stringBytes message.text - 2)).sum := by
  induction messages with
  | nil => rfl
  | cons message rest ih =>
    simp only [List.map_cons, List.sum_cons]
    rw [messageBytes_text message, ih]
    omega

end VibeCoder
