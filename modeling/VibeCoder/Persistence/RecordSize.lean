/-
  Which conversations the store takes: the limits of a record are on its texts, and that of the
  store is on its JSON.

  1. **Size** — the JSON is as large as with empty texts, and as the characters of the texts when
     they are escaped (`encodedBytes_texts`).

  2. **The law** (`conversation_saved_iff`) — a record that its own checks accept is saved and loads
     back exactly when these two together are within the limit of the store.

  3. **The defect** — eleven texts of control characters are far within the limits of the record.
-/
import VibeCoder.Core.EncodedSize
import VibeCoder.Persistence.LastSaved

namespace VibeCoder.Persistence

/-! ## Size -/

/-- The record with empty texts. -/
def emptied (record : PersistedConversation) : PersistedConversation :=
  { record with messages := record.messages.map (fun message => { message with text := "" }) }

/-- The characters of the texts, as they stand between the quotes in JSON. -/
def escapedTextBytes (messages : List PersistedConversationMessage) : Nat :=
  (messages.map (fun message => Json.stringBytes message.text - 2)).sum

/-- **The JSON of a record**: that of the record with empty texts, and the escaped texts. -/
theorem encodedBytes_texts (record : PersistedConversation) :
    record.encodedBytes = (emptied record).encodedBytes + escapedTextBytes record.messages := by
  have hbare : { emptied record with messages := [] } = { record with messages := [] } := rfl
  have hmessages : (emptied record).messages =
      record.messages.map (fun message => { message with text := "" }) := rfl
  rw [encodedBytes_messages record, encodedBytes_messages (emptied record), hbare, hmessages,
    messagesBytes_texts, List.length_map, escapedTextBytes]
  omega

/-! ## The law -/

section Save

variable {codec : Codec PersistedConversation} {d : Directory} {record : PersistedConversation}

/-- A record that is too large is refused before anything is looked at. -/
theorem saveRecord_too_large (fault : Fault) (uuid : BitVec 128)
    (hsize : conversationKind.maxBytes < (codec.encode record).length) :
    saveRecord conversationKind codec fault uuid d record =
      (.error (persistenceError "conversation_too_large"), d) := by
  have hstart : saveStart conversationKind codec fault d record =
      .error (persistenceError "conversation_too_large") := by
    unfold saveStart
    rw [if_pos hsize]
    rfl
  unfold saveRecord
  rw [hstart]

/-- A valid record that fits is saved and loads back. -/
theorem saveRecord_fits (uuid : BitVec 128) (hvalid : record.validate = .ok ())
    (hjson : codec.decode (codec.encode record) = some record)
    (hfits : (codec.encode record).length ≤ conversationKind.maxBytes)
    (hfree : entryOf d (conversationKind.temp uuid) = none)
    (htarget : ∀ entry,
      entryOf d (conversationKind.target (conversationKind.key record)) = some entry →
        verifyPrivateRegularStat entry.stat "project_state_target_invalid" = .ok ()) :
    (saveRecord conversationKind codec none uuid d record).1 = .ok () ∧
      loadConversation codec (saveRecord conversationKind codec none uuid d record).2
        (conversationKind.key record) = .ok (some record) := by
  have hstart : saveStart conversationKind codec none d record = .ok () :=
    (saveStart_iff (.inl rfl)).mpr ⟨hfits, htarget⟩
  have htemp : ¬ OnTemp none := by
    rintro (h | ⟨_, h⟩ | h | h) <;> cases h
  have hsave := saveRecord_reached hstart hfree (by decide) htemp
  rw [hsave]
  exact ⟨rfl, loadRecord_place hfits hjson hvalid⟩

end Save

/-- **Which records are kept.**  On a directory where the record can be placed, with the JSON of
    `serde_json`, a record that its own checks accept is saved and loads back unchanged exactly when
    its texts, escaped, and the rest of the record take no more than the limit of the store. -/
theorem conversation_saved_iff (codec : Codec PersistedConversation) (d : Directory)
    (uuid : BitVec 128) (record : PersistedConversation) (hvalid : record.validate = .ok ())
    (hjson : codec.decode (codec.encode record) = some record)
    (hencoded : (codec.encode record).length = record.encodedBytes)
    (hfree : entryOf d (conversationKind.temp uuid) = none)
    (htarget : ∀ entry,
      entryOf d (conversationKind.target (conversationKind.key record)) = some entry →
        verifyPrivateRegularStat entry.stat "project_state_target_invalid" = .ok ()) :
    let saved := saveRecord conversationKind codec none uuid d record
    (saved.1 = .ok () ∧
        loadConversation codec saved.2 (conversationKind.key record) = .ok (some record)) ↔
      escapedTextBytes record.messages + (emptied record).encodedBytes ≤
        maxPersistedConversationBytes := by
  intro saved
  have hbytes : (codec.encode record).length =
      escapedTextBytes record.messages + (emptied record).encodedBytes := by
    rw [hencoded, encodedBytes_texts, Nat.add_comm]
  constructor
  · rintro ⟨hsaved, -⟩
    by_contra hlarge
    have hsize : conversationKind.maxBytes < (codec.encode record).length := by
      rw [hbytes]
      exact Nat.lt_of_not_le hlarge
    have hrefused : saved = _ := saveRecord_too_large none uuid hsize
    rw [hrefused] at hsaved
    cases hsaved
  · intro hfits
    refine saveRecord_fits uuid hvalid hjson ?_ hfree htarget
    rw [hbytes]
    exact hfits

/-- A new conversation in an empty store. -/
theorem conversation_saved_iff_new :
    let saved := saveRecord conversationKind newConversationCodec none 7 [] (newConversation 0)
    (saved.1 = .ok () ∧ loadConversation newConversationCodec saved.2
        (conversationKind.key (newConversation 0)) = .ok (some (newConversation 0))) ↔
      escapedTextBytes (newConversation 0).messages + (emptied (newConversation 0)).encodedBytes ≤
        maxPersistedConversationBytes :=
  conversation_saved_iff newConversationCodec [] 7 (newConversation 0) (by decide)
    (by set_option maxRecDepth 20000 in decide) (by set_option maxRecDepth 20000 in decide)
    (by decide) (fun _ h => by cases h)

/-! ## The defect -/

/-- Eleven prompts with the same text. -/
def elevenPrompts (text : String) : PersistedConversation :=
  { newConversation 0 with
    sessionCreationPending := false
    agentSession := some {
      runtimeId := "jcode"
      sessionId := ⟨"session_1"⟩
      preferredModel := none }
    messages := (List.range 11).map (fun n => { sequence := n, role := .user, text := text }) }

/-- The longest text of control characters. -/
def controlText : String := repeated (256 * 1024) (Char.ofNat 1)

theorem len_controlText : len controlText = 256 * 1024 := by
  have hsize : (Char.ofNat 1).utf8Size = 1 := by decide
  rw [controlText, len_repeated, hsize]

theorem controlText_valid : messageTextInvalid controlText = false := by
  have hsize : (Char.ofNat 1).utf8Size = 1 := by decide
  refine messageText_repeated (by decide) ?_ (by decide)
  rw [hsize]
  decide

theorem stringBytes_controlText : Json.stringBytes controlText = 2 + 6 * (256 * 1024) := by
  have hbytes : Json.charBytes (Char.ofNat 1) = 6 := by decide
  rw [controlText, Json.stringBytes_repeated, hbytes]

theorem elevenPrompts_valid {text : String} (hvalid : messageTextInvalid text = false)
    (hlength : len text = 256 * 1024) : (elevenPrompts text).validate = .ok () := by
  have hheader : (elevenPrompts "").validateHeader = .ok () := by decide
  have hsettled : (elevenPrompts text).validateHeader = .ok () :=
    PersistedConversation.validateHeader_settled hheader rfl false (elevenPrompts text).messages
  have hcount : (elevenPrompts text).messages.length ≤ maxConversationMessages := by
    show ((List.range 11).map _).length ≤ _
    rw [List.length_map]
    decide
  refine PersistedConversation.validate_eq hsettled hcount ?_ rfl
  simp only [elevenPrompts, List.range, List.range.loop, List.map_cons, List.map_nil,
    validateMessages, hvalid, hlength, maxConversationTextBytes]
  rfl

theorem elevenPrompts_escaped (text : String) :
    escapedTextBytes (elevenPrompts text).messages = 11 * (Json.stringBytes text - 2) := by
  simp only [escapedTextBytes, elevenPrompts, List.range, List.range.loop, List.map_cons,
    List.map_nil, List.sum_cons, List.sum_nil]
  generalize Json.stringBytes text - 2 = bytes
  omega

/-- Valid texts of under 3 MiB that take more than 16 MiB as JSON: whatever the directory is, the
    record is not saved. -/
theorem control_texts_not_saved :
    (elevenPrompts controlText).validate = .ok () ∧
      ∀ (codec : Codec PersistedConversation) (d : Directory) (uuid : BitVec 128),
        (codec.encode (elevenPrompts controlText)).length =
            (elevenPrompts controlText).encodedBytes →
          saveRecord conversationKind codec none uuid d (elevenPrompts controlText) =
            (.error (persistenceError "conversation_too_large"), d) := by
  refine ⟨elevenPrompts_valid controlText_valid len_controlText, fun codec d uuid hencoded => ?_⟩
  refine saveRecord_too_large none uuid ?_
  have hlarge : conversationKind.maxBytes = 64 * (256 * 1024) := rfl
  rw [hencoded, encodedBytes_texts, elevenPrompts_escaped, stringBytes_controlText, hlarge]
  omega

end VibeCoder.Persistence
