/-
  The room a turn makes sure of before it starts (`ensure_conversation_model_turn_capacity`,
  `ensure_conversation_agent_action_capacity`).

  Both checks reserve the prompt and the longest answer there can be.  `capacity_suffices` says that
  this is enough for the two records the turn is going to write:

    * **asked** — the prompt appended and the marker set, which is written before inference;
    * **answered** — the marker cleared and the answer appended, which is written after it.

  A record whose session is still being created passes the checks as well, but cannot take a turn
  (`pendingCreation_refuses`); both turns refuse it before they check the room
  (`runnable_conversation`).  The store's own limit on the encoded record is not looked at here.
-/
import VibeCoder.Core.PendingTurn

namespace VibeCoder.TurnCapacity

open PersistedConversation

/-- A text that one of the two turns has validated and is about to append. -/
inductive Validated (text : String) : Prop where
  | model (model : ModelRef) (response : GatewayChatResponse)
      (h : validateConversationModelResponse model response = .ok ()) (htext : response.text = text)
  | agent (turn : TurnResult) (observation : AgentActionObservation) (counts : ToolCounts)
      (h : validateAgentFileToolTurn turn observation = .ok counts) (htext : turn.text = text)

/-- The record a turn writes before inference, under whatever revision the store gave it. -/
def committed (asked : PersistedConversation) (revision : Nat) : PersistedConversation :=
  { asked with turnPending := true, revision := revision }

/-- `PersistedConversation::pending_creation`. -/
def pendingCreation (id : ConversationId) (project : ProjectId) : PersistedConversation where
  schema := conversationStateSchemaV1
  revision := 0
  conversationId := id
  projectId := project
  sessionCreationPending := true
  agentSession := none
  turnPending := false
  title := none
  messages := []

/-! ## What the turns let through -/

theorem not_blank_nonempty {text : String} (h : blank text = false) : text.isEmpty = false := by
  cases hempty : text.isEmpty with
  | false => rfl
  | true =>
    rw [String.isEmpty_iff.mp hempty] at h
    exact absurd h (by decide)

/-- The check of an answer is the check of a message, and more. -/
theorem Validated.message {text : String} (h : Validated text) : messageTextInvalid text = false := by
  cases h with
  | model model response h htext =>
    subst htext
    rw [validateConversationModelResponse] at h
    by_contra hbad
    rw [Bool.not_eq_false] at hbad
    -- whichever of the three checks is the first to fail, the result is an error
    simp only [hbad, bind, Except.bind, throw, throwThe, MonadExceptOf.throw, pure,
      Except.pure, if_true] at h
    split at h
    · cases h
    · split at h
      · cases h
      · cases h
  | agent turn observation counts h htext =>
    subst htext
    rw [validateAgentFileToolTurn] at h
    split at h
    · cases h
    split at h
    · cases h
    rename_i hvalid
    rw [Bool.not_eq_true, Bool.or_eq_false_iff, Bool.or_eq_false_iff] at hvalid
    obtain ⟨⟨hblank, hlong⟩, hnul⟩ := hvalid
    rw [messageTextInvalid, not_blank_nonempty hblank, hlong, hnul]
    rfl

/-- The two checks are one test under two pairs of messages. -/
theorem room_of_checks {c : PersistedConversation} {prompt : String}
    (h : ensureConversationModelTurnCapacity c prompt = .ok () ∨
      ensureConversationAgentActionCapacity c prompt = .ok ()) :
    c.messages.length + 2 ≤ maxConversationMessages ∧
      textBytes c.messages + len prompt + maxConversationMessageBytes ≤
        maxConversationTextBytes := by
  have hroom : ∃ countCode textCode, roomForTurn c prompt countCode textCode = .ok () := by
    rcases h with h | h
    · exact ⟨_, _, h⟩
    · exact ⟨_, _, h⟩
  obtain ⟨countCode, textCode, h⟩ := hroom
  rw [roomForTurn] at h
  split at h
  · cases h
  rename_i hcount
  split at h
  · cases h
  rename_i hbytes
  have hmax : maxConversationMessages = 4096 := rfl
  exact ⟨by omega, Nat.not_lt.mp hbytes⟩

theorem len_le_of_message {text : String} (h : messageTextInvalid text = false) :
    len text ≤ maxConversationMessageBytes := by
  rw [messageTextInvalid, Bool.or_eq_false_iff, Bool.or_eq_false_iff,
    decide_eq_false_iff_not, Nat.not_lt] at h
  exact h.1.2

/-! ## The two records -/

/-- A pending record is valid when its last message is the user's. -/
theorem validate_pending {c : PersistedConversation} (hheader : c.validateHeader = .ok ())
    (hcount : c.messages.length ≤ maxConversationMessages)
    (hmessages : validateMessages 0 0 c.messages = .ok ()) (hlast : c.lastRole = some .user) :
    c.validate = .ok () := by
  simp [validate, hheader, hmessages, hlast, Nat.not_lt.mpr hcount, bind, Except.bind, pure,
    Except.pure]

/-- The prompt appended to a valid record, with the marker set, is a valid record. -/
theorem validate_asked {c asked : PersistedConversation} {prompt : String}
    (h : c.validate = .ok ()) (hcreated : c.sessionCreationPending = false)
    (hasked : c.appendMessage .user prompt = .ok asked) (revision : Nat) :
    (committed asked revision).validate = .ok () := by
  obtain ⟨hheader, -, hmessages, -⟩ := validate_ok h
  obtain ⟨htext, hroom, hbytes, rfl⟩ := appendMessage_ok hasked
  refine validate_pending ?_ ?_ ?_ ?_
  · exact validateHeader_settled hheader hcreated true _
  · show (c.messages ++ [_]).length ≤ maxConversationMessages
    rw [List.length_append, List.length_singleton]
    exact hroom
  · refine validateMessages_append _ _ 0 0 hmessages ?_ htext ?_
    · simp
    · rw [Nat.zero_add]
      exact hbytes
  · simp [committed, lastRole]

/-- **The capacity checks are sufficient.**  Once either has passed, the prompt can be appended, the
    pending record is valid, and whatever answer the turn has validated can be appended to it and
    leaves a valid record. -/
theorem capacity_suffices {c : PersistedConversation} {prompt : String}
    (hvalid : c.validate = .ok ()) (hcreated : c.sessionCreationPending = false)
    (hprompt : validateConversationModelPrompt prompt = .ok ())
    (hroom : ensureConversationModelTurnCapacity c prompt = .ok () ∨
      ensureConversationAgentActionCapacity c prompt = .ok ()) :
    ∃ asked, c.appendMessage .user prompt = .ok asked ∧
      ∀ revision, (committed asked revision).validate = .ok () ∧
        ∀ text, Validated text →
          ∃ answered,
            ((committed asked revision).withPending false).appendMessage .assistant text =
              .ok answered ∧
            answered.validate = .ok () := by
  obtain ⟨hcount, hbytes⟩ := room_of_checks hroom
  have hmessage := prompt_valid hprompt
  have hasked := appendMessage_eq (c := c) .user hmessage (by omega) (by omega)
  refine ⟨_, hasked, fun revision => ?_⟩
  have hpending := validate_asked hvalid hcreated hasked revision
  refine ⟨hpending, fun text htext => ?_⟩
  have hanswer := htext.message
  have hfits := len_le_of_message hanswer
  -- one message more is there by now, and the prompt's bytes
  have hanswered := appendMessage_eq
    (c := (committed { c with messages := c.messages ++ [⟨c.messages.length, .user, prompt⟩] }
      revision).withPending false) .assistant hanswer
    (by
      show (c.messages ++ [_]).length < maxConversationMessages
      rw [List.length_append, List.length_singleton]
      omega)
    (by
      show textBytes (c.messages ++ [_]) + len text ≤ maxConversationTextBytes
      simp only [textBytes, List.map_append, List.map_cons, List.map_nil, List.sum_append,
        List.sum_cons, List.sum_nil] at hbytes ⊢
      omega)
  exact ⟨_, hanswered, validate_answered hpending hcreated hanswered⟩

theorem capacity_suffices_empty :
    ∃ asked, (emptyConversation ⟨0⟩ ⟨1⟩ "session_1").appendMessage .user "hi" = .ok asked ∧
      ∀ revision, (committed asked revision).validate = .ok () ∧
        ∀ text, Validated text →
          ∃ answered,
            ((committed asked revision).withPending false).appendMessage .assistant text =
              .ok answered ∧
            answered.validate = .ok () :=
  capacity_suffices (by decide) (by decide) (by decide) (.inl (by decide))

/-- A record whose session is still being created is valid and has room for a turn, but not with a
    message in it. -/
theorem pendingCreation_refuses :
    let c := pendingCreation ⟨0⟩ ⟨1⟩
    c.validate = .ok () ∧ validateConversationModelPrompt "hi" = .ok () ∧
      ensureConversationModelTurnCapacity c "hi" = .ok () ∧
      ensureConversationAgentActionCapacity c "hi" = .ok () ∧
      ∃ asked, c.appendMessage .user "hi" = .ok asked ∧
        ∀ revision, (committed asked revision).validate =
          .error (persistenceError "conversation_creation_pending_payload_invalid") := by
  refine ⟨by decide, by decide, by decide, by decide, ?_⟩
  have hprompt : messageTextInvalid "hi" = false := by decide
  have hasked := appendMessage_eq (c := pendingCreation ⟨0⟩ ⟨1⟩) .user hprompt (by decide)
    (by decide)
  exact ⟨_, hasked, fun revision => rfl⟩

end VibeCoder.TurnCapacity
