/-
  What a model turn sends of a conversation (`build_gateway_conversation_context`).

  The messages are taken from the latest back, as long as their number, the size of each and the
  size of all stay within the limits, and then one leading answer is dropped.

  1. **The scan** — `takeContext_scan`: it takes the longest end of the conversation that the
     gateway can be sent (`Sendable`).
  2. **The roles** — `Prompted`: every answer comes right after a prompt.  This is what makes
     dropping one message enough.
  3. **The selection** — `buildGatewayConversationContext_prompted`: the longest sendable end of the
     conversation that starts and ends with the user.
-/
import Mathlib.Data.List.Chain
import VibeCoder.Contracts

namespace VibeCoder

/-! ## What can be sent -/

/-- A stored message as it is sent. -/
def PersistedConversationMessage.chat (message : PersistedConversationMessage) :
    GatewayChatMessage :=
  { role := chatRole message.role, content := message.text }

/-- Messages within the limits of one request: their number, the size of each, the size of all. -/
structure Sendable (messages : List PersistedConversationMessage) : Prop where
  few : messages.length ≤ maxConversationModelMessages
  short : ∀ message ∈ messages, len message.text ≤ maxConversationModelMessageBytes
  small : textBytes messages ≤ maxConversationModelContextBytes

@[simp] theorem textBytes_nil : textBytes [] = 0 := rfl

@[simp] theorem textBytes_cons (message : PersistedConversationMessage)
    (messages : List PersistedConversationMessage) :
    textBytes (message :: messages) = len message.text + textBytes messages := by
  simp [textBytes]

theorem textBytes_reverse (messages : List PersistedConversationMessage) :
    textBytes messages.reverse = textBytes messages := by
  rw [textBytes, textBytes, List.map_reverse, List.sum_reverse]

theorem Sendable.reverse {messages : List PersistedConversationMessage} (h : Sendable messages) :
    Sendable messages.reverse where
  few := by
    rw [List.length_reverse]
    exact h.few
  short := fun message hmem => h.short message (List.mem_reverse.mp hmem)
  small := by
    rw [textBytes_reverse]
    exact h.small

theorem Sendable.tail {message : PersistedConversationMessage}
    {messages : List PersistedConversationMessage} (h : Sendable (message :: messages)) :
    Sendable messages where
  few := Nat.le_of_succ_le h.few
  short := fun other hmem => h.short other (List.mem_cons_of_mem _ hmem)
  small := by
    have hsmall := h.small
    rw [textBytes_cons] at hsmall
    omega

/-! ## The scan -/

/-- There is still room for these messages when `count` of them, of `total` bytes, are taken. -/
structure Room (count total : Nat) (messages : List PersistedConversationMessage) : Prop where
  few : count + messages.length ≤ maxConversationModelMessages
  short : ∀ message ∈ messages, len message.text ≤ maxConversationModelMessageBytes
  small : total + textBytes messages ≤ maxConversationModelContextBytes

theorem room_cons {count total : Nat} {message : PersistedConversationMessage}
    {messages : List PersistedConversationMessage} :
    Room count total (message :: messages) ↔
      len message.text ≤ maxConversationModelMessageBytes ∧
        Room (count + 1) (total + len message.text) messages := by
  constructor
  · intro h
    have hfew := h.few
    have hsmall := h.small
    rw [List.length_cons] at hfew
    rw [textBytes_cons] at hsmall
    exact ⟨h.short message List.mem_cons_self, by omega,
      fun other hmem => h.short other (List.mem_cons_of_mem _ hmem), by omega⟩
  · rintro ⟨hshort, h⟩
    have hfew := h.few
    have hsmall := h.small
    refine ⟨by rw [List.length_cons]; omega, fun other hmem => ?_, by rw [textBytes_cons]; omega⟩
    rcases List.mem_cons.mp hmem with rfl | hmem
    · exact hshort
    · exact h.short other hmem

theorem room_start {messages : List PersistedConversationMessage} :
    Room 0 0 messages ↔ Sendable messages := by
  constructor
  · intro h
    exact ⟨by simpa using h.few, h.short, by simpa using h.small⟩
  · intro h
    exact ⟨by simpa using h.few, h.short, by simpa using h.small⟩

/-- **The scan.**  It takes a beginning of its list for which there is room, in reverse order and
    with its size, and no longer beginning fits. -/
theorem takeContext_scan (latest : List PersistedConversationMessage) :
    ∀ count total, Room count total [] → ∃ taken, taken <+: latest ∧ Room count total taken ∧
      takeContext count total latest =
        ((taken.map PersistedConversationMessage.chat).reverse, total + textBytes taken) ∧
      ∀ other, other <+: latest → Room count total other → other.length ≤ taken.length := by
  induction latest with
  | nil =>
    intro count total hroom
    refine ⟨[], List.nil_prefix, hroom, by simp [takeContext], fun other hother _ => ?_⟩
    rw [List.prefix_nil.mp hother]
  | cons message older ih =>
    intro count total hroom
    by_cases hmore : Room count total [message]
    · -- the message is taken, and the scan goes on with what is left of the room
      obtain ⟨hshort, hrest⟩ := room_cons.mp hmore
      obtain ⟨taken, hprefix, htaken, heq, hmax⟩ := ih _ _ hrest
      refine ⟨message :: taken, List.prefix_cons_inj message |>.mpr hprefix,
        room_cons.mpr ⟨hshort, htaken⟩, ?_, fun other hother hfits => ?_⟩
      · have hfew := hmore.few
        have hsmall := hmore.small
        rw [List.length_singleton] at hfew
        simp only [textBytes_cons, textBytes_nil, Nat.add_zero] at hsmall
        rw [takeContext, if_neg (by omega), if_neg (by omega), heq]
        simp only [List.map_cons, List.reverse_cons, textBytes_cons, Nat.add_assoc]
        rfl
      · cases other with
        | nil => exact Nat.zero_le _
        | cons first rest =>
          obtain ⟨rfl, hrestPrefix⟩ := List.cons_prefix_cons.mp hother
          exact Nat.succ_le_succ (hmax rest hrestPrefix (room_cons.mp hfits).2)
    · -- the scan stops here: nothing that starts with this message fits
      refine ⟨[], List.nil_prefix, hroom, ?_, fun other hother hfits => ?_⟩
      · rw [takeContext]
        split
        · simp
        · rename_i hcount
          split
          · simp
          · rename_i hbytes
            have hfew := hroom.few
            rw [List.length_nil] at hfew
            refine absurd ⟨?_, fun other hmem => ?_, ?_⟩ hmore
            · rw [List.length_singleton]
              omega
            · rw [List.mem_singleton.mp hmem]
              omega
            · simp only [textBytes_cons, textBytes_nil]
              omega
      · cases other with
        | nil => exact Nat.le_refl _
        | cons first rest =>
          obtain ⟨rfl, -⟩ := List.cons_prefix_cons.mp hother
          have hfirst := room_cons.mp hfits
          have hrest := hfirst.2
          refine absurd (room_cons.mpr ⟨hfirst.1, ?_, fun _ hmem => absurd hmem List.not_mem_nil, ?_⟩) hmore
          · exact Nat.le_trans (Nat.le_add_right _ _) hrest.few
          · exact Nat.le_trans (Nat.add_le_add_left (Nat.zero_le _) _) hrest.small

/-- The scan of a whole conversation takes its longest sendable end. -/
theorem takeContext_conversation (messages : List PersistedConversationMessage) :
    ∃ taken, taken <:+ messages ∧ Sendable taken ∧
      takeContext 0 0 messages.reverse =
        (taken.map PersistedConversationMessage.chat, textBytes taken) ∧
      ∀ other, other <:+ messages → Sendable other → other.length ≤ taken.length := by
  have hstart : Room 0 0 [] := ⟨Nat.zero_le _, fun _ hmem => absurd hmem List.not_mem_nil, Nat.zero_le _⟩
  obtain ⟨taken, hprefix, hroom, heq, hmax⟩ := takeContext_scan messages.reverse 0 0 hstart
  refine ⟨taken.reverse, ?_, (room_start.mp hroom).reverse, ?_, fun other hother hsend => ?_⟩
  · rw [← List.reverse_prefix, List.reverse_reverse]
    exact hprefix
  · rw [heq, List.map_reverse, textBytes_reverse, Nat.zero_add]
  · have hle := hmax other.reverse (List.reverse_prefix.mpr hother) (room_start.mpr hsend.reverse)
    rw [List.length_reverse] at hle ⊢
    exact hle

/-! ## The roles -/

/-- Every answer comes right after a prompt, the first message included. -/
def Prompted (roles : List ConversationRole) : Prop :=
  List.IsChain (fun before role => before = .user ∨ role = .user) (.assistant :: roles)

/-- The roles of a conversation. -/
def PersistedConversation.roles (c : PersistedConversation) : List ConversationRole :=
  c.messages.map PersistedConversationMessage.role

theorem prompted_nil : Prompted [] := List.IsChain.singleton _

/-- A prompt can follow anything. -/
theorem Prompted.ask {roles : List ConversationRole} (h : Prompted roles) :
    Prompted (roles ++ [.user]) := by
  rw [Prompted, ← List.cons_append, List.isChain_append]
  refine ⟨h, List.IsChain.singleton _, fun before _ role hrole => ?_⟩
  rw [List.head?_singleton, Option.mem_some_iff] at hrole
  exact Or.inr hrole.symm

/-- An answer can follow a prompt. -/
theorem Prompted.answer {roles : List ConversationRole} (h : Prompted roles)
    (hlast : roles.getLast? = some .user) : Prompted (roles ++ [.assistant]) := by
  rw [Prompted, ← List.cons_append, List.isChain_append]
  refine ⟨h, List.IsChain.singleton _, fun before hbefore role _ => Or.inl ?_⟩
  rw [List.getLast?_cons, hlast, Option.getD_some, Option.mem_some_iff] at hbefore
  exact hbefore.symm

/-- In a prompted conversation no two answers stand together. -/
theorem Prompted.next {older rest : List ConversationRole} {role : ConversationRole}
    (h : Prompted (older ++ .assistant :: role :: rest)) : role = .user := by
  rw [Prompted, ← List.cons_append, List.isChain_append_cons_cons] at h
  rcases h.2.1 with hno | huser
  · cases hno
  · exact huser

/-! ## The selection -/

/-- An end of the conversation that starts and ends with the user and can be sent. -/
structure Exchange (c : PersistedConversation) (messages : List PersistedConversationMessage) :
    Prop where
  ending : messages <:+ c.messages
  first : messages.head?.map PersistedConversationMessage.role = some .user
  last : messages.getLast?.map PersistedConversationMessage.role = some .user
  sendable : Sendable messages

/-- The longest one. -/
def LongestExchange (c : PersistedConversation) (messages : List PersistedConversationMessage) :
    Prop :=
  Exchange c messages ∧ ∀ other, Exchange c other → other.length ≤ messages.length

theorem chatRole_assistant {role : ConversationRole} :
    chatRole role = .assistant ↔ role = .assistant := by
  cases role with
  | user => exact ⟨(fun h => by cases h), (fun h => by cases h)⟩
  | assistant => exact ⟨fun _ => rfl, fun _ => rfl⟩

theorem last_chat (messages : List PersistedConversationMessage) :
    (messages.map PersistedConversationMessage.chat).getLast?.map GatewayChatMessage.role =
      (messages.getLast?.map PersistedConversationMessage.role).map chatRole := by
  rw [List.getLast?_map, Option.map_map, Option.map_map]
  rfl

/-- Ends of one list that are not empty have its last element. -/
theorem getLast?_ending {α : Type*} {messages end_ : List α} (h : end_ <:+ messages)
    (hne : end_ ≠ []) : end_.getLast? = messages.getLast? := by
  obtain ⟨older, rfl⟩ := h
  rw [List.getLast?_append_of_ne_nil older hne]

/-- A leading prompt stays, … -/
theorem dropLeadingAnswer_user {first : PersistedConversationMessage} (h : first.role = .user)
    (rest : List PersistedConversationMessage) :
    dropLeadingAnswer ((first :: rest).map PersistedConversationMessage.chat,
        textBytes (first :: rest)) =
      ((first :: rest).map PersistedConversationMessage.chat, textBytes (first :: rest)) := by
  rw [dropLeadingAnswer, List.map_cons]
  refine if_neg (fun hanswer => ?_)
  rw [PersistedConversationMessage.chat, chatRole_assistant, h] at hanswer
  cases hanswer

/-- … a leading answer goes, with its bytes. -/
theorem dropLeadingAnswer_assistant {first : PersistedConversationMessage}
    (h : first.role = .assistant) (rest : List PersistedConversationMessage) :
    dropLeadingAnswer ((first :: rest).map PersistedConversationMessage.chat,
        textBytes (first :: rest)) =
      (rest.map PersistedConversationMessage.chat, textBytes rest) := by
  rw [dropLeadingAnswer, List.map_cons]
  refine (if_pos (chatRole_assistant.mpr h)).trans ?_
  rw [textBytes_cons, PersistedConversationMessage.chat, Nat.add_sub_cancel_left]

/-- The context once the scan has taken something. -/
theorem buildGatewayConversationContext_taken {c : PersistedConversation}
    {first : PersistedConversationMessage} {rest : List PersistedConversationMessage}
    (h : takeContext 0 0 c.messages.reverse =
      ((first :: rest).map PersistedConversationMessage.chat, textBytes (first :: rest))) :
    buildGatewayConversationContext c =
      let context := dropLeadingAnswer
        ((first :: rest).map PersistedConversationMessage.chat, textBytes (first :: rest))
      if context.1.getLast?.map GatewayChatMessage.role = some .user then .ok context
      else .error (persistenceError "conversation_model_context_latest_user_missing") := by
  rw [buildGatewayConversationContext, h]
  rfl

/-- Whatever the roles are, a context is an end of the conversation that can be sent and ends with
    the user. -/
theorem buildGatewayConversationContext_ok {c : PersistedConversation}
    {context : List GatewayChatMessage × Nat} (h : buildGatewayConversationContext c = .ok context) :
    ∃ messages, messages <:+ c.messages ∧ Sendable messages ∧
      messages.getLast?.map PersistedConversationMessage.role = some .user ∧
      context = (messages.map PersistedConversationMessage.chat, textBytes messages) := by
  obtain ⟨taken, hending, hsend, hscan, -⟩ := takeContext_conversation c.messages
  -- an end whose last message went out as the user's
  have hlast : ∀ messages : List PersistedConversationMessage,
      (messages.map PersistedConversationMessage.chat).getLast?.map GatewayChatMessage.role =
        some .user → messages.getLast?.map PersistedConversationMessage.role = some .user := by
    intro messages hchat
    rw [last_chat] at hchat
    obtain ⟨role, hrole, huser⟩ := Option.map_eq_some_iff.mp hchat
    cases role with
    | user => exact hrole
    | assistant => cases huser
  cases taken with
  | nil =>
    rw [buildGatewayConversationContext, hscan] at h
    cases h
  | cons first rest =>
    rw [buildGatewayConversationContext_taken hscan] at h
    cases hrole : first.role with
    | user =>
      rw [dropLeadingAnswer_user hrole] at h
      dsimp only at h
      split at h
      · rename_i huser
        cases h
        exact ⟨first :: rest, hending, hsend, hlast _ huser, rfl⟩
      · cases h
    | assistant =>
      rw [dropLeadingAnswer_assistant hrole] at h
      dsimp only at h
      split at h
      · rename_i huser
        cases h
        exact ⟨rest, (List.suffix_cons first rest).trans hending, hsend.tail, hlast _ huser, rfl⟩
      · cases h

/-- **The selection.**  In a prompted conversation whose last message is a prompt that can be sent,
    the context is the longest sendable end that starts and ends with the user, with its size. -/
theorem buildGatewayConversationContext_prompted {c : PersistedConversation}
    (hroles : Prompted c.roles) {prompt : PersistedConversationMessage}
    (hlast : c.messages.getLast? = some prompt) (huser : prompt.role = .user)
    (hshort : len prompt.text ≤ maxConversationModelMessageBytes) :
    ∃ messages, LongestExchange c messages ∧
      buildGatewayConversationContext c =
        .ok (messages.map PersistedConversationMessage.chat, textBytes messages) := by
  obtain ⟨taken, hending, hsend, hscan, hmax⟩ := takeContext_conversation c.messages
  -- the prompt alone can be sent, so something is taken
  have hprompt : Sendable [prompt] := by
    have hsize : maxConversationModelMessageBytes ≤ maxConversationModelContextBytes := by decide
    refine ⟨Nat.le_of_ble_eq_true rfl, fun message hmem => ?_, by simp only [textBytes_cons, textBytes_nil]; omega⟩
    rw [List.mem_singleton.mp hmem]
    exact hshort
  have hsingle : [prompt] <:+ c.messages := by
    obtain ⟨older, hmessages⟩ := List.getLast?_eq_some_iff.mp hlast
    exact ⟨older, hmessages.symm⟩
  have hlong : 1 ≤ taken.length := hmax [prompt] hsingle hprompt
  rcases taken with _ | ⟨first, rest⟩
  · cases hlong
  have hend : (first :: rest).getLast?.map PersistedConversationMessage.role = some .user := by
    rw [getLast?_ending hending (List.cons_ne_nil _ _), hlast, Option.map_some, huser]
  have hbuild := buildGatewayConversationContext_taken hscan
  cases hrole : first.role with
  | user =>
    refine ⟨first :: rest, ⟨⟨hending, by simp [hrole], hend, hsend⟩, fun other hother => ?_⟩, ?_⟩
    · exact hmax other hother.ending hother.sendable
    · rw [hbuild, dropLeadingAnswer_user hrole]
      exact if_pos (by rw [last_chat, hend]; rfl)
  | assistant =>
    -- the dropped answer is not the last message, and the next one is a prompt
    obtain ⟨older, hmessages⟩ := hending
    rcases rest with _ | ⟨second, rest⟩
    · rw [List.getLast?_singleton, Option.map_some, hrole] at hend
      cases hend
    have hsecond : second.role = .user := by
      have hroles' := hroles
      rw [PersistedConversation.roles, ← hmessages, List.map_append, List.map_cons, List.map_cons,
        hrole] at hroles'
      exact hroles'.next
    have hrest : second :: rest <:+ c.messages :=
      ⟨older ++ [first], by rw [List.append_assoc]; exact hmessages⟩
    have hrestEnd : (second :: rest).getLast?.map PersistedConversationMessage.role =
        some .user := by
      rw [List.getLast?_cons_cons] at hend
      exact hend
    refine ⟨second :: rest, ⟨⟨hrest, by simp [hsecond], hrestEnd, hsend.tail⟩,
      fun other hother => ?_⟩, ?_⟩
    · have hle := hmax other hother.ending hother.sendable
      by_contra hlonger
      -- as long as what was taken: then it is the same end, which starts with an answer
      have hlength : other.length = (first :: second :: rest).length := by
        rw [List.length_cons] at hle ⊢
        omega
      have hsame : other = first :: second :: rest := by
        refine (List.suffix_of_suffix_length_le hother.ending ⟨older, hmessages⟩ ?_).eq_of_length
          hlength
        exact Nat.le_of_eq hlength
      have hfirst := hother.first
      rw [hsame, List.head?_cons, Option.map_some, hrole] at hfirst
      cases hfirst
    · rw [hbuild, dropLeadingAnswer_assistant hrole]
      exact if_pos (by rw [last_chat, hrestEnd]; rfl)

end VibeCoder
