/-
  Two runs of a model turn.

  `wp_calmTurn`: when nothing outside fails and the gateway replies, the prompt is committed and the
  reply accepted, whatever the record it was loaded from.  On a small record this is a lawful turn.
  On one with ten messages of control characters the reply makes the record too large for the store
  (`full_conversation_strands`): every text is far within the limits on texts, but as JSON it takes
  six times as many bytes.
-/
import VibeCoder.Core.EncodedSize
import VibeCoder.Core.ModelContext
import VibeCoder.Core.ModelTurn

namespace VibeCoder.ModelTurn

open Resume

variable {Tree : Type} {digest : Tree → String} {edit : Tree → Tree} {reply : String}
variable {s : Core Tree Unit} {t : Watched Tree} {p : ProjectId} {id : ConversationId}
variable {prompt : String} {before : PersistedConversation}

/-! ## A calm turn -/

/-- Nothing fails, nobody stops the turn, and the gateway replies this. -/
def Calm (reply : String) (edit : Tree → Tree) (w : Outside Tree) : Prop :=
  w = { world := World.calm reply edit, stops := [] }

/-- What a calm turn starts from: a record it can be run on, with room for the prompt. -/
structure Startable (s : Core Tree Unit) (p : ProjectId) (id : ConversationId) (prompt : String)
    (before : PersistedConversation) : Prop where
  gate : s.gate p = none
  loaded : s.conversations.load p id = .ok (some before)
  runnable : ∃ session, runnableConversation attachedConfig (some before) = .ok (before, session)
  room : ensureConversationModelTurnCapacity before prompt = .ok ()
  asked : before.appendMessage .user prompt = .ok (saying before .user prompt)
  valid : ((saying before .user prompt).withPending true).validate = .ok ()
  fits : Fits ((saying before .user prompt).withPending true)
  context : ∃ context, buildGatewayConversationContext { saying before .user prompt with
    turnPending := true, revision := before.revision + 1 } = .ok context

/-- A query that is answered. -/
theorem wp_answered {α : Type} {Q : α → Watched Tree → Prop}
    {E : VibeCoderError → Watched Tree → Prop} {J : Watched Tree → Prop} {q : Query} {v : q.Val}
    {f : q.Val → CoreM α} (hJ : Tolerant J) (hq : Unseen (.query q))
    (hv : ∀ core : Core Tree Unit, core.answer (World.calm reply edit) q = .ok v) (h : J t)
    (hok : ∀ u, J u → Wp (Watching attachedConfig digest (Calm reply edit)) () (f v) Q E u) :
    Wp (Watching attachedConfig digest (Calm reply edit)) () (ask q >>= f) Q E t := by
  refine wp_bind (wp_watch (fun w hw => ?_))
  have hpasses : Passes t (watch attachedConfig digest w (.query q) t).2 := hq.passes w
  have hnext := hJ t _ hpasses h
  cases hw
  have hanswer : (watch attachedConfig digest
      { world := World.calm reply edit, stops := [] } (.query q) t).1 = .ok v :=
    hv (raise t.core [])
  rw [hanswer]
  exact hok _ hnext

/-- The prompt is committed, and the reply accepted. -/
def Replied (reply : String) (t : Watched Tree) : Prop :=
  promptCommitted t.log = true ∧ acceptedReply t.log = some reply

theorem replied_tolerant : Tolerant (@Replied Tree reply) := by
  intro t t' hpasses h
  obtain ⟨hcommitted, hreply⟩ := hpasses.reads
  exact ⟨hcommitted.trans h.1, hreply.trans h.2⟩

/-- A calm opening does not fail. -/
theorem wp_calmOpening (h : Startable s p id prompt before) (hidle : Idle s t) :
    Wp (Watching attachedConfig digest (Calm reply edit)) () (openModelTurn attachedConfig p id prompt)
      (fun c u => Begun s p id prompt before c u) (fun _ _ => False) t := by
  have hio : ∀ w, Calm reply edit w → w.world.ioFault = none := by
    rintro w rfl
    rfl
  obtain ⟨session, hrunnable⟩ := h.runnable
  refine wp_bind (wp_resume ?_)
  refine wp_answered idle_tolerant ⟨rfl, rfl, rfl, rfl⟩ (fun _ => rfl) hidle (fun u hu => ?_)
  refine wp_answered idle_tolerant ⟨rfl, rfl, rfl, rfl⟩ (fun _ => rfl) hu (fun v hv => ?_)
  refine wp_seq trivial (wp_load hio hv) ?_ (fun e _ _ hload => ?_)
  · rintro loaded r - ⟨hidle, hload⟩
    cases hload.symm.trans h.loaded
    refine wp_bind (wp_resume ?_)
    rw [hrunnable]
    refine wp_bind (wp_resume ?_)
    rw [h.room]
    refine wp_bind (wp_resume ?_)
    rw [h.asked]
    refine wp_watch (fun w hw => ?_)
    have hload' : r.core.conversations.load p id = .ok (some before) := by
      rw [hidle.conversations]
      exact h.loaded
    obtain ⟨-, -, hproject, hconversation, -⟩ := ConversationTable.load_some h.loaded
    have hprepared : r.core.conversations.prepareUpdate before.revision
        ((saying before .user prompt).withPending true) =
        ConversationTable.commit ((saying before .user prompt).withPending true) := by
      have hcurrent : r.core.conversations.load before.projectId before.conversationId =
          .ok (some before) := by
        rw [hproject, hconversation]
        exact hload'
      exact ConversationTable.prepareUpdate_eq h.valid hcurrent rfl
    rcases exec_update_cases attachedConfig digest () w.world (raise r.core w.stops) before.revision
      ((saying before .user prompt).withPending true) with
      ⟨e, -, hwhy⟩ | ⟨committed, hupdate, hexec⟩
    · -- no fault, and the record fits
      have hrefused : r.core.conversations.prepareUpdate before.revision
          ((saying before .user prompt).withPending true) = .error e := by
        rw [hio w hw] at hwhy
        exact hwhy.resolve_left (fun hnone => by cases hnone)
      have hlt := h.fits.1
      rw [hprepared, ConversationTable.commit, if_neg (by omega),
        if_neg (Nat.not_lt.mpr h.fits.2)] at hrefused
      cases hrefused
    · rw [watch, hexec]
      have hcreated : before.sessionCreationPending = false := (runnableConversation_ok hrunnable).2.1
      obtain ⟨hcommitted, heq⟩ := committed_of_update hload' hcreated h.asked hupdate
      refine ⟨h.loaded, h.room, h.asked, heq, hcommitted, ?_, fun entry hmem => ?_,
        fun entry hmem => ?_⟩
      · rw [promptCommitted, List.any_append, List.any_cons]
        exact Bool.or_true _
      · rcases List.mem_append.mp hmem with hold | hnew
        · exact (hidle.plain entry hold).chat
        · rw [List.mem_singleton.mp hnew]
          rfl
      · rcases List.mem_append.mp hmem with hold | hnew
        · exact (hidle.plain entry hold).stop
        · rw [List.mem_singleton.mp hnew]
          rfl
  · rw [h.loaded] at hload
    cases hload.2

/-- A calm inference ends with the reply. -/
theorem wp_calmInference {conversation : PersistedConversation} {context}
    (hcontext : buildGatewayConversationContext conversation = .ok context)
    (hreply : messageTextInvalid reply = false) :
    Wp (Watching attachedConfig digest (Calm reply edit)) ()
      (conversationModelInference conversation "model-a" 1)
      (fun inference _ => inference.response.text = reply) (fun _ _ => False) t := by
  have hany : Tolerant (fun _ : Watched Tree => True) := fun _ _ _ _ => trivial
  refine wp_answered hany ⟨rfl, rfl, rfl, rfl⟩ (fun _ => rfl) trivial (fun u _ => ?_)
  refine wp_bind (wp_resume ?_)
  have hprofile : requireDeterministicGatewayProfile (World.calm reply edit).profile = .ok () := by
    show requireDeterministicGatewayProfile (World.calm "" (fun tree : Unit => tree)).profile = _
    decide
  rw [hprofile]
  refine wp_answered hany ⟨rfl, rfl, rfl, rfl⟩ (fun _ => rfl) trivial (fun v _ => ?_)
  refine wp_bind (wp_resume ?_)
  have hmodel : selectExactGatewayModel (World.calm reply edit).models "model-a" =
      .ok calmModel := by
    show selectExactGatewayModel [calmModel] "model-a" = .ok calmModel
    decide
  rw [hmodel]
  refine wp_bind (wp_resume ?_)
  rw [hcontext]
  refine wp_bind (wp_watch (fun w hw => ?_))
  cases hw
  have hvalid : validateConversationModelResponse calmModel
      (World.calm reply edit).response = .ok () := by
    have hid : ("model-a" : String) = calmModel.id := rfl
    simp [validateConversationModelResponse, World.calm, hid, hreply, pure, Except.pure]
  refine wp_bind (wp_resume ?_)
  show Post _ _ (validateConversationModelResponse calmModel (World.calm reply edit).response) _
  rw [hvalid]
  exact wp_pure rfl

/-- **A calm turn** commits its prompt and accepts the reply. -/
theorem wp_calmTurn (h : Startable s p id prompt before)
    (hprompt : validateConversationModelPrompt prompt = .ok ())
    (hreply : messageTextInvalid reply = false) :
    Wp (Watching attachedConfig digest (Calm reply edit)) ()
      (runPersistedModelConversationTurnInner attachedConfig p id "model-a" 1 prompt none)
      (fun _ => Replied reply) (fun _ => Replied reply) { core := s, log := [] } := by
  have hio : ∀ w, Calm reply edit w → w.world.ioFault = none := by
    rintro w rfl
    rfl
  have hmodelId : validateConversationModelId "model-a" = .ok () := by decide
  refine wp_bind (wp_resume ?_)
  rw [hmodelId]
  refine wp_bind (wp_resume ?_)
  rw [hprompt]
  refine wp_bind (wp_resume ?_)
  -- the gate is free
  refine wp_bind (wp_watch (fun w hw => ?_))
  cases hw
  have hacquired : (exec attachedConfig digest () (World.calm reply edit) (.acquire p)
      (raise s [])).1 = .ok () := by
    rw [exec, if_neg]
    rw [show (raise s []).gate p = none from h.gate]
    exact Bool.false_ne_true
  have hidle : Idle s (watch attachedConfig digest
      { world := World.calm reply edit, stops := [] } (.acquire p) { core := s, log := [] }).2 :=
    idle_tolerant _ _ (Unseen.passes ⟨rfl, rfl, rfl, rfl⟩ _)
      ⟨rfl, fun _ hmem => absurd hmem List.not_mem_nil⟩
  show Post _ _ (exec attachedConfig digest () (World.calm reply edit) (.acquire p)
    (raise s [])).1 _
  rw [hacquired]
  have hbody : Wp (Watching attachedConfig digest (Calm reply edit)) ()
      (openModelTurn attachedConfig p id prompt >>= fun conversation =>
        inferenceOrCancel (conversationModelInference conversation "model-a" 1) none >>=
          closeModelTurn conversation)
      (fun _ => Replied reply) (fun _ => Replied reply)
      (watch attachedConfig digest { world := World.calm reply edit, stops := [] } (.acquire p)
        { core := s, log := [] }).2 := by
    refine wp_seq trivial (wp_calmOpening h hidle) ?_ (fun _ _ _ hno => hno.elim)
    rintro c u - hbegun
    have hwaiting : Waiting u.core.conversations u :=
      ⟨rfl, hbegun.logged, hbegun.unsent, hbegun.running⟩
    obtain ⟨context, hcontext⟩ := h.context
    rw [← hbegun.record] at hcontext
    have hinferred : Wp (Watching attachedConfig digest (Calm reply edit)) ()
        (inferenceOrCancel (conversationModelInference c "model-a" 1) none)
        (fun r v => Inferred u.core.conversations "model-a" r v) (fun _ _ => False) u :=
      wp_inferenceOrCancel c 1 none hwaiting
    have hended : Wp (Watching attachedConfig digest (Calm reply edit)) ()
        (inferenceOrCancel (conversationModelInference c "model-a" 1) none)
        (fun r _ => ∃ inference, r = .ok inference ∧ inference.response.text = reply)
        (fun _ _ => False) u := by
      refine wp_settle (Wp.mono trivial (wp_calmInference hcontext hreply) (fun a _ _ ha => ?_)
        (fun _ _ _ hno => hno.elim))
      exact ⟨a, rfl, ha⟩
    refine wp_seq trivial (Wp.and hinferred hended) ?_ (fun _ _ _ hno => hno.1.elim)
    rintro r v - ⟨hr, inference, rfl, rfl⟩
    have hreplied : Replied inference.response.text v := ⟨hr.committed, hr.reply.1⟩
    have hcommitted : Committed v.core.conversations p id c := by
      rw [hr.conversations]
      exact hbegun.stored
    refine wp_bind (wp_resume ?_)
    cases hanswered : (c.withPending false).appendMessage .assistant inference.response.text with
    | error e => exact hreplied
    | ok settled =>
      have hvalid := PersistedConversation.validate_answered hcommitted.valid hcommitted.created
        hanswered
      obtain ⟨-, -, -, rfl⟩ := PersistedConversation.appendMessage_ok hanswered
      have hafter : ∀ x, Logged v x → Replied inference.response.text x := by
        rintro x ⟨entry, hplain, hlog⟩
        refine ⟨?_, ?_⟩
        · rw [hlog, promptCommitted_snoc hplain.commit]
          exact hreplied.1
        · rw [hlog, acceptedReply_snoc hplain.chat hplain.stop]
          exact hreplied.2
      exact wp_seq trivial (wp_lastUpdate hio hcommitted hvalid rfl rfl rfl rfl)
        (fun _ x _ hx => wp_pure (hafter x hx.1))
        (fun _ x _ hx => hafter x hx.1)
  refine wp_bind (wp_settle (Wp.mono trivial hbody (fun a v _ hv => ?_) (fun e v _ hv => ?_)))
  · refine wp_bind (wp_watch (fun w _ => wp_resume ?_))
    exact replied_tolerant v _ (Unseen.passes ⟨rfl, rfl, rfl, rfl⟩ w) hv
  · refine wp_bind (wp_watch (fun w _ => wp_resume ?_))
    exact replied_tolerant v _ (Unseen.passes ⟨rfl, rfl, rfl, rfl⟩ w) hv

/-! ## A lawful turn -/

/-- A turn on a small core, in calm surroundings. -/
def calmRun (reply : String) (s : Core Unit Unit) :
    Result ConversationModelTurnOutcome × Nat × Watched Unit :=
  runAlone (watch attachedConfig (fun _ => ""))
    (fun _ => { world := World.calm reply (fun tree => tree), stops := [] })
    (runPersistedModelConversationTurnInner attachedConfig ⟨0⟩ ⟨1⟩ "model-a" 1 "hi" none) 0
    { core := s, log := [] }

/-- A core with one conversation. -/
def coreOf (c : PersistedConversation) : Core Unit Unit := .fresh (.single c) ()

theorem model_turn_law_iff_hello :
    let run := calmRun "hello" (coreOf (emptyConversation ⟨0⟩ ⟨1⟩ "session_1"))
    acceptedReply run.2.2.log = some "hello" ∧
      (Lawful (coreOf (emptyConversation ⟨0⟩ ⟨1⟩ "session_1")) ⟨0⟩ ⟨1⟩ "model-a" "hi" run.1
          run.2.2 ↔
        Storable (coreOf (emptyConversation ⟨0⟩ ⟨1⟩ "session_1")) ⟨0⟩ ⟨1⟩ "hi" run.2.2.log) :=
  ⟨by decide, model_turn_law_iff attachedConfig (fun _ => "")
    (fun _ => { world := World.calm "hello" (fun tree => tree), stops := [] }) (fun _ => rfl)
    (coreOf (emptyConversation ⟨0⟩ ⟨1⟩ "session_1")) ⟨0⟩ ⟨1⟩ "model-a" 1 "hi" none⟩

/-! ## A conversation that is full as JSON -/

/-- Ten prompts `hi`, each answered with the same text. -/
def filled (text : String) : PersistedConversation :=
  { emptyConversation ⟨0⟩ ⟨1⟩ "session_1" with
    messages := (List.range 20).map (fun n =>
      if n % 2 = 0 then { sequence := n, role := .user, text := "hi" }
      else { sequence := n, role := .assistant, text := text }) }

/-- A text as long as a message may be, which takes six times as many bytes as JSON. -/
structure Expanding (text : String) : Prop where
  valid : messageTextInvalid text = false
  length : len text = maxConversationMessageBytes
  encoded : Json.stringBytes text = 2 + 6 * maxConversationMessageBytes

variable {text : String}

theorem filled_messages : (filled text).messages = (List.range 20).map (fun n =>
    if n % 2 = 0 then { sequence := n, role := .user, text := "hi" }
    else { sequence := n, role := .assistant, text := text }) := rfl

theorem filled_length : (filled text).messages.length = 20 := by
  rw [filled_messages, List.length_map, List.length_range]

theorem filled_texts : textBytes (filled text).messages = 20 + 10 * len text := by
  have hhi : len "hi" = 2 := rfl
  simp only [filled, List.range, List.range.loop, List.map_cons, List.map_nil, textBytes_cons,
    textBytes_nil, Nat.reduceMod, if_true, Nat.one_ne_zero, if_false, hhi]
  clear hhi
  omega

theorem filled_valid (h : Expanding text) : (filled text).validate = .ok () := by
  have hheader : (emptyConversation ⟨0⟩ ⟨1⟩ "session_1").validateHeader = .ok () := by
    decide
  have hsettled : (filled text).validateHeader = .ok () :=
    PersistedConversation.validateHeader_settled hheader rfl false (filled text).messages
  have hpending : (filled text).turnPending = false := rfl
  refine PersistedConversation.validate_eq hsettled ?_ ?_ hpending
  · rw [filled_length]
    decide
  have hlength : len text = 262144 := h.length
  have hhi : len "hi" = 2 := rfl
  have hprompt : messageTextInvalid "hi" = false := by decide
  simp only [filled, List.range, List.range.loop, List.map_cons, List.map_nil, Nat.reduceMod,
    if_true, Nat.one_ne_zero, if_false, validateMessages, h.valid, hprompt, hlength, hhi,
    maxConversationTextBytes]
  rfl

theorem filled_escapes (text : String) :
    ((filled text).messages.map (fun message => Json.stringBytes message.text - 2)).sum =
      20 + 10 * (Json.stringBytes text - 2) := by
  have hhi : Json.stringBytes "hi" - 2 = 2 := by decide
  simp only [filled, List.range, List.range.loop, List.map_cons, List.map_nil, List.sum_cons,
    List.sum_nil, Nat.reduceMod, if_true, Nat.one_ne_zero, if_false, hhi]
  clear hhi
  generalize Json.stringBytes text - 2 = bytes
  omega

/-- The messages are as large as with empty answers, and the ten answers. -/
theorem filled_bytes (text : String) : ((filled text).messages.map Json.messageBytes).sum =
    ((filled "").messages.map Json.messageBytes).sum + 10 * (Json.stringBytes text - 2) := by
  have hbare : (filled text).messages.map (fun message => { message with text := "" }) =
      (filled "").messages.map (fun message => { message with text := "" }) := rfl
  have hempty : Json.stringBytes "" - 2 = 0 := rfl
  rw [messagesBytes_texts, messagesBytes_texts (filled "").messages, hbare, filled_escapes,
    filled_escapes, hempty, Nat.mul_zero, Nat.add_zero, Nat.add_assoc]

/-- The size of a filled record with more messages. -/
theorem filled_size (h : Expanding text) (c : PersistedConversation)
    (tail : List PersistedConversationMessage) (hmessages : c.messages = (filled text).messages ++ tail) :
    c.encodedBytes = { c with messages := [] }.encodedBytes + (859 + 60 * maxConversationMessageBytes) +
      ((tail.map Json.messageBytes).sum + tail.length) := by
  have hbare : ((filled "").messages.map Json.messageBytes).sum = 840 := by decide
  rw [encodedBytes_messages, hmessages, List.map_append, List.sum_append, filled_bytes, hbare,
    List.length_append, filled_length, h.encoded]
  omega

/-- With `hi` appended it fits the store, … -/
theorem filled_fits (h : Expanding text) :
    Fits ((saying (filled text) .user "hi").withPending true) := by
  refine ⟨Nat.le_of_ble_eq_true rfl, ?_⟩
  rw [filled_size h _ [{ sequence := (filled text).messages.length, role := .user, text := "hi" }] rfl,
    filled_length]
  have hbare : { emptyConversation ⟨0⟩ ⟨1⟩ "session_1" with
      revision := 1, turnPending := true }.encodedBytes = 301 := by decide
  have hprompt : (([{ sequence := 20, role := .user, text := "hi" }] :
      List PersistedConversationMessage).map Json.messageBytes).sum = 41 := by decide
  rw [hprompt]
  show ({ emptyConversation ⟨0⟩ ⟨1⟩ "session_1" with
    revision := 1, turnPending := true } : PersistedConversation).encodedBytes + _ + _ ≤ _
  rw [hbare]
  decide

/-- … but not with the answer. -/
theorem filled_full (h : Expanding text) :
    ¬(ended (filled text) "hi" (some text)).encodedBytes ≤ maxPersistedConversationBytes := by
  have htail : (ended (filled text) "hi" (some text)).messages = (filled text).messages ++
      [{ sequence := (filled text).messages.length, role := .user, text := "hi" },
        { sequence := (saying (filled text) .user "hi").messages.length, role := .assistant
          text := text }] := by
    show ((filled text).messages ++ [_]) ++ [_] = _
    rw [List.append_assoc]
    rfl
  rw [filled_size h _ _ htail, List.map_cons, List.map_singleton, List.sum_cons, List.sum_singleton,
    messageBytes_text { sequence := _, role := .assistant, text := text }, h.encoded]
  have hmax : maxPersistedConversationBytes = 64 * maxConversationMessageBytes := rfl
  omega

/-- It fits as it is. -/
theorem filled_small (h : Expanding text) :
    (filled text).encodedBytes ≤ maxPersistedConversationBytes := by
  have hbare : { filled text with messages := [] }.encodedBytes = 302 := by
    show (emptyConversation ⟨0⟩ ⟨1⟩ "session_1").encodedBytes = 302
    decide
  rw [filled_size h (filled text) [] (List.append_nil _).symm, hbare]
  decide

/-- In the order of a conversation, the new prompt included. -/
theorem filled_prompted (c : PersistedConversation)
    (h : c.messages = (saying (filled text) .user "hi").messages) : Prompted c.roles := by
  have hroles : c.roles = (saying (filled "") .user "hi").roles := by
    rw [PersistedConversation.roles, h]
    rfl
  rw [hroles, Prompted]
  decide

/-- A turn can start on it. -/
theorem filled_startable (h : Expanding text) :
    Startable (coreOf (filled text)) ⟨0⟩ ⟨1⟩ "hi" (filled text) := by
  have hprompt : messageTextInvalid "hi" = false := by decide
  have hlength : len text = 262144 := h.length
  have htexts : textBytes (filled text).messages = 2621460 := by rw [filled_texts, hlength]
  have hasked : (filled text).appendMessage .user "hi" = .ok (saying (filled text) .user "hi") := by
    refine PersistedConversation.appendMessage_eq .user hprompt ?_ ?_
    · rw [filled_length]
      decide
    · rw [htexts]
      decide
  constructor
  · rfl
  · exact ConversationTable.load_eq rfl (filled_valid h) rfl rfl (filled_small h)
  · exact ⟨_, rfl⟩
  · rw [ensureConversationModelTurnCapacity, roomForTurn, filled_length, htexts, if_neg (by decide),
      if_neg (by decide)]
  · exact hasked
  · exact TurnCapacity.validate_asked (filled_valid h) rfl hasked 0
  · exact filled_fits h
  · have hlast : (saying (filled text) .user "hi").messages.getLast? =
        some { sequence := (filled text).messages.length, role := .user, text := "hi" } :=
      List.getLast?_concat
    have hshort : len "hi" ≤ maxConversationModelMessageBytes := by decide
    obtain ⟨messages, -, hcontext⟩ := buildGatewayConversationContext_prompted (c := { saying
      (filled text) .user "hi" with turnPending := true, revision := (filled text).revision + 1 })
      (filled_prompted _ rfl) hlast rfl hshort
    exact ⟨_, hcontext⟩

/-- The reply is accepted, and the turn ends against the law. -/
def Stranded (text : String) (r : Result ConversationModelTurnOutcome) (t : Watched Unit) : Prop :=
  Replied text t ∧ ¬Lawful (coreOf (filled text)) ⟨0⟩ ⟨1⟩ "model-a" "hi" r t

theorem filled_stranded (h : Expanding text) {r : Result ConversationModelTurnOutcome}
    {t : Watched Unit} (hreplied : Replied text t)
    (hlaw : Lawful (coreOf (filled text)) ⟨0⟩ ⟨1⟩ "model-a" "hi" r t ↔
      Storable (coreOf (filled text)) ⟨0⟩ ⟨1⟩ "hi" t.log) : Stranded text r t := by
  refine ⟨hreplied, fun hlawful => ?_⟩
  have hrecord : (coreOf (filled text)).conversations.record ⟨0⟩ ⟨1⟩ = some (filled text) := rfl
  obtain ⟨-, hfits⟩ := (storable_iff hreplied.1 hrecord).mp (hlaw.mp hlawful)
  rw [hreplied.2] at hfits
  exact filled_full h hfits

/-- **The reply that the store refuses.**  On a filled conversation, with a reply of the same text, the
    prompt is committed and the reply accepted, and the turn ends against the law. -/
theorem wp_filled (digest : Unit → String) (edit : Unit → Unit) (h : Expanding text) :
    Wp (Watching attachedConfig digest (Calm text edit)) ()
      (runPersistedModelConversationTurnInner attachedConfig ⟨0⟩ ⟨1⟩ "model-a" 1 "hi" none)
      (fun a => Stranded text (.ok a)) (fun e => Stranded text (.error e))
      { core := coreOf (filled text), log := [] } := by
  have hprompt : validateConversationModelPrompt "hi" = .ok () := by decide
  have hidle : Idle (coreOf (filled text)) { core := coreOf (filled text), log := [] } :=
    ⟨rfl, fun _ hmem => absurd hmem List.not_mem_nil⟩
  have hio : ∀ w : Outside Unit, Calm text edit w → w.world.ioFault = none := by
    rintro w rfl
    rfl
  refine Wp.mono trivial (Wp.and (wp_calmTurn (filled_startable h) hprompt h.valid)
    (wp_modelTurn hio ⟨0⟩ ⟨1⟩ "model-a" 1 "hi" none hidle)) (fun a t _ ht => ?_) (fun e t _ ht => ?_)
  · exact filled_stranded h ht.1 ht.2
  · exact filled_stranded h ht.1 ht.2

theorem filled_unlawful (h : Expanding text)
    (run : Result ConversationModelTurnOutcome × Nat × Watched Unit)
    (hrun : run = calmRun text (coreOf (filled text))) : Stranded text run.1 run.2.2 := by
  have hcalm : ∀ _ : Nat, Calm text (fun tree : Unit => tree)
      { world := World.calm text (fun tree => tree), stops := [] } := fun _ => rfl
  exact wp_ran (R := Stranded text) hcalm (wp_filled (fun _ => "") (fun tree => tree) h) run hrun

/-- The longest message of control characters. -/
def controls : String := repeated (256 * 1024) (Char.ofNat 1)

theorem controls_expanding : Expanding controls := by
  have hbytes : Json.charBytes (Char.ofNat 1) = 6 := by decide
  have hsize : (Char.ofNat 1).utf8Size = 1 := by decide
  constructor
  · refine messageText_repeated (by decide) ?_ (by decide)
    rw [hsize]
    decide
  · rw [controls, len_repeated, hsize]
    decide
  · rw [controls, Json.stringBytes_repeated, hbytes]
    decide

theorem full_conversation_strands :
    let run := calmRun controls (coreOf (filled controls))
    (filled controls).validate = .ok () ∧
      (filled controls).encodedBytes ≤ maxPersistedConversationBytes ∧
      messageTextInvalid controls = false ∧ acceptedReply run.2.2.log = some controls ∧
      ¬Lawful (coreOf (filled controls)) ⟨0⟩ ⟨1⟩ "model-a" "hi" run.1 run.2.2 := by
  intro run
  obtain ⟨hreplied, hunlawful⟩ := filled_unlawful controls_expanding run rfl
  exact ⟨filled_valid controls_expanding, filled_small controls_expanding, controls_expanding.valid,
    hreplied.2, hunlawful⟩

end VibeCoder.ModelTurn
