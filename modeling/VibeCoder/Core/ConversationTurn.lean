/-
  The conversation turn alone: when the last update clears the pending marker.

  The turn commits the user message with the marker, runs the backend task, and clears the marker
  in one more update, together with the answer if there is one.  `append_message` can refuse the
  answer, and then the turn returns before that update:

  * `Takes`  — the committed record can take the backend's result: exactly the limits of
    `append_message` and of the store, on the record and the text;
  * `conversation_turn_clears_iff` — the marker is clear at the end if and only if it can.
-/
import VibeCoder.Core.Alone

namespace VibeCoder.ConversationTurn

open Resume

variable {Tree : Type} {config : CoreConfig} {digest : Tree → String}

/-- The answer a backend result gives the turn to append; an empty text is not appended. -/
def answerOf : Result (BackendTaskOutcome × List AgentEvent) → Option String
  | .ok (outcome, _) => if outcome.turn.text.isEmpty then none else some outcome.turn.text
  | .error _ => none

/-- The record and the store can take the end of the turn: there is a next revision, the answer
    is a storable text and fits the count and the size of the messages, and the record still fits
    a file. -/
def Takes (c : PersistedConversation) : Option String → Prop
  | none => c.revision < u64Max ∧
      PersistedConversation.encodedBytes
        { c with turnPending := false, revision := c.revision + 1 } ≤
        maxPersistedConversationBytes
  | some text => c.revision < u64Max ∧ messageTextInvalid text = false ∧
      c.messages.length < maxConversationMessages ∧
      textBytes c.messages + len text ≤ maxConversationTextBytes ∧
      PersistedConversation.encodedBytes
        { c with
          turnPending := false
          revision := c.revision + 1
          messages := c.messages ++
            [{ sequence := c.messages.length, role := .assistant, text := text }] } ≤
        maxPersistedConversationBytes

/-- The marker of a conversation is clear. -/
def Cleared (s : Core Tree Unit) (p : ProjectId) (id : ConversationId) : Prop :=
  ∃ c, s.conversations.record p id = some c ∧ c.turnPending = false

theorem not_cleared {s : Core Tree Unit} {p : ProjectId} {id : ConversationId}
    {c : PersistedConversation} (h : Committed s.conversations p id c) : ¬ Cleared s p id := by
  rintro ⟨found, hfound, hclear⟩
  rw [h.stored] at hfound
  cases hfound
  rw [h.pending] at hclear
  cases hclear

/-! ## The last update -/

variable {s : Core Tree Unit} {p : ProjectId} {id : ConversationId} {c : PersistedConversation}

/-- The update that settles a committed record: it clears the marker exactly when the settled
    record can be committed. -/
theorem settle_iff (config : CoreConfig) (digest : Tree → String) {settled : PersistedConversation} (h : Committed s.conversations p id c)
    (hvalid : settled.validate = .ok ()) (hp : settled.projectId = c.projectId)
    (hid : settled.conversationId = c.conversationId) (hrev : settled.revision = c.revision)
    (hclear : settled.turnPending = false) {w : World Tree} (hio : w.ioFault = none) :
    (Cleared (exec config digest () w (.updateConversation c.revision settled) s).2 p id ↔
      c.revision < u64Max ∧ { settled with revision := c.revision + 1 }.encodedBytes ≤
        maxPersistedConversationBytes) := by
  have hprepare := h.prepareUpdate hvalid hp hid hrev
  rcases exec_update_cases config digest () w s c.revision settled with
    ⟨e, hexec, hwhy⟩ | ⟨committed, hupdate, hexec⟩
  · rw [hexec]
    have hrefused : ConversationTable.commit settled = .error e := by
      rw [hio, hprepare] at hwhy
      exact hwhy.resolve_left (by simp)
    refine ⟨fun hcleared => absurd hcleared (not_cleared h), ?_⟩
    rintro ⟨hlt, hbytes⟩
    rw [ConversationTable.commit, hrev, if_neg (Nat.not_le.mpr hlt),
      if_neg (Nat.not_lt.mpr hbytes)] at hrefused
    cases hrefused
  · rw [hexec]
    rw [hprepare] at hupdate
    obtain ⟨heq, hlt, hbytes⟩ := ConversationTable.commit_ok hupdate
    have hput := (ConversationTable.put_record (hprepare.trans hupdate)).1
    rw [hp, hid, h.project, h.conversation] at hput
    rw [hrev] at heq hlt
    refine ⟨fun _ => ⟨hlt, by rw [← heq]; exact hbytes⟩, fun _ => ⟨committed, hput, ?_⟩⟩
    rw [heq]
    exact hclear

variable (config digest)

/-- A failed turn ends with its clearing update. -/
theorem clearAfterFailure_state {α : Type} (code : String) (error : VibeCoderError)
    (w : Nat → World Tree) (n : Nat) (s : Core Tree Unit) :
    (runAlone (exec config digest ()) w (clearAfterFailure (α := α) c code error) n s).2.2 =
      (exec config digest () (w n) (.updateConversation c.revision (c.withPending false)) s).2 := by
  have hthrow := runAlone_bind_silent (exec config digest ()) w
    (mapError (act (.updateConversation c.revision (c.withPending false)))
      (persistenceError code)) (f := fun _ => (throw error : CoreM α)) (fun _ _ _ => rfl) n s
  have hmap := runAlone_mapError (exec config digest ()) w
    (act (.updateConversation c.revision (c.withPending false))) (persistenceError code) n s
  exact congrArg Prod.snd (hthrow.trans hmap)

/-- An answered turn ends with its update, if the answer could be appended, and at once
    otherwise. -/
theorem answered_state (outcome : BackendTaskOutcome) (events : List AgentEvent)
    (w : Nat → World Tree) (n : Nat) (s : Core Tree Unit) :
    (runAlone (exec config digest ()) w (closeConversationTurn c (.ok (outcome, events))) n s).2.2 =
      match answeredConversation c outcome.turn.text with
      | .error _ => s
      | .ok answered =>
        (exec config digest () (w n) (.updateConversation c.revision answered) s).2 := by
  cases hanswer : answeredConversation c outcome.turn.text with
  | error e =>
    have hresume : runAlone (exec config digest ()) w
        (resume (answeredConversation c outcome.turn.text) : CoreM PersistedConversation) n s =
        (.error e, n, s) := by
      rw [hanswer]
      rfl
    have hrun := runAlone_bind_error (exec config digest ()) w
      (fun answered => act (.updateConversation c.revision answered) >>=
        fun _ => (pure outcome : CoreM BackendTaskOutcome)) hresume
    exact congrArg (fun r : Result BackendTaskOutcome × Nat × Core Tree Unit => r.2.2) hrun
  | ok answered =>
    have hresume : runAlone (exec config digest ()) w
        (resume (answeredConversation c outcome.turn.text) : CoreM PersistedConversation) n s =
        (.ok answered, n, s) := by
      rw [hanswer]
      rfl
    have hrun := runAlone_bind_ok (exec config digest ()) w
      (fun answered => act (.updateConversation c.revision answered) >>=
        fun _ => (pure outcome : CoreM BackendTaskOutcome)) hresume
    have hupdate := runAlone_bind_silent (exec config digest ()) w
      (act (.updateConversation c.revision answered))
      (f := fun _ => (pure outcome : CoreM BackendTaskOutcome)) (fun _ _ _ => rfl) n s
    exact (congrArg (fun r : Result BackendTaskOutcome × Nat × Core Tree Unit => r.2.2) hrun).trans
      (congrArg Prod.snd hupdate)

/-- **The closing of a turn.**  Whatever the backend answered, the marker is clear afterwards if
    and only if the record can take the answer. -/
theorem close_iff (h : Committed s.conversations p id c)
    (result : Result (BackendTaskOutcome × List AgentEvent)) {w : Nat → World Tree} {n : Nat}
    (hio : (w n).ioFault = none) :
    Cleared (runAlone (exec config digest ()) w (closeConversationTurn c result) n s).2.2 p id ↔
      Takes c (answerOf result) := by
  have hclear := settle_iff config digest h
    (PersistedConversation.validate_cleared h.valid h.created) rfl rfl rfl rfl hio
  rcases result with e | ⟨outcome, events⟩
  · rw [closeConversationTurn, clearAfterFailure_state]
    exact hclear
  · rw [answered_state]
    by_cases hempty : outcome.turn.text.isEmpty = true
    · rw [answeredConversation, if_pos hempty, answerOf, if_pos hempty]
      exact hclear
    · rw [answeredConversation, if_neg hempty, answerOf, if_neg hempty]
      cases hanswer : (c.withPending false).appendMessage .assistant outcome.turn.text with
      | error e =>
        -- refused: the turn returns without its last update
        refine ⟨fun hcleared => absurd hcleared (not_cleared h), ?_⟩
        rintro ⟨-, htext, hcount, hbytes, -⟩
        rw [PersistedConversation.appendMessage_eq (c := c.withPending false) .assistant htext hcount
          hbytes] at hanswer
        cases hanswer
      | ok answered =>
        have hvalid := PersistedConversation.validate_answered h.valid h.created hanswer
        obtain ⟨htext, hcount, hbytes, rfl⟩ := PersistedConversation.appendMessage_ok hanswer
        refine (settle_iff config digest h hvalid rfl rfl rfl rfl hio).trans ⟨?_, ?_⟩
        · rintro ⟨hlt, hfits⟩
          exact ⟨hlt, htext, hcount, hbytes, hfits⟩
        · rintro ⟨hlt, -, -, -, hfits⟩
          exact ⟨hlt, hfits⟩

/-! ## The whole turn -/

/-- An opened turn has committed its record. -/
theorem wp_open (prompt : String) (s : Core Tree Unit) (p : ProjectId) (id : ConversationId) :
    Wp (Alone config digest (fun _ => True)) () (openConversationTurn config p id prompt)
      (fun opened t => Committed t.conversations p id opened.2) (fun _ _ => True) s := by
  refine wp_lifecycle_alone (fun _ _ => trivial) (fun _ => ?_)
  refine wp_bind (wp_ask (fun w _ => ?_))
  cases Core.answer _ w (.openProject p) with
  | error e => trivial
  | ok u =>
    refine wp_bind (wp_ask (fun w _ => ?_))
    cases hload : Core.answer _ w (.loadConversation p id) with
    | error e => trivial
    | ok loaded =>
      refine wp_bind (wp_resume ?_)
      cases hrun : runnableConversation config loaded with
      | error e => trivial
      | ok runnable =>
        obtain ⟨hloaded, hcreated, -⟩ := runnableConversation_ok hrun
        have htable : s.conversations.load p id = .ok (some runnable.1) := by
          rw [hloaded] at hload
          cases hio : w.ioFault with
          | some e => rw [Core.answer, hio] at hload; cases hload
          | none => rw [Core.answer, hio] at hload; exact hload
        refine wp_bind (wp_ask (fun w _ => ?_))
        cases Core.answer _ w (.resumeSession p runnable.2.sessionId) with
        | error e => trivial
        | ok u =>
          refine wp_seq trivial (wp_commitUserMessage htable hcreated) (fun committed t _ ht => ?_)
            (fun _ _ _ _ => trivial)
          obtain ⟨asked, -, -, hcommitted, -⟩ := ht
          exact wp_pure hcommitted

/-- A backend task leaves every conversation alone. -/
theorem backend_conversations (session : SessionId) (policy : ModelRoutePolicyConfig)
    (prompt : String) (w : Nat → World Tree) (n : Nat) (s : Core Tree Unit) :
    (runAlone (exec config digest ()) w (runBackendTask config p session policy prompt)
      n s).2.2.conversations = s.conversations := by
  have hwp : Wp (Alone config digest (fun _ => True)) ()
      (runBackendTask config p session policy prompt)
      (fun _ t => Kept s t ∧ (s.gate p = none → t.gate p = none))
      (fun _ t => Kept s t ∧ (s.gate p = none → t.gate p = none)) s :=
    wp_runBackendTask session policy prompt
  have hpost := wp_run (w := w) (n := n) (fun _ => trivial) hwp
  exact (Post.both (J := fun t : Core Tree Unit => Kept s t ∧ (s.gate p = none → t.gate p = none))
    hpost).1.conversations

/-- **When a conversation turn settles.**  Once the user message is committed, with any backend
    result whatever, the turn returns with the marker clear if and only if the committed record
    can take that result; a failed I/O of the last update itself is left aside. -/
theorem conversation_turn_clears_iff (config : CoreConfig) (digest : Tree → String)
    (w : Nat → World Tree) (s : Core Tree Unit) (p : ProjectId) (id : ConversationId)
    (policy : ModelRoutePolicyConfig) (prompt : String) (session : SessionId)
    (c : PersistedConversation) (hprompt : blank prompt = false)
    (hstore : config.conversationStore = true)
    (hopened : (runAlone (exec config digest ()) w (openConversationTurn config p id prompt)
      0 s).1 = .ok (session, c)) :
    let opened := (runAlone (exec config digest ()) w (openConversationTurn config p id prompt)
      0 s).2
    let backend := runAlone (exec config digest ()) w
      (runBackendTask config p session policy prompt) opened.1 opened.2
    (w backend.2.1).ioFault = none →
      (Cleared (runAlone (exec config digest ()) w
          (runPersistedConversationTurn config p id policy prompt) 0 s).2.2 p id ↔
        Takes c (answerOf backend.1)) := by
  intro opened backend hio
  -- the call is its opening, its backend task and its closing, one after the other
  have hopen : runAlone (exec config digest ()) w (openConversationTurn config p id prompt) 0 s =
      (.ok (session, c), opened.1, opened.2) := Prod.ext hopened rfl
  have hparts : runAlone (exec config digest ()) w
      (runPersistedConversationTurn config p id policy prompt) 0 s =
      runAlone (exec config digest ()) w (openConversationTurn config p id prompt >>= fun opened =>
        settle (runBackendTask config p opened.1 policy prompt) >>= fun result =>
          closeConversationTurn opened.2 result) 0 s := by
    rw [runPersistedConversationTurn, conversationStore, hprompt, hstore]
    rfl
  rw [hparts, runAlone_bind_ok (exec config digest ()) w _ hopen, runAlone_settle]
  have hcommitted : Committed opened.2.conversations p id c := by
    have hpost := wp_run (w := w) (n := 0) (fun _ => trivial)
      (wp_open config digest prompt s p id)
    rw [hopen] at hpost
    exact hpost
  refine close_iff config digest ?_ backend.1 hio
  have hframe := backend_conversations (p := p) config digest session policy prompt w opened.1
    opened.2
  rw [hframe]
  exact hcommitted

/-! ## Two runs -/

/-- A core with one empty conversation. -/
def oneConversation : Core Unit Unit :=
  .fresh (.single (emptyConversation ⟨0⟩ ⟨1⟩ "session_1")) ()

/-- The record after the user message `hi` has been committed. -/
def askedConversation : PersistedConversation :=
  { emptyConversation ⟨0⟩ ⟨1⟩ "session_1" with
    revision := 1
    turnPending := true
    messages := [{ sequence := 0, role := .user, text := "hi" }] }

/-- A program run alone on that core, with an agent that answers `text`. -/
def answering {α : Type} (text : String) (p : CoreM α) (n : Nat) (s : Core Unit Unit) :
    Result α × Nat × Core Unit Unit :=
  runAlone (exec attachedConfig (fun _ => "") ()) (fun _ => World.calm text (fun tree => tree)) p
    n s

/-- The turn that asks `hi`, and its two first parts. -/
def hiTurn : CoreM BackendTaskOutcome :=
  runPersistedConversationTurn attachedConfig ⟨0⟩ ⟨1⟩ calmPolicy "hi"

def hiOpening : CoreM (SessionId × PersistedConversation) :=
  openConversationTurn attachedConfig ⟨0⟩ ⟨1⟩ "hi"

def hiBackend : CoreM (BackendTaskOutcome × List AgentEvent) :=
  runBackendTask attachedConfig ⟨0⟩ ⟨"session_1"⟩ calmPolicy "hi"

theorem conversation_turn_clears_iff_hello :
    let opened := (answering "hello" hiOpening 0 oneConversation).2
    let backend := answering "hello" hiBackend opened.1 opened.2
    answerOf backend.1 = some "hello" ∧
      (Cleared (answering "hello" hiTurn 0 oneConversation).2.2 ⟨0⟩ ⟨1⟩ ↔
        Takes askedConversation (answerOf backend.1)) :=
  ⟨by decide, conversation_turn_clears_iff attachedConfig (fun _ => "")
    (fun _ => World.calm "hello" (fun tree => tree)) oneConversation ⟨0⟩ ⟨1⟩ calmPolicy "hi"
    ⟨"session_1"⟩ askedConversation (by decide) rfl (by decide) rfl⟩

/-- An answer with a NUL character is refused by `append_message`, and the turn returns with the
    marker set although no store operation failed. -/
theorem not_every_turn_clears :
    ¬ ∀ (w : Nat → World Unit) (s : Core Unit Unit) (policy : ModelRoutePolicyConfig)
      (prompt : String) (opened : SessionId × PersistedConversation),
      (∀ n, (w n).ioFault = none) →
      (runAlone (exec attachedConfig (fun _ => "") ()) w
        (openConversationTurn attachedConfig ⟨0⟩ ⟨1⟩ prompt) 0 s).1 = .ok opened →
      Cleared (runAlone (exec attachedConfig (fun _ => "") ()) w
        (runPersistedConversationTurn attachedConfig ⟨0⟩ ⟨1⟩ policy prompt) 0 s).2.2 ⟨0⟩ ⟨1⟩ := by
  intro h
  have hcleared := h (fun _ => World.calm "\x00" (fun tree => tree)) oneConversation calmPolicy
    "hi" (⟨"session_1"⟩, askedConversation) (fun _ => rfl) (by decide)
  obtain ⟨c, hrecord, hclear⟩ := hcleared
  have hpending : ((runAlone (exec attachedConfig (fun _ => "") ())
      (fun _ => World.calm "\x00" (fun tree => tree))
      (runPersistedConversationTurn attachedConfig ⟨0⟩ ⟨1⟩ calmPolicy "hi") 0
      oneConversation).2.2.conversations.record ⟨0⟩ ⟨1⟩).map
      PersistedConversation.turnPending = some true := by
    decide
  rw [hrecord, Option.map_some, hclear] at hpending
  cases hpending

end VibeCoder.ConversationTurn
