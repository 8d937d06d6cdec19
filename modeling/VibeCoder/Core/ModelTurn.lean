/-
  The outcome of one model turn (`run_persisted_model_conversation_turn_inner`).

  The turn commits the prompt with the pending marker, asks the gateway once, and clears the marker in
  its last update.  Here it runs on the core and on the log of its operations, while other callers may
  set cancellation flags before any of its steps.

  1. **The log** — `Sends`: a chat completion goes to the one catalog entry with the requested id, and
     nothing is sent or awaited after it; `acceptedReply`: the reply that passed its checks and was
     not overtaken by Stop.
  2. **The inference** — proved once for a future that is polled under a flag: polling only adds
     readings of the clock and of the flag while nothing has been sent (`Polled`).
  3. **The last update** — the store can refuse it although no I/O fails, and the turn then returns
     with the marker set.  `Storable` says when it does not; `model_turn_law_iff`: the turn has its
     lawful outcome exactly then.
-/
import VibeCoder.Core.TurnCapacity
import VibeCoder.Lib.Trace

namespace VibeCoder.ModelTurn

open Resume

variable {Tree : Type}

/-! ## The turn under observation -/

/-- One operation and its answer. -/
abbrev Entry : Type := (o : Op) × Result o.Val

/-- What the turn did and was answered. -/
abbrev Log : Type := Trace Op (fun o => Result o.Val)

/-- The outside of one step, and the flags that other callers set before it. -/
structure Outside (Tree : Type) where
  world : World Tree
  stops : List Flag

/-- The core and the log. -/
structure Watched (Tree : Type) where
  core : Core Tree Unit
  log : Log

/-- The core once some flags have been set. -/
def raise (s : Core Tree Unit) (stops : List Flag) : Core Tree Unit :=
  { s with flags := fun flag => s.flags flag || decide (flag ∈ stops) }

/-- One operation of the turn. -/
def watch (config : CoreConfig) (digest : Tree → String) (w : Outside Tree) (o : Op)
    (s : Watched Tree) : Result o.Val × Watched Tree :=
  let stepped := exec config digest () w.world o (raise s.core w.stops)
  (stepped.1, { core := stepped.2, log := s.log ++ [⟨o, stepped.1⟩] })

/-! ## Reading the log -/

/-- A chat completion. -/
def isChat : Op → Bool
  | .query (.chatCompletion _) => true
  | _ => false

/-- The inference is awaited under the clock. -/
def isPoll : Op → Bool
  | .query .timeout => true
  | _ => false

/-- A reading of a flag. -/
def isReading : Op → Bool
  | .isRequested _ => true
  | _ => false

/-- The store took the prompt, with the marker. -/
def Entry.commitsPrompt : Entry → Bool
  | ⟨.updateConversation _ c, .ok _⟩ => c.turnPending
  | _ => false

/-- Stop was seen. -/
def Entry.stops : Entry → Bool
  | ⟨.isRequested _, .ok true⟩ => true
  | _ => false

/-- The text of a reply that passes the checks of the turn. -/
def Entry.reply : Entry → Option String
  | ⟨.query (.chatCompletion request), .ok response⟩ =>
    if (validateConversationModelResponse request.model response).isOk then some response.text
    else none
  | _ => none

/-- The prompt has been committed. -/
def promptCommitted (log : Log) : Bool := log.any Entry.commitsPrompt

/-- The reply that passed its checks, unless Stop was seen. -/
def acceptedReply (log : Log) : Option String :=
  if log.any Entry.stops then none else log.findSome? Entry.reply

/-- A chat completion goes to the one entry with the requested id of a catalog the gateway gave, and
    after it nothing is sent or awaited any more. -/
def Sends (requestedModelId : String) (log : Log) : Prop :=
  ∀ (before after : Log) (request : GatewayChatRequest) (answer : Result GatewayChatResponse),
    log = before ++ ⟨.query (.chatCompletion request), answer⟩ :: after →
      (∃ catalog : List ModelRef, (⟨.query .listGatewayModels, .ok catalog⟩ : Entry) ∈ before ∧
        catalog.filter (fun candidate => candidate.id == requestedModelId) = [request.model]) ∧
      ∀ entry ∈ after, isChat entry.1 = false ∧ isPoll entry.1 = false

theorem reply_of_not_chat {entry : Entry} (h : isChat entry.1 = false) : entry.reply = none := by
  obtain ⟨o, answer⟩ := entry
  cases o with
  | query q => cases q <;> first | rfl | cases h
  | _ => rfl

theorem sends_unsent {requestedModelId : String} {log : Log}
    (h : ∀ entry ∈ log, isChat entry.1 = false) : Sends requestedModelId log := by
  rintro before after request answer rfl
  have hchat := h _ (List.mem_append_right _ List.mem_cons_self)
  cases hchat

/-- Splitting a log at an entry: either at its end or before it. -/
theorem split_snoc {log before after : Log} {last entry : Entry}
    (h : log ++ [last] = before ++ entry :: after) :
    (log = before ∧ last = entry ∧ after = []) ∨
      ∃ rest, after = rest ++ [last] ∧ log = before ++ entry :: rest := by
  rcases List.eq_nil_or_concat after with rfl | ⟨rest, final, rfl⟩
  · obtain ⟨hlog, hlast⟩ := List.append_inj' h rfl
    cases hlast
    exact Or.inl ⟨hlog, rfl, rfl⟩
  · rw [List.concat_eq_append, ← List.cons_append, ← List.append_assoc] at h
    obtain ⟨hlog, hlast⟩ := List.append_inj' h rfl
    cases hlast
    exact Or.inr ⟨rest, List.concat_eq_append, hlog⟩

/-- Anything but a completion or a poll can follow. -/
theorem Sends.snoc {requestedModelId : String} {log : Log} (h : Sends requestedModelId log)
    {entry : Entry} (hchat : isChat entry.1 = false) (hpoll : isPoll entry.1 = false) :
    Sends requestedModelId (log ++ [entry]) := by
  intro before after request answer heq
  rcases split_snoc heq with ⟨-, rfl, -⟩ | ⟨rest, rfl, hlog⟩
  · cases hchat
  · obtain ⟨hcatalog, hafter⟩ := h before rest request answer hlog
    refine ⟨hcatalog, fun other hmem => ?_⟩
    rcases List.mem_append.mp hmem with hold | hnew
    · exact hafter other hold
    · rw [List.mem_singleton.mp hnew]
      exact ⟨hchat, hpoll⟩

/-- The first completion, to the model that was selected from a catalog. -/
theorem sends_chat {requestedModelId : String} {log : Log} {catalog : List ModelRef}
    {request : GatewayChatRequest} (answer : Result GatewayChatResponse)
    (hunsent : ∀ entry ∈ log, isChat entry.1 = false)
    (hcatalog : (⟨.query .listGatewayModels, .ok catalog⟩ : Entry) ∈ log)
    (hmodel : catalog.filter (fun candidate => candidate.id == requestedModelId) =
      [request.model]) :
    Sends requestedModelId (log ++ [⟨.query (.chatCompletion request), answer⟩]) := by
  intro before after request' answer' heq
  rcases split_snoc heq with ⟨rfl, hentry, rfl⟩ | ⟨rest, rfl, rfl⟩
  · cases hentry
    exact ⟨⟨catalog, hcatalog, hmodel⟩, fun _ hmem => absurd hmem List.not_mem_nil⟩
  · have hchat := hunsent _ (List.mem_append_right _ List.mem_cons_self)
    cases hchat

/-- An entry that the outcome does not depend on. -/
structure Plain (entry : Entry) : Prop where
  chat : isChat entry.1 = false
  poll : isPoll entry.1 = false
  commit : entry.commitsPrompt = false
  stop : entry.stops = false

theorem promptCommitted_snoc {log : Log} {entry : Entry} (h : entry.commitsPrompt = false) :
    promptCommitted (log ++ [entry]) = promptCommitted log := by
  rw [promptCommitted, promptCommitted, List.any_append, List.any_cons, List.any_nil, h,
    Bool.or_false, Bool.or_false]

theorem acceptedReply_snoc {log : Log} {entry : Entry} (hchat : isChat entry.1 = false)
    (hstop : entry.stops = false) : acceptedReply (log ++ [entry]) = acceptedReply log := by
  have hfind : (log ++ [entry]).findSome? Entry.reply = log.findSome? Entry.reply := by
    rw [List.findSome?_append, List.findSome?_singleton, reply_of_not_chat hchat, Option.or_none]
  rw [acceptedReply, acceptedReply, List.any_append, List.any_cons, List.any_nil, hstop,
    Bool.or_false, Bool.or_false, hfind]

/-! ## The law -/

/-- The record with one more message. -/
def saying (c : PersistedConversation) (role : ConversationRole) (text : String) :
    PersistedConversation :=
  { c with messages := c.messages ++ [{ sequence := c.messages.length, role := role, text := text }] }

/-- The record that the turn ends with: the prompt, the reply if one was accepted, no marker, two
    revisions on. -/
def ended (before : PersistedConversation) (prompt : String) (reply : Option String) :
    PersistedConversation :=
  { (match reply with
      | some text => saying (saying before .user prompt) .assistant text
      | none => saying before .user prompt) with
    turnPending := false
    revision := before.revision + 2 }

section

variable (s : Core Tree Unit) (p : ProjectId) (id : ConversationId) (requestedModelId prompt : String)

/-- If the prompt was committed, the store can take the record that the turn ends with: there is a
    revision for it, and its encoding is within the limit. -/
def Storable (log : Log) : Prop :=
  promptCommitted log = true → ∀ before, s.conversations.record p id = some before →
    before.revision + 2 ≤ u64Max ∧
      (ended before prompt (acceptedReply log)).encodedBytes ≤ maxPersistedConversationBytes

/-- What the turn returned, and what it left. -/
def Outcome (t : Watched Tree) : Result ConversationModelTurnOutcome → Prop
  | .ok outcome => acceptedReply t.log = some outcome.assistantText ∧
      Gained s t.core p id [(.user, prompt), (.assistant, outcome.assistantText)] false
  | .error _ =>
    if promptCommitted t.log then Gained s t.core p id [(.user, prompt)] false
    else t.core.conversations.record p id = s.conversations.record p id

/-- The outcome law. -/
def Lawful (r : Result ConversationModelTurnOutcome) (t : Watched Tree) : Prop :=
  Sends requestedModelId t.log ∧ Outcome s p id prompt t r

end

variable {config : CoreConfig} {digest : Tree → String} {admits : Outside Tree → Prop}
variable {s : Core Tree Unit} {p : ProjectId} {id : ConversationId}
variable {requestedModelId prompt : String} {t t' : Watched Tree}

/-- One more plain entry, and the same conversations. -/
structure Passes (t t' : Watched Tree) : Prop where
  conversations : t'.core.conversations = t.core.conversations
  log : ∃ entry, Plain entry ∧ t'.log = t.log ++ [entry]

theorem Passes.reads (h : Passes t t') :
    promptCommitted t'.log = promptCommitted t.log ∧ acceptedReply t'.log = acceptedReply t.log := by
  obtain ⟨entry, hplain, hlog⟩ := h.log
  rw [hlog]
  exact ⟨promptCommitted_snoc hplain.commit, acceptedReply_snoc hplain.chat hplain.stop⟩

theorem Passes.sends (h : Passes t t') (hsends : Sends requestedModelId t.log) :
    Sends requestedModelId t'.log := by
  obtain ⟨entry, hplain, hlog⟩ := h.log
  rw [hlog]
  exact hsends.snoc hplain.chat hplain.poll

theorem Passes.gained (h : Passes t t') {messages : List (ConversationRole × String)}
    {pending : Bool} (hgained : Gained s t.core p id messages pending) :
    Gained s t'.core p id messages pending := by
  obtain ⟨before, after, hbefore, hafter, hsaid, hpending⟩ := hgained
  refine ⟨before, after, hbefore, ?_, hsaid, hpending⟩
  rw [h.conversations]
  exact hafter

/-! ## Operations -/

/-- The turn under observation, in surroundings of some kind. -/
abbrev Watching (config : CoreConfig) (digest : Tree → String) (admits : Outside Tree → Prop) :
    Setting Op (fun o => Result o.Val) Unit (Outside Tree) (Watched Tree) :=
  Setting.solo (watch config digest) admits

variable {α : Type} {Q : α → Watched Tree → Prop} {E : VibeCoderError → Watched Tree → Prop}

theorem wp_watch {o : Op} {Q : o.Val → Watched Tree → Prop}
    (h : ∀ w, admits w → Post Q E (watch config digest w o t).1 (watch config digest w o t).2) :
    Wp (Watching config digest admits) () (act o) Q E t := by
  refine wp_attempt trivial (fun w hw u hrely _ => ?_)
  have hu : (watch config digest w o t).2 = u := hrely
  rw [← hu]
  exact h w hw

/-- An operation that leaves the conversations alone and is no completion, poll or reading. -/
def Unseen (o : Op) : Prop :=
  o.writesConversations = false ∧ isChat o = false ∧ isPoll o = false ∧ isReading o = false

theorem Unseen.plain {o : Op} (h : Unseen o) (answer : Result o.Val) : Plain ⟨o, answer⟩ := by
  obtain ⟨hwrites, hchat, hpoll, hreading⟩ := h
  refine ⟨hchat, hpoll, ?_, ?_⟩
  · cases o with
    | updateConversation expected c => cases hwrites
    | _ => rfl
  · cases o with
    | isRequested flag => cases hreading
    | _ => rfl

theorem watch_conversations {o : Op} (h : o.writesConversations = false) (w : Outside Tree) :
    (watch config digest w o t).2.core.conversations = t.core.conversations :=
  exec_conversations config digest () w.world (raise t.core w.stops) h

theorem Unseen.passes {o : Op} (h : Unseen o) (w : Outside Tree) :
    Passes t (watch config digest w o t).2 :=
  ⟨watch_conversations h.1 w, _, h.plain _, rfl⟩

/-- An assertion that survives anything the outcome does not depend on. -/
def Tolerant (J : Watched Tree → Prop) : Prop := ∀ t t', Passes t t' → J t → J t'

/-- Such an assertion survives unseen operations. -/
theorem wp_unseen {J : Watched Tree → Prop} (hJ : Tolerant J) {q : CoreM α} (hq : Only Unseen q)
    (h : J t) : Wp (Watching config digest admits) () q (fun _ => J) (fun _ => J) t := by
  refine wp_only (fun o ho u hu => ⟨trivial, fun w _ r hr _ => ?_⟩) hq h
  have hr' : (watch config digest w o u).2 = r := hr
  rw [← hr']
  exact hJ u _ (ho.passes w) hu

/-- Before something else, unseen operations only take their turn. -/
theorem wp_unseen_then {J : Watched Tree → Prop} (hJ : Tolerant J) {β : Type} {q : CoreM β}
    {f : β → CoreM α} (hq : Only Unseen q) (h : J t) (herr : ∀ e u, J u → E e u)
    (hok : ∀ b u, J u → Wp (Watching config digest admits) () (f b) Q E u) :
    Wp (Watching config digest admits) () (q >>= f) Q E t :=
  wp_seq trivial (wp_unseen hJ hq h) (fun b u _ hu => hok b u hu) (fun e u _ hu => herr e u hu)

/-- A pure result. -/
theorem wp_result {β : Type} {r : Result β} {f : β → CoreM α} (herr : ∀ e, r = .error e → E e t)
    (hok : ∀ b, r = .ok b → Wp (Watching config digest admits) () (f b) Q E t) :
    Wp (Watching config digest admits) () (resume r >>= f) Q E t := by
  refine wp_bind (wp_resume ?_)
  cases r with
  | error e => exact herr e rfl
  | ok b => exact hok b rfl

/-- A body under the gate. -/
theorem wp_underGate {project : ProjectId} {body : CoreM α} {J : Watched Tree → Prop}
    (hJ : Tolerant J) (h : J t) (herr : ∀ e u, J u → E e u)
    (hQ : ∀ a, Tolerant (Q a)) (hE : ∀ e, Tolerant (E e))
    (hbody : ∀ u, J u → Wp (Watching config digest admits) () body Q E u) :
    Wp (Watching config digest admits) () (withLifecycle project body) Q E t := by
  have hacquire : Only Unseen (act (.acquire project)) := only_attempt ⟨rfl, rfl, rfl, rfl⟩
  have hrelease : Only Unseen (act (.release project)) := only_attempt ⟨rfl, rfl, rfl, rfl⟩
  refine wp_unseen_then hJ hacquire h herr (fun _ u hu => ?_)
  refine wp_bind (wp_settle (Wp.mono trivial (hbody u hu) (fun a v _ hv => ?_) (fun e v _ hv => ?_)))
  · -- the permit is given back, which cannot fail
    refine wp_bind (wp_watch (fun w _ => wp_resume ?_))
    exact hQ a v _ (Unseen.passes ⟨rfl, rfl, rfl, rfl⟩ w) hv
  · refine wp_bind (wp_watch (fun w _ => wp_resume ?_))
    exact hE e v _ (Unseen.passes ⟨rfl, rfl, rfl, rfl⟩ w) hv

/-! ## Opening -/

/-- Nothing has happened that the outcome depends on. -/
structure Idle (s : Core Tree Unit) (t : Watched Tree) : Prop where
  conversations : t.core.conversations = s.conversations
  plain : ∀ entry ∈ t.log, Plain entry

theorem idle_tolerant : Tolerant (Idle s) := by
  rintro t t' ⟨hconversations, entry, hplain, hlog⟩ h
  refine ⟨hconversations.trans h.conversations, fun other hmem => ?_⟩
  rw [hlog] at hmem
  rcases List.mem_append.mp hmem with hold | hnew
  · exact h.plain other hold
  · rw [List.mem_singleton.mp hnew]
    exact hplain

theorem Idle.uncommitted (h : Idle s t) : promptCommitted t.log = false := by
  rw [promptCommitted, List.any_eq_false]
  intro entry hmem
  rw [(h.plain entry hmem).commit]
  exact Bool.false_ne_true

/-- A turn that fails before its commit is lawful, and nothing is to be stored. -/
theorem Idle.lawful (h : Idle s t) (e : VibeCoderError) :
    Lawful s p id requestedModelId prompt (.error e) t ↔ Storable s p id prompt t.log := by
  refine iff_of_true ⟨sends_unsent (fun entry hmem => (h.plain entry hmem).chat), ?_⟩ ?_
  · rw [Outcome, h.uncommitted, if_neg Bool.false_ne_true, h.conversations]
  · intro hcommitted
    rw [h.uncommitted] at hcommitted
    cases hcommitted

/-- The prompt has just been committed on the record that was loaded. -/
structure Begun (s : Core Tree Unit) (p : ProjectId) (id : ConversationId) (prompt : String)
    (before c : PersistedConversation) (t : Watched Tree) : Prop where
  loaded : s.conversations.load p id = .ok (some before)
  room : ensureConversationModelTurnCapacity before prompt = .ok ()
  asked : before.appendMessage .user prompt = .ok (saying before .user prompt)
  record : c = { saying before .user prompt with
    turnPending := true, revision := before.revision + 1 }
  stored : Committed t.core.conversations p id c
  logged : promptCommitted t.log = true
  unsent : ∀ entry ∈ t.log, isChat entry.1 = false
  running : ∀ entry ∈ t.log, Entry.stops entry = false

/-- A loaded record is the stored one. -/
theorem wp_load (hio : ∀ w, admits w → w.world.ioFault = none) (h : Idle s t) :
    Wp (Watching config digest admits) () (ask (.loadConversation p id))
      (fun loaded u => Idle s u ∧ s.conversations.load p id = .ok loaded)
      (fun e u => Idle s u ∧ s.conversations.load p id = .error e) t := by
  refine wp_watch (fun w hw => ?_)
  have hpasses : Passes t (watch config digest w (.query (.loadConversation p id)) t).2 :=
    Unseen.passes ⟨rfl, rfl, rfl, rfl⟩ w
  have hidle := idle_tolerant t _ hpasses h
  have hanswer : (watch config digest w (.query (.loadConversation p id)) t).1 =
      s.conversations.load p id := by
    show Core.answer (raise t.core w.stops) w.world (.loadConversation p id) = _
    rw [Core.answer, hio w hw, orFault]
    show t.core.conversations.load p id = _
    rw [h.conversations]
  rw [hanswer]
  cases hload : s.conversations.load p id with
  | error e => exact ⟨hidle, rfl⟩
  | ok loaded => exact ⟨hidle, rfl⟩

/-- The opening of a turn commits the prompt, or leaves everything as it was. -/
theorem wp_openModelTurn (hio : ∀ w, admits w → w.world.ioFault = none) (h : Idle s t) :
    Wp (Watching config digest admits) () (openModelTurn config p id prompt)
      (fun c u => ∃ before, Begun s p id prompt before c u) (fun _ u => Idle s u) t := by
  have hunseen : ∀ q : Query, isChat (.query q) = false → isPoll (.query q) = false →
      Only Unseen (ask q) := fun q hchat hpoll => only_attempt ⟨rfl, hchat, hpoll, rfl⟩
  refine wp_result (fun _ _ => h) (fun _ _ => ?_)
  refine wp_unseen_then idle_tolerant (hunseen _ rfl rfl) h (fun _ _ hu => hu) (fun _ u hu => ?_)
  refine wp_unseen_then idle_tolerant (hunseen _ rfl rfl) hu (fun _ _ hv => hv) (fun _ v hv => ?_)
  refine wp_seq trivial (wp_load hio hv) ?_ (fun _ _ _ hidle => hidle.1)
  rintro loaded r - ⟨hidle, hload⟩
  refine wp_result (fun _ _ => hidle) (fun runnable hrunnable => ?_)
  obtain ⟨rfl, hcreated, -⟩ := runnableConversation_ok hrunnable
  refine wp_result (fun _ _ => hidle) (fun _ hroom => ?_)
  refine wp_result (fun _ _ => hidle) (fun asked hasked => ?_)
  refine wp_watch (fun w _ => ?_)
  have hload' : r.core.conversations.load p id = .ok (some runnable.1) := by
    rw [hidle.conversations]
    exact hload
  rcases exec_update_cases config digest () w.world (raise r.core w.stops) runnable.1.revision
    (asked.withPending true) with ⟨e, hexec, -⟩ | ⟨committed, hupdate, hexec⟩
  · -- refused: the log has the refusal, and nothing has changed
    rw [watch, hexec]
    refine ⟨hidle.conversations, fun entry hmem => ?_⟩
    rcases List.mem_append.mp hmem with hold | hnew
    · exact hidle.plain entry hold
    · rw [List.mem_singleton.mp hnew]
      exact ⟨rfl, rfl, rfl, rfl⟩
  · rw [watch, hexec]
    obtain ⟨hcommitted, heq⟩ := committed_of_update hload' hcreated hasked hupdate
    obtain ⟨-, -, -, rfl⟩ := PersistedConversation.appendMessage_ok hasked
    refine ⟨runnable.1, hload, hroom, hasked, heq, hcommitted, ?_, fun entry hmem => ?_,
      fun entry hmem => ?_⟩
    · rw [promptCommitted, List.any_append, List.any_cons]
      exact Bool.or_true _
    · rcases List.mem_append.mp hmem with hold | hnew
      · exact (hidle.plain entry hold).chat
      · rw [List.mem_singleton.mp hnew]
        rfl
    · rcases List.mem_append.mp hmem with hold | hnew
      · exact (hidle.plain entry hold).stop
      · rw [List.mem_singleton.mp hnew]
        rfl

/-! ## The inference -/

/-- The prompt is committed, nothing has been sent, and Stop has not been seen. -/
structure Waiting (table : ConversationTable) (t : Watched Tree) : Prop where
  conversations : t.core.conversations = table
  committed : promptCommitted t.log = true
  unsent : ∀ entry ∈ t.log, isChat entry.1 = false
  running : ∀ entry ∈ t.log, Entry.stops entry = false

/-- What the inference leaves: a reply that is accepted, or none. -/
structure Inferred (table : ConversationTable) (requestedModelId : String)
    (r : Result ModelInference) (t : Watched Tree) : Prop where
  conversations : t.core.conversations = table
  committed : promptCommitted t.log = true
  sends : Sends requestedModelId t.log
  reply : match r with
    | .ok inference => acceptedReply t.log = some inference.response.text ∧
        messageTextInvalid inference.response.text = false
    | .error _ => acceptedReply t.log = none

/-- One entry more while waiting. -/
theorem Waiting.snoc {table : ConversationTable} (h : Waiting table t) {entry : Entry}
    (hconversations : t'.core.conversations = t.core.conversations)
    (hlog : t'.log = t.log ++ [entry]) (hchat : isChat entry.1 = false)
    (hstop : entry.stops = false) : Waiting table t' := by
  refine ⟨hconversations.trans h.conversations, ?_, fun other hmem => ?_, fun other hmem => ?_⟩
  · rw [hlog, promptCommitted, List.any_append]
    rw [show t.log.any Entry.commitsPrompt = true from h.committed]
    exact Bool.true_or _
  · rw [hlog] at hmem
    rcases List.mem_append.mp hmem with hold | hnew
    · exact h.unsent other hold
    · rw [List.mem_singleton.mp hnew]
      exact hchat
  · rw [hlog] at hmem
    rcases List.mem_append.mp hmem with hold | hnew
    · exact h.running other hold
    · rw [List.mem_singleton.mp hnew]
      exact hstop

theorem any_stops_false {log : Log} (h : ∀ entry ∈ log, Entry.stops entry = false) :
    log.any Entry.stops = false := by
  rw [List.any_eq_false]
  intro entry hmem
  rw [h entry hmem]
  exact Bool.false_ne_true

theorem findSome?_reply_unsent {log : Log} (h : ∀ entry ∈ log, isChat entry.1 = false) :
    log.findSome? Entry.reply = none :=
  List.findSome?_eq_none_iff.mpr (fun entry hmem => reply_of_not_chat (h entry hmem))

/-- Giving up while waiting. -/
theorem Waiting.failed {table : ConversationTable} (h : Waiting table t) (e : VibeCoderError) :
    Inferred table requestedModelId (.error e) t where
  conversations := h.conversations
  committed := h.committed
  sends := sends_unsent h.unsent
  reply := by
    rw [acceptedReply, any_stops_false h.running, if_neg Bool.false_ne_true,
      findSome?_reply_unsent h.unsent]

/-- The inference as a future that may be polled at each of its operations: in between, the clock and
    the flag can be read while nothing has been sent. -/
abbrev Polled (config : CoreConfig) (digest : Tree → String) (admits : Outside Tree → Prop)
    (table : ConversationTable) :
    Setting Op (fun o => Result o.Val) Unit (Outside Tree) (Watched Tree) where
  exec := fun _ => watch config digest
  admits := admits
  inv := fun _ => True
  allowed := fun _ _ t => Waiting table t
  rely := fun _ t t' => t' = t ∨ (Waiting table t ∧ Waiting table t' ∧ t.log <+: t'.log)
  rely_refl := fun _ _ => Or.inl rfl
  rely_trans := by
    rintro i t u v (rfl | ⟨ht, hu, htu⟩) h
    · exact h
    · rcases h with rfl | ⟨-, hv, huv⟩
      · exact Or.inr ⟨ht, hu, htu⟩
      · exact Or.inr ⟨ht, hv, htu.trans huv⟩
  inv_step := fun _ _ _ => trivial
  rely_step := fun hne => absurd rfl hne

/-- Without a flag it is awaited as it is. -/
theorem safe_unpolled {β : Type} {table : ConversationTable}
    {q : Proc Op (fun o => Result o.Val) β} {R : β → Watched Tree → Prop} :
    ∀ {t}, Safe (Polled config digest admits table) () q R t →
      Safe (Watching config digest admits) () q R t := by
  induction q with
  | ret b => exact fun h => h
  | call o k ih =>
    intro t h
    refine ⟨trivial, fun w hw u hu _ => ih _ (h.2 w hw u (Or.inl ?_) trivial)⟩
    exact Eq.symm hu

/-- Stop was seen while waiting. -/
def Cut (table : ConversationTable) (flag : Flag) (t : Watched Tree) : Prop :=
  ∃ u : Watched Tree, Waiting table u ∧ t.core.conversations = u.core.conversations ∧
    t.log = u.log ++ [⟨.isRequested flag, .ok true⟩]

/-- A flag that has been set cuts the inference. -/
theorem Cut.inferred {table : ConversationTable} {flag : Flag} (h : Cut table flag t)
    (e : VibeCoderError) : Inferred table requestedModelId (.error e) t := by
  obtain ⟨u, hu, hconversations, hlog⟩ := h
  refine ⟨hconversations.trans hu.conversations, ?_, ?_, ?_⟩
  · rw [hlog, promptCommitted_snoc rfl]
    exact hu.committed
  · rw [hlog]
    exact (sends_unsent hu.unsent).snoc rfl rfl
  · show acceptedReply t.log = none
    rw [acceptedReply, hlog, List.any_append, List.any_cons]
    exact if_pos (Bool.or_true _)

/-- **Polling.**  Under a flag the future ends as it would without one, or is cut while it waits. -/
theorem safe_pollOrCancel {table : ConversationTable} {flag : Flag} {β : Type}
    {R : Result β → Watched Tree → Prop} (q : Proc Op (fun o => Result o.Val) (Result β)) :
    ∀ {t}, (∀ u, (Polled config digest admits table).rely () t u →
        Safe (Polled config digest admits table) () q R u) →
      Safe (Watching config digest admits) () (pollOrCancel flag q)
        (fun r u => R r u ∨ (r = .error .cancelled ∧ Cut table flag u)) t := by
  induction q with
  | ret r => exact fun h => Or.inl (h _ (Or.inl rfl))
  | call o k ih =>
    intro t h
    have hwaiting : Waiting table t := (h t (Or.inl rfl)).1
    -- the operation itself, from where the polls have led
    have hgo : ∀ u, Waiting table u → t.log <+: u.log →
        Safe (Watching config digest admits) () (.call o fun answer => pollOrCancel flag (k answer))
          (fun r v => R r v ∨ (r = .error .cancelled ∧ Cut table flag v)) u := by
      intro u hu hprefix
      refine ⟨trivial, fun w hw v hv _ => ?_⟩
      have hv' : (watch config digest w o u).2 = v := hv
      rw [← hv']
      refine ih _ (fun r hr => ?_)
      exact (h u (Or.inr ⟨hwaiting, hu, hprefix⟩)).2 w hw r hr trivial
    rw [pollOrCancel]
    refine ⟨trivial, fun w _ u hu _ => ?_⟩
    have hu' : (watch config digest w (.query .timeout) t).2 = u := hu
    have hpolled : Waiting table u ∧ t.log <+: u.log := by
      rw [← hu']
      exact ⟨hwaiting.snoc (watch_conversations rfl w) rfl rfl rfl, List.prefix_append _ _⟩
    have hclock : ((Watching config digest admits).exec () w (.query .timeout) t).1 =
        .ok w.world.timedOut := rfl
    rw [hclock]
    cases w.world.timedOut with
    | false => exact hgo u hpolled.1 hpolled.2
    | true =>
      refine ⟨trivial, fun w _ v hv _ => ?_⟩
      have hv' : (watch config digest w (.isRequested flag) u).2 = v := hv
      have hread : ((Watching config digest admits).exec () w (.isRequested flag) u).1 =
          .ok ((raise u.core w.stops).flags flag) := rfl
      rw [hread]
      cases hflag : (raise u.core w.stops).flags flag with
      | false =>
        have hentry : (watch config digest w (.isRequested flag) u).2.log =
            u.log ++ [⟨.isRequested flag, .ok false⟩] := by
          rw [← hflag]
          rfl
        rw [← hv']
        refine hgo _ (hpolled.1.snoc (watch_conversations rfl w) hentry rfl rfl) ?_
        exact hpolled.2.trans (List.prefix_append _ _)
      | true =>
        refine Or.inr ⟨rfl, u, hpolled.1, ?_, ?_⟩
        · rw [← hv']
          exact watch_conversations rfl w
        · rw [← hv', ← hflag]
          rfl

/-- An entry that leaves the record of the turn alone, and is no completion. -/
theorem waiting_query {table : ConversationTable} (h : Waiting table t) (q : Query)
    (hq : isChat (.query q) = false) (w : Outside Tree) :
    Waiting table (watch config digest w (.query q) t).2 :=
  h.snoc (watch_conversations rfl w) rfl hq rfl

/-- A query of the inference that is no completion. -/
theorem wp_waiting {table : ConversationTable} (q : Query) (hq : isChat (.query q) = false)
    (h : Waiting table t) :
    Wp (Polled config digest admits table) () (ask q)
      (fun v u => Waiting table u ∧ (⟨.query q, .ok v⟩ : Entry) ∈ u.log)
      (fun _ u => Waiting table u) t := by
  refine wp_attempt h (fun w _ u hu _ => ?_)
  have hstep : Waiting table (watch config digest w (.query q) t).2 := waiting_query h q hq w
  have hafter : Waiting table u ∧ (watch config digest w (.query q) t).2.log <+: u.log := by
    rcases hu with rfl | ⟨-, hu, hprefix⟩
    · exact ⟨hstep, List.prefix_refl _⟩
    · exact ⟨hu, hprefix⟩
  have hentry : (⟨.query q, (watch config digest w (.query q) t).1⟩ : Entry) ∈ u.log :=
    hafter.2.subset (List.mem_append_right _ List.mem_cons_self)
  show Post _ _ (watch config digest w (.query q) t).1 u
  cases hanswer : (watch config digest w (.query q) t).1 with
  | error e => exact hafter.1
  | ok v =>
    rw [hanswer] at hentry
    exact ⟨hafter.1, hentry⟩

theorem selectExactGatewayModel_ok {catalog : List ModelRef} {model : ModelRef}
    (h : selectExactGatewayModel catalog requestedModelId = .ok model) :
    catalog.filter (fun candidate => candidate.id == requestedModelId) = [model] := by
  rw [selectExactGatewayModel] at h
  split at h
  · cases h
  · rename_i found hfilter
    cases h
    exact hfilter
  · cases h

/-- A checked reply is a text that can be stored. -/
theorem validated_text {model : ModelRef} {response : GatewayChatResponse}
    (h : validateConversationModelResponse model response = .ok ()) :
    messageTextInvalid response.text = false :=
  (TurnCapacity.Validated.model model response h rfl).message

/-- The reply to the only completion of a log. -/
theorem acceptedReply_chat {log : Log} (request : GatewayChatRequest)
    (answer : Result GatewayChatResponse) (hunsent : ∀ entry ∈ log, isChat entry.1 = false)
    (hrunning : ∀ entry ∈ log, Entry.stops entry = false) :
    acceptedReply (log ++ [⟨.query (.chatCompletion request), answer⟩]) =
      Entry.reply ⟨.query (.chatCompletion request), answer⟩ := by
  have hstops : List.any (log ++ [⟨.query (.chatCompletion request), answer⟩]) Entry.stops =
      false := by
    rw [List.any_append, any_stops_false hrunning]
    rfl
  rw [acceptedReply, hstops, if_neg Bool.false_ne_true, List.findSome?_append,
    findSome?_reply_unsent hunsent, Option.none_or, List.findSome?_singleton]

/-- **The inference.**  It asks for one completion, of the selected model, and ends with the accepted
    reply or with none. -/
theorem wp_inference {table : ConversationTable} (conversation : PersistedConversation)
    (maxOutputTokens : Nat) (h : Waiting table t) :
    Wp (Polled config digest admits table) ()
      (conversationModelInference conversation requestedModelId maxOutputTokens)
      (fun inference u => Inferred table requestedModelId (.ok inference) u)
      (fun e u => Inferred table requestedModelId (.error e) u) t := by
  have hresult : ∀ {β : Type} {r : Result β} {f : β → CoreM ModelInference} {u : Watched Tree},
      Waiting table u → (∀ b, r = .ok b → Wp (Polled config digest admits table) () (f b)
        (fun inference u => Inferred table requestedModelId (.ok inference) u)
        (fun e u => Inferred table requestedModelId (.error e) u) u) →
      Wp (Polled config digest admits table) () (resume r >>= f)
        (fun inference u => Inferred table requestedModelId (.ok inference) u)
        (fun e u => Inferred table requestedModelId (.error e) u) u := by
    intro β r f u hu hf
    refine wp_bind (wp_resume ?_)
    cases r with
    | error e => exact hu.failed e
    | ok b => exact hf b rfl
  refine wp_seq trivial (wp_waiting .executionProfile rfl h) ?_ (fun e u _ hu => hu.failed e)
  rintro profile u - ⟨hu, -⟩
  refine hresult hu (fun _ _ => ?_)
  refine wp_seq trivial (wp_waiting .listGatewayModels rfl hu) ?_ (fun e u _ hu => hu.failed e)
  rintro catalog v - ⟨hv, hcatalog⟩
  refine hresult hv (fun model hmodel => hresult hv (fun context _ => ?_))
  have hselected := selectExactGatewayModel_ok hmodel
  obtain ⟨request, hrequest⟩ : ∃ request : GatewayChatRequest, request = {
      model := model
      messages := context.1
      maxOutputTokens := maxOutputTokens } := ⟨_, rfl⟩
  rw [← hrequest]
  have hmodelOf : request.model = model := by rw [hrequest]
  refine wp_bind (wp_attempt hv (fun w _ r hr _ => ?_))
  -- once the completion is answered nothing is polled any more
  have hsent : r = (watch config digest w (.query (.chatCompletion request)) v).2 := by
    rcases hr with hr | ⟨hwaiting, -, -⟩
    · exact hr
    · have hchat := hwaiting.unsent _ (List.mem_append_right _ List.mem_cons_self)
      cases hchat
  show Post _ _ (watch config digest w (.query (.chatCompletion request)) v).1 r
  have hlog : r.log = v.log ++ [⟨.query (.chatCompletion request),
      (watch config digest w (.query (.chatCompletion request)) v).1⟩] := by
    rw [hsent]
    rfl
  generalize (watch config digest w (.query (.chatCompletion request)) v).1 = answer at hlog ⊢
  have hconversations : r.core.conversations = table := by
    rw [hsent]
    exact (watch_conversations rfl w).trans hv.conversations
  have hcommitted : promptCommitted r.log = true := by
    rw [hlog, promptCommitted_snoc rfl]
    exact hv.committed
  have hsends : Sends requestedModelId r.log := by
    rw [hlog]
    exact sends_chat answer hv.unsent hcatalog (hmodelOf ▸ hselected)
  have hreply := acceptedReply_chat request answer hv.unsent hv.running
  rw [← hlog] at hreply
  cases answer with
  | error e => exact ⟨hconversations, hcommitted, hsends, hreply⟩
  | ok response =>
    have hreply : acceptedReply r.log =
        if (validateConversationModelResponse request.model response).isOk then
          some response.text
        else none := hreply
    rw [hmodelOf] at hreply
    refine wp_bind (wp_resume ?_)
    cases hvalid : validateConversationModelResponse model response with
    | error e =>
      rw [hvalid] at hreply
      exact ⟨hconversations, hcommitted, hsends, hreply⟩
    | ok checked =>
      rw [hvalid] at hreply
      exact ⟨hconversations, hcommitted, hsends, hreply, validated_text hvalid⟩

/-- A reading of the flag at the end: Stop rejects a reply that came in time. -/
theorem Inferred.reading {table : ConversationTable} {r : Result ModelInference} {flag : Flag}
    (h : Inferred table requestedModelId r t) (requested : Bool)
    (hconversations : t'.core.conversations = t.core.conversations)
    (hlog : t'.log = t.log ++ [⟨.isRequested flag, .ok requested⟩]) :
    Inferred table requestedModelId (if requested then .error .cancelled else r) t' := by
  refine ⟨hconversations.trans h.conversations, ?_, ?_, ?_⟩
  · rw [hlog, promptCommitted_snoc rfl]
    exact h.committed
  · rw [hlog]
    exact h.sends.snoc rfl rfl
  · cases requested with
    | true =>
      show acceptedReply t'.log = none
      rw [acceptedReply, hlog, List.any_append, List.any_cons]
      exact if_pos (Bool.or_true _)
    | false =>
      rw [hlog, acceptedReply_snoc rfl rfl]
      exact h.reply

theorem wp_isRequested {J : Bool → Watched Tree → Prop} (flag : Flag)
    (h : ∀ requested u, u.core.conversations = t.core.conversations →
      u.log = t.log ++ [⟨.isRequested flag, .ok requested⟩] → J requested u) :
    Wp (Watching config digest admits) () (act (.isRequested flag)) J E t := by
  refine wp_watch (fun w _ => ?_)
  exact h _ _ (watch_conversations rfl w) rfl

/-- The inference of a turn, with its flag or without one. -/
theorem wp_inferenceOrCancel {table : ConversationTable} (conversation : PersistedConversation)
    (maxOutputTokens : Nat) (cancellation : Option Flag) (h : Waiting table t) :
    Wp (Watching config digest admits) ()
      (inferenceOrCancel (conversationModelInference conversation requestedModelId maxOutputTokens)
        cancellation)
      (fun r u => Inferred table requestedModelId r u) E t := by
  have hpost : ∀ {u}, Waiting table u →
      Safe (Polled config digest admits table) ()
        (conversationModelInference conversation requestedModelId maxOutputTokens).run
        (fun r v => Inferred table requestedModelId r v) u := by
    intro u hu
    refine Safe.mono trivial (wp_inference conversation maxOutputTokens hu) (fun r v _ hr => ?_)
    cases r with
    | ok inference => exact hr
    | error e => exact hr
  cases cancellation with
  | none =>
    refine wp_settle (Safe.mono trivial (safe_unpolled (hpost h)) (fun r v _ hr => ?_))
    cases r with
    | ok inference => exact hr
    | error e => exact hr
  | some flag =>
    refine wp_seq_total trivial (R := fun r u => Inferred table requestedModelId r u) ?_ ?_
    · refine wp_settle (wp_bind (wp_isRequested flag (fun requested u hconversations hlog => ?_)))
      refine wp_bind (wp_resume ?_)
      cases requested with
      | true => exact Cut.inferred ⟨t, h, hconversations, hlog⟩ _
      | false =>
        have hu : Waiting table u := h.snoc hconversations hlog rfl rfl
        have hsafe : Safe (Watching config digest admits) () (pollOrCancel flag
            (conversationModelInference conversation requestedModelId maxOutputTokens).run)
            (fun r v => Inferred table requestedModelId r v ∨
              (r = .error .cancelled ∧ Cut table flag v)) u := by
          refine safe_pollOrCancel _ (fun v hv => ?_)
          rcases hv with rfl | ⟨-, hv, -⟩
          · exact hpost hu
          · exact hpost hv
        refine Safe.mono trivial hsafe (fun r v _ hr => ?_)
        rcases hr with hr | ⟨rfl, hcut⟩
        · cases r with
          | ok inference => exact hr
          | error e => exact hr
        · exact hcut.inferred _
    · rintro r u - hr
      refine wp_bind (wp_isRequested flag (fun requested v hconversations hlog => ?_))
      exact wp_pure (hr.reading requested hconversations hlog)

/-! ## The last update -/

/-- The store has a revision for the record, and room for its encoding. -/
def Fits (c : PersistedConversation) : Prop :=
  c.revision + 1 ≤ u64Max ∧
    { c with revision := c.revision + 1 }.encodedBytes ≤ maxPersistedConversationBytes

/-- One more plain entry. -/
def Logged (t t' : Watched Tree) : Prop := ∃ entry, Plain entry ∧ t'.log = t.log ++ [entry]

variable {before c settled : PersistedConversation}

/-- The update that ends a turn is refused exactly when the record does not fit. -/
theorem wp_lastUpdate (hio : ∀ w, admits w → w.world.ioFault = none)
    (hcommitted : Committed t.core.conversations p id c) (hvalid : settled.validate = .ok ())
    (hp : settled.projectId = c.projectId) (hid : settled.conversationId = c.conversationId)
    (hrev : settled.revision = c.revision) (hclear : settled.turnPending = false) :
    Wp (Watching config digest admits) () (act (.updateConversation c.revision settled))
      (fun _ u => Logged t u ∧ Fits settled ∧ u.core.conversations.record p id =
        some { settled with revision := settled.revision + 1 })
      (fun _ u => Logged t u ∧ ¬ Fits settled ∧
        u.core.conversations = t.core.conversations) t := by
  have hprepare := hcommitted.prepareUpdate hvalid hp hid hrev
  have hplain : ∀ answer : Result PersistedConversation,
      Plain ⟨.updateConversation c.revision settled, answer⟩ := by
    intro answer
    refine ⟨rfl, rfl, ?_, rfl⟩
    cases answer with
    | ok committed => exact hclear
    | error e => rfl
  refine wp_watch (fun w hw => ?_)
  rcases exec_update_cases config digest () w.world (raise t.core w.stops) c.revision settled with
    ⟨e, hexec, hwhy⟩ | ⟨committed, hupdate, hexec⟩
  · rw [watch, hexec]
    refine ⟨⟨_, hplain _, rfl⟩, fun hfits => ?_, rfl⟩
    -- no fault, so the store itself has refused
    have hrefused : t.core.conversations.prepareUpdate c.revision settled = .error e := by
      rw [hio w hw] at hwhy
      exact hwhy.resolve_left (fun hnone => by cases hnone)
    rw [hprepare, ConversationTable.commit, if_neg (by have := hfits.1; omega),
      if_neg (Nat.not_lt.mpr hfits.2)] at hrefused
    cases hrefused
  · rw [watch, hexec]
    have hupdate : t.core.conversations.prepareUpdate c.revision settled = .ok committed := hupdate
    have hput : (t.core.conversations.put committed).record p id = some committed := by
      have hput := (ConversationTable.put_record hupdate).1
      rw [hp, hid, hcommitted.project, hcommitted.conversation] at hput
      exact hput
    rw [hprepare] at hupdate
    obtain ⟨rfl, hlt, hbytes⟩ := ConversationTable.commit_ok hupdate
    exact ⟨⟨_, hplain _, rfl⟩, ⟨by omega, hbytes⟩, hput⟩

/-- What is to be stored, once the prompt is committed on a known record. -/
theorem storable_iff {log : Log} (hcommitted : promptCommitted log = true)
    (hrecord : s.conversations.record p id = some before) :
    Storable s p id prompt log ↔ before.revision + 2 ≤ u64Max ∧
      (ended before prompt (acceptedReply log)).encodedBytes ≤ maxPersistedConversationBytes := by
  constructor
  · exact fun h => h hcommitted before hrecord
  · intro h _ found hfound
    cases hrecord.symm.trans hfound
    exact h

/-- The prompt, and the reply if there is one. -/
def exchanged (prompt : String) : Option String → List (ConversationRole × String)
  | some text => [(.user, prompt), (.assistant, text)]
  | none => [(.user, prompt)]

theorem said_ended (before : PersistedConversation) (prompt : String) (reply : Option String) :
    (ended before prompt reply).said = before.said ++ exchanged prompt reply := by
  cases reply with
  | none =>
    show List.map _ (before.messages ++ _) = _
    rw [List.map_append]
    rfl
  | some text =>
    show List.map _ ((before.messages ++ _) ++ _) = _
    rw [List.map_append, List.map_append, List.append_assoc]
    rfl

/-- The record of a turn that has been begun, cleared. -/
theorem Begun.cleared (h : Begun s p id prompt before c t) :
    { c.withPending false with revision := (c.withPending false).revision + 1 } =
      ended before prompt none := by
  rw [h.record]
  rfl

/-- And with a reply. -/
theorem Begun.replied (h : Begun s p id prompt before c t) (text : String) :
    { saying (c.withPending false) .assistant text with
      revision := (saying (c.withPending false) .assistant text).revision + 1 } =
      ended before prompt (some text) := by
  rw [h.record]
  rfl

theorem Begun.stored_before (h : Begun s p id prompt before c t) :
    s.conversations.record p id = some before :=
  (ConversationTable.load_some h.loaded).1

/-- A turn whose end was stored is lawful. -/
theorem lawful_stored {r : Result ModelInference} {table : ConversationTable}
    {answer : Result ConversationModelTurnOutcome}
    (hrecord : s.conversations.record p id = some before)
    (hinferred : Inferred table requestedModelId r t) (hlogged : Logged t t')
    (hfits : before.revision + 2 ≤ u64Max ∧
      (ended before prompt (acceptedReply t.log)).encodedBytes ≤ maxPersistedConversationBytes)
    (hstored : t'.core.conversations.record p id =
      some (ended before prompt (acceptedReply t.log)))
    (hanswer : match answer with
      | .ok outcome => acceptedReply t.log = some outcome.assistantText
      | .error _ => acceptedReply t.log = none) :
    Lawful s p id requestedModelId prompt answer t' ↔ Storable s p id prompt t'.log := by
  obtain ⟨entry, hplain, hlog⟩ := hlogged
  have hcommitted : promptCommitted t'.log = true := by
    rw [hlog, promptCommitted_snoc hplain.commit]
    exact hinferred.committed
  have hreply : acceptedReply t'.log = acceptedReply t.log := by
    rw [hlog, acceptedReply_snoc hplain.chat hplain.stop]
  have hgained : Gained s t'.core p id (exchanged prompt (acceptedReply t.log)) false :=
    ⟨before, _, hrecord, hstored, said_ended before prompt _, rfl⟩
  refine iff_of_true ⟨?_, ?_⟩ ?_
  · rw [hlog]
    exact hinferred.sends.snoc hplain.chat hplain.poll
  · cases answer with
    | ok outcome =>
      rw [hanswer] at hgained
      exact ⟨hreply.trans hanswer, hgained⟩
    | error e =>
      rw [hanswer] at hgained
      rw [Outcome, hcommitted]
      exact hgained
  · rw [storable_iff hcommitted hrecord, hreply]
    exact hfits

/-- A turn whose end was refused is not: it has failed, and the marker is still set. -/
theorem lawful_refused {r : Result ModelInference} {table : ConversationTable}
    (hrecord : s.conversations.record p id = some before)
    (hinferred : Inferred table requestedModelId r t) (hlogged : Logged t t')
    (hkept : t'.core.conversations.record p id = some c) (hpending : c.turnPending = true)
    (hrefused : ¬ (before.revision + 2 ≤ u64Max ∧
      (ended before prompt (acceptedReply t.log)).encodedBytes ≤ maxPersistedConversationBytes))
    (e : VibeCoderError) :
    Lawful s p id requestedModelId prompt (.error e) t' ↔ Storable s p id prompt t'.log := by
  obtain ⟨entry, hplain, hlog⟩ := hlogged
  have hcommitted : promptCommitted t'.log = true := by
    rw [hlog, promptCommitted_snoc hplain.commit]
    exact hinferred.committed
  refine iff_of_false (fun hlawful => ?_) (fun hstorable => hrefused ?_)
  · have houtcome := hlawful.2
    rw [Outcome, hcommitted] at houtcome
    obtain ⟨-, after, -, hafter, -, hclear⟩ := houtcome
    cases hkept.symm.trans hafter
    rw [hpending] at hclear
    cases hclear
  · rw [storable_iff hcommitted hrecord, hlog, acceptedReply_snoc hplain.chat hplain.stop]
      at hstorable
    exact hstorable

/-- The end of a turn that has been begun. -/
theorem wp_closeModelTurn (hio : ∀ w, admits w → w.world.ioFault = none)
    {u : Watched Tree} (hbegun : Begun s p id prompt before c u) (r : Result ModelInference)
    (h : Inferred u.core.conversations requestedModelId r t) :
    Wp (Watching config digest admits) () (closeModelTurn c r)
      (fun a v => Lawful s p id requestedModelId prompt (.ok a) v ↔ Storable s p id prompt v.log)
      (fun e v => Lawful s p id requestedModelId prompt (.error e) v ↔
        Storable s p id prompt v.log) t := by
  have hrecord := hbegun.stored_before
  have hcommitted : Committed t.core.conversations p id c := by
    rw [h.conversations]
    exact hbegun.stored
  have hrevision : c.revision = before.revision + 1 := by rw [hbegun.record]
  have hkept : ∀ v : Watched Tree, v.core.conversations = t.core.conversations →
      v.core.conversations.record p id = some c := by
    intro v hv
    rw [hv]
    exact hcommitted.stored
  cases r with
  | ok inference =>
    obtain ⟨haccepted, htext⟩ := h.reply
    -- the room for the reply was checked before the prompt was committed
    obtain ⟨answered, hanswered⟩ := roomForTurn_append hbegun.room hbegun.asked htext false
    have hlimits := PersistedConversation.appendMessage_ok hanswered
    have happend : (c.withPending false).appendMessage .assistant inference.response.text =
        .ok (saying (c.withPending false) .assistant inference.response.text) := by
      rw [hbegun.record]
      exact PersistedConversation.appendMessage_eq .assistant htext hlimits.2.1 hlimits.2.2.1
    have hvalid := PersistedConversation.validate_answered hcommitted.valid hcommitted.created happend
    have hends : Fits (saying (c.withPending false) .assistant inference.response.text) ↔
        before.revision + 2 ≤ u64Max ∧
          (ended before prompt (acceptedReply t.log)).encodedBytes ≤
            maxPersistedConversationBytes := by
      rw [Fits, hbegun.replied, haccepted]
      show c.revision + 1 ≤ u64Max ∧ _ ↔ _
      rw [hrevision]
    refine wp_result (fun e he => ?_) (fun settled hsettled => ?_)
    · rw [happend] at he
      cases he
    · rw [happend] at hsettled
      cases hsettled
      refine wp_seq trivial (wp_lastUpdate hio hcommitted hvalid rfl rfl rfl rfl) ?_
        (fun e v _ hv => ?_)
      · rintro _ v - ⟨hlogged, hfits, hstored⟩
        refine wp_pure (lawful_stored hrecord h hlogged (hends.mp hfits) ?_ haccepted)
        rw [hstored, hbegun.replied, haccepted]
      · obtain ⟨hlogged, hrefused, hsame⟩ := hv
        exact lawful_refused hrecord h hlogged (hkept v hsame) hcommitted.pending
          (fun hfits => hrefused (hends.mpr hfits)) e
  | error error =>
    have haccepted : acceptedReply t.log = none := h.reply
    have hvalid := PersistedConversation.validate_cleared hcommitted.valid hcommitted.created
    have hends : Fits (c.withPending false) ↔ before.revision + 2 ≤ u64Max ∧
        (ended before prompt (acceptedReply t.log)).encodedBytes ≤
          maxPersistedConversationBytes := by
      rw [Fits, hbegun.cleared, haccepted]
      show c.revision + 1 ≤ u64Max ∧ _ ↔ _
      rw [hrevision]
    refine wp_bind (wp_bind (wp_settle (Wp.mono trivial
      (wp_lastUpdate hio hcommitted hvalid rfl rfl rfl rfl) (fun _ v _ hv => ?_)
      (fun _ v _ hv => ?_))))
    · obtain ⟨hlogged, hfits, hstored⟩ := hv
      refine wp_pure (wp_throw (lawful_stored hrecord h hlogged (hends.mp hfits) ?_ haccepted))
      rw [hstored, hbegun.cleared, haccepted]
    · obtain ⟨hlogged, hrefused, hsame⟩ := hv
      exact wp_throw (lawful_refused hrecord h hlogged (hkept v hsame) hcommitted.pending
        (fun hfits => hrefused (hends.mpr hfits)) _)

/-! ## The whole turn -/

/-- Giving the gate back changes nothing about the law. -/
theorem lawful_tolerant (answer : Result ConversationModelTurnOutcome) :
    Tolerant (fun u : Watched Tree => Lawful s p id requestedModelId prompt answer u ↔
      Storable s p id prompt u.log) := by
  intro t t' hpasses h
  obtain ⟨hcommitted, hreply⟩ := hpasses.reads
  have hstorable : Storable s p id prompt t'.log ↔ Storable s p id prompt t.log := by
    rw [Storable, Storable, hcommitted, hreply]
  have hlawful : Lawful s p id requestedModelId prompt answer t' ↔
      Lawful s p id requestedModelId prompt answer t := by
    have hsends : Sends requestedModelId t'.log ↔ Sends requestedModelId t.log := by
      refine ⟨fun hsends before after request reply heq => ?_, hpasses.sends⟩
      obtain ⟨entry, hplain, hlog⟩ := hpasses.log
      obtain ⟨hcatalog, hafter⟩ := hsends before (after ++ [entry]) request reply
        (by rw [hlog, heq, List.append_assoc, List.cons_append])
      exact ⟨hcatalog, fun other hmem => hafter other (List.mem_append_left _ hmem)⟩
    have houtcome : Outcome s p id prompt t' answer ↔ Outcome s p id prompt t answer := by
      cases answer with
      | ok outcome => rw [Outcome, Outcome, hreply, Gained, Gained, hpasses.conversations]
      | error e => rw [Outcome, Outcome, hcommitted, Gained, Gained, hpasses.conversations]
    exact and_congr hsends houtcome
  exact (hlawful.trans h).trans hstorable.symm

theorem wp_modelTurn (hio : ∀ w, admits w → w.world.ioFault = none) (p : ProjectId)
    (id : ConversationId) (requestedModelId : String) (maxOutputTokens : Nat) (prompt : String)
    (cancellation : Option Flag) (h : Idle s t) :
    Wp (Watching config digest admits) ()
      (runPersistedModelConversationTurnInner config p id requestedModelId maxOutputTokens prompt
        cancellation)
      (fun a v => Lawful s p id requestedModelId prompt (.ok a) v ↔ Storable s p id prompt v.log)
      (fun e v => Lawful s p id requestedModelId prompt (.error e) v ↔
        Storable s p id prompt v.log) t := by
  refine wp_result (fun e _ => h.lawful e) (fun _ _ => ?_)
  refine wp_result (fun e _ => h.lawful e) (fun _ _ => ?_)
  refine wp_result (fun e _ => h.lawful e) (fun _ _ => ?_)
  refine wp_underGate idle_tolerant h (fun e u hu => hu.lawful e)
    (fun a => lawful_tolerant (.ok a)) (fun e => lawful_tolerant (.error e)) (fun u hu => ?_)
  refine wp_seq trivial (wp_openModelTurn hio hu) ?_ (fun e v _ hv => hv.lawful e)
  rintro c v - ⟨before, hbegun⟩
  have hwaiting : Waiting v.core.conversations v :=
    ⟨rfl, hbegun.logged, hbegun.unsent, hbegun.running⟩
  refine wp_seq_total trivial (wp_inferenceOrCancel c maxOutputTokens cancellation hwaiting) ?_
  intro r x _ hr
  exact wp_closeModelTurn hio hbegun r hr

/-- **The outcome of a model turn.**  For every stored conversation, every behaviour of the gateway and
    of the workspace, and Stop at any time, while no store fails on I/O: the turn sends at most one
    completion and only to the unique entry, and it has exactly the lawful outcome for what it
    returned, if and only if the store can take the record that the turn ends with. -/
theorem model_turn_law_iff (config : CoreConfig) (digest : Tree → String) (w : Nat → Outside Tree)
    (hio : ∀ n, (w n).world.ioFault = none) (s : Core Tree Unit) (p : ProjectId)
    (id : ConversationId) (requestedModelId : String) (maxOutputTokens : Nat) (prompt : String)
    (cancellation : Option Flag) :
    let run := runAlone (watch config digest) w
      (runPersistedModelConversationTurnInner config p id requestedModelId maxOutputTokens prompt
        cancellation) 0 { core := s, log := [] }
    Lawful s p id requestedModelId prompt run.1 run.2.2 ↔ Storable s p id prompt run.2.2.log := by
  intro run
  have hidle : Idle s { core := s, log := [] } :=
    ⟨rfl, fun _ hmem => absurd hmem List.not_mem_nil⟩
  exact wp_ran (R := fun r t => Lawful s p id requestedModelId prompt r t ↔
      Storable s p id prompt t.log) hio
    (wp_modelTurn (fun _ hw => hw) p id requestedModelId maxOutputTokens prompt cancellation hidle)
    run rfl

end VibeCoder.ModelTurn
