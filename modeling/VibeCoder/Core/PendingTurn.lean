/-
  A pending action turn or loop, alone on the core, from its opening to its recovery.

  * `Opened`   — how the turn was opened: the record it found, the prompt it committed, the
    baseline it took;
  * `Turning`  — what holds while it is pending: its own record and baseline are there, and
    nothing else has touched the stores;
  * `Unobstructed` — nothing outside refuses a recovery;
  * `Undone`   — what a recovered turn leaves;
  * `wp_openAgentActionTurn`, `Turning.backend`, `Turning.verification`, `wp_recoverPendingTurn` —
    the parts an action turn and a loop share.
-/
import VibeCoder.Core.Recovery

namespace VibeCoder

open Resume

variable {Tree : Type} {config : CoreConfig} {digest : Tree → String} {U tidy : Prop}
variable {s t : Core Tree Unit} {p : ProjectId} {id : ConversationId} {prompt : String}
variable {opened : OpenedAction}

/-! ## What a turn leaves -/

/-- The messages of a conversation, by role and text. -/
def PersistedConversation.said (c : PersistedConversation) : List (ConversationRole × String) :=
  c.messages.map (fun message => (message.role, message.text))

theorem PersistedConversation.said_append {c c' : PersistedConversation} {role : ConversationRole}
    {text : String} (h : c.appendMessage role text = .ok c') : c'.said = c.said ++ [(role, text)] := by
  obtain ⟨-, -, -, rfl⟩ := appendMessage_ok h
  rw [said, List.map_append]
  rfl

/-- Between two states a conversation gained exactly these messages, and its marker is now
    `pending`. -/
def Gained (s t : Core Tree Unit) (p : ProjectId) (id : ConversationId)
    (messages : List (ConversationRole × String)) (pending : Bool) : Prop :=
  ∃ before after, s.conversations.record p id = some before ∧
    t.conversations.record p id = some after ∧ after.said = before.said ++ messages ∧
    after.turnPending = pending

/-- A turn that failed and was recovered: the tree is the one before the turn, and the conversation
    has its prompt without the marker. -/
structure Undone (s t : Core Tree Unit) (p : ProjectId) (id : ConversationId)
    (prompt : String) : Prop where
  tree : t.tree p = s.tree p
  messages : Gained s t p id [(.user, prompt)] false

/-- Every checkpoint in the store was there before the turn. -/
def NoNewCheckpoint (s t : Core Tree Unit) : Prop :=
  ∀ x ∈ t.checkpoints.snapshots, x.metadata.checkpointId.serial < s.checkpoints.next

/-- Nothing outside refuses a recovery: the workspace and the process runtime answer, the agent
    settles and refreshes on a workspace, the other conversations of the project are settled, and
    the store can take the record with the prompt once more.  What the agent and the gateway do
    beyond that is left open. -/
structure Unobstructed (config : CoreConfig) (w : Nat → World Tree) (s : Core Tree Unit)
    (p : ProjectId) (id : ConversationId) (prompt : String) : Prop where
  answers : ∀ n, (w n).fault = none ∧ (w n).refusal = none ∧ (w n).activeProcesses = 0
  settled : Settled config s p
  fits : ∀ before asked, s.conversations.record p id = some before →
    before.appendMessage .user prompt = .ok asked →
    ∃ c, ConversationTable.commit
      { asked with turnPending := false, revision := before.revision + 1 } = .ok c

/-! ## A turn in progress -/

/-- The record the turn found, with the prompt appended and the marker set. -/
structure Opened (config : CoreConfig) (digest : Tree → String) (s : Core Tree Unit)
    (p : ProjectId) (id : ConversationId) (prompt : String) (opened : OpenedAction)
    (before : PersistedConversation) (session : PersistedAgentSession) : Prop where
  loaded : s.conversations.load p id = .ok (some before)
  owned : before.agentSession = some session
  handed : opened.session = session.sessionId
  room : ensureConversationAgentActionCapacity before prompt = .ok ()
  conversation : ∃ asked, before.appendMessage .user prompt = .ok asked ∧
    opened.conversation = { asked with turnPending := true, revision := before.revision + 1 }
  baseline : opened.checkpoint.treeSha256 = digest (s.tree p)
  store : config.checkpointStore = true

/-- While the turn is pending.  `tidy` says that no verification checkpoint but `extra` has been
    left behind. -/
structure Turning (tidy : Prop) (s : Core Tree Unit) (p : ProjectId) (id : ConversationId)
    (opened : OpenedAction) (extra : Option CheckpointId) (t : Core Tree Unit) : Prop where
  gate : t.gate p = none
  committed : Committed t.conversations p id opened.conversation
  others : ∀ id', id' ≠ id → t.conversations.record p id' = s.conversations.record p id'
  ids : t.conversations.ids = s.conversations.ids
  states : t.projectStates = s.projectStates
  baseline : ∃ x, t.checkpoints.get p opened.checkpoint.checkpointId = some x ∧
    x.tree = s.tree p
  leftover : tidy → ∀ x ∈ t.checkpoints.snapshots,
    x.metadata.checkpointId.serial < s.checkpoints.next ∨
      CheckpointTable.isAt p opened.checkpoint.checkpointId x = true ∨
        ∃ k, extra = some k ∧ CheckpointTable.isAt p k x = true

/-- The committed record has the prompt after everything that was there. -/
theorem Opened.said {before : PersistedConversation} {session : PersistedAgentSession}
    (h : Opened config digest s p id prompt opened before session) :
    opened.conversation.said = before.said ++ [(.user, prompt)] := by
  obtain ⟨asked, hasked, heq⟩ := h.conversation
  have hsaid := PersistedConversation.said_append hasked
  rw [heq]
  exact hsaid

/-- A record that says what the committed one does, and more. -/
theorem Opened.gained {before : PersistedConversation} {session : PersistedAgentSession}
    (h : Opened config digest s p id prompt opened before session)
    {after : PersistedConversation} {messages : List (ConversationRole × String)} {pending : Bool}
    (hrecord : t.conversations.record p id = some after)
    (hsaid : after.said = opened.conversation.said ++ messages)
    (hpending : after.turnPending = pending) :
    Gained s t p id ((.user, prompt) :: messages) pending := by
  refine ⟨before, after, (ConversationTable.load_some h.loaded).1, hrecord, ?_, hpending⟩
  rw [hsaid, h.said, List.append_assoc]
  rfl

/-- The committed record keeps its session. -/
theorem Opened.session {before : PersistedConversation} {session : PersistedAgentSession}
    (h : Opened config digest s p id prompt opened before session) :
    opened.conversation.agentSession = some session := by
  obtain ⟨asked, hasked, heq⟩ := h.conversation
  obtain ⟨-, -, -, rfl⟩ := PersistedConversation.appendMessage_ok hasked
  rw [heq]
  exact h.owned

/-! ## Opening -/

/-- The demands on the agent change nothing. -/
theorem wp_requireAgentActionRuntime (commandToolsCode bridgeCode : String) :
    Wp (Undisturbed config digest U) ()
      (requireAgentActionRuntime config commandToolsCode bridgeCode)
      (fun _ t => t = s) (fun _ t => t = s) s := by
  refine wp_ask_any (fun _ => rfl) (fun capabilities => ?_)
  refine wp_failIf (fun _ => rfl) (fun _ => wp_failIf (fun _ => rfl) (fun _ => ?_))
  refine wp_resume_then (fun _ _ => rfl) (fun bridge _ => wp_resume ?_)
  split
  · exact rfl
  · exact rfl

/-- A prompt that passed its check can be stored as a message. -/
theorem prompt_valid (h : validateConversationModelPrompt prompt = .ok ()) :
    messageTextInvalid prompt = false := by
  rw [validateConversationModelPrompt] at h
  split at h
  · cases h
  · rename_i hvalid
    rw [Bool.not_eq_true, Bool.or_eq_false_iff, Bool.or_eq_false_iff, decide_eq_false_iff_not]
      at hvalid
    obtain ⟨⟨hblank, hlen⟩, hnul⟩ := hvalid
    have hempty : prompt.isEmpty = false := by
      cases hempty : prompt.isEmpty with
      | false => rfl
      | true =>
        rw [String.isEmpty_iff.mp hempty] at hblank
        exact absurd hblank (by decide)
    have hmax : maxConversationModelMessageBytes ≤ maxConversationMessageBytes := by decide
    rw [messageTextInvalid, hempty, hnul, Bool.false_or, Bool.or_false, decide_eq_false_iff_not]
    omega

/-- A conversation with room for a turn takes the prompt. -/
theorem room_append {before : PersistedConversation}
    (hroom : ensureConversationAgentActionCapacity before prompt = .ok ())
    (hprompt : messageTextInvalid prompt = false) :
    ∃ asked, before.appendMessage .user prompt = .ok asked := by
  rw [ensureConversationAgentActionCapacity, roomForTurn] at hroom
  split at hroom
  · cases hroom
  · rename_i hcount
    split at hroom
    · cases hroom
    · rename_i hbytes
      have hmax : maxConversationMessages = 4096 := rfl
      exact ⟨_, PersistedConversation.appendMessage_eq .user hprompt (by omega) (by omega)⟩

/-- A checkpoint that is removed again leaves only older ones. -/
theorem noNew_add_remove (table : CheckpointTable Tree) (p : ProjectId) (reason : CheckpointReason)
    (treeSha256 : String) (tree : Tree) :
    ∀ x ∈ ((table.add p reason treeSha256 tree).remove p ⟨table.next⟩).snapshots,
      x.metadata.checkpointId.serial < table.next := by
  intro x hx
  obtain ⟨hin, hkept⟩ := List.mem_filter.mp hx
  rcases List.mem_append.mp hin with hold | hnew
  · exact table.numbered x hold
  · rw [List.mem_singleton.mp hnew] at hkept
    rw [Bool.not_eq_true', ← Bool.not_eq_true, CheckpointTable.isAt_iff] at hkept
    exact absurd ⟨rfl, rfl⟩ hkept

/-- An opened turn is pending, and a refused one has left nothing behind. -/
theorem wp_openAgentActionTurn (hprompt : messageTextInvalid prompt = false) :
    Wp (Undisturbed config digest U) () (openAgentActionTurn config p id prompt)
      (fun opened t => (∃ before session,
        Opened config digest s p id prompt opened before session) ∧
        Turning True s p id opened none t)
      (fun _ t => t.conversations = s.conversations ∧ NoNewCheckpoint s t) s := by
  have hold : NoNewCheckpoint s s := s.checkpoints.numbered
  refine wp_lifecycle_alone (fun _ _ => ⟨rfl, hold⟩) (fun _ => ?_)
  refine wp_ask_any (fun _ => ⟨rfl, hold⟩) (fun _ => wp_ask_any (fun _ => ⟨rfl, hold⟩) (fun _ => ?_))
  refine wp_bind (wp_ask (fun w hw => ?_))
  rw [Core.answer, hw.1, orFault]
  cases hload : s.conversations.load p id with
  | error e => exact ⟨rfl, hold⟩
  | ok loaded =>
    refine wp_resume_then (fun _ _ => ⟨rfl, hold⟩) (fun runnable hrunnable => ?_)
    obtain ⟨rfl, hcreated, -, howned, -⟩ := runnableConversation_ok hrunnable
    refine wp_resume_then (fun _ _ => ⟨rfl, hold⟩) (fun _ hroom => ?_)
    refine wp_ask_any (fun _ => ⟨rfl, hold⟩) (fun _ => ?_)
    refine wp_ensureNoActive (fun _ _ => ⟨rfl, hold⟩) ?_
    refine wp_ask_any (fun _ => ⟨rfl, hold⟩) (fun _ => ?_)
    refine wp_failIf (fun _ => ⟨rfl, hold⟩) (fun hstore => ?_)
    have hstore' : config.checkpointStore = true := by simpa using hstore
    refine wp_bind (wp_alone (fun w _ => ?_))
    rw [exec]
    cases hfault : w.fault <|> w.ioFault <|> w.refusal with
    | some e => exact ⟨rfl, hold⟩
    | none =>
      rw [guarded, Core.createCheckpoint]
      split
      · exact ⟨rfl, hold⟩
      · -- the baseline is taken; the prompt cannot be refused, so only the update can
        obtain ⟨asked, hasked⟩ := room_append hroom hprompt
        refine wp_resume_then (fun e he => ?_) (fun asked' hasked' => ?_)
        · rw [hasked] at he
          cases he
        · rw [hasked] at hasked'
          cases hasked'
          refine wp_bind (wp_settle (wp_alone (fun w hw => ?_)))
          have hget := CheckpointTable.get_add_self s.checkpoints p .beforeAgentChange
            (digest (s.tree p)) (s.tree p)
          rcases exec_update_cases config digest () w _ runnable.1.revision
            (asked.withPending true) with ⟨e, hexec, -⟩ | ⟨committed, hupdate, hexec⟩
          · rw [hexec]
            refine wp_bind (wp_settle (wp_alone (fun w hw => ?_)))
            rw [exec, hw.1, guarded, Core.removeCheckpoint, CheckpointTable.metadata]
            dsimp only
            rw [hget]
            exact wp_throw ⟨rfl, noNew_add_remove s.checkpoints p .beforeAgentChange _ _⟩
          · rw [hexec]
            obtain ⟨hcommitted, heq⟩ := committed_of_update hload hcreated hasked hupdate
            refine wp_pure ⟨⟨runnable.1, runnable.2, hload, howned, rfl, hroom, ⟨asked, hasked, heq⟩,
              rfl, hstore'⟩, ?_⟩
            have hkey := ConversationTable.load_some hload
            have hput := (ConversationTable.put_record hupdate).2
            obtain ⟨-, -, -, rfl⟩ := PersistedConversation.appendMessage_ok hasked
            exact {
              gate := Function.update_self ..
              committed := hcommitted
              others := fun id' hne => hput p id' (fun h => hne (h.2.trans hkey.2.2.2.1))
              ids := rfl
              states := rfl
              baseline := ⟨_, hget, rfl⟩
              leftover := fun _ x hx => by
                rcases List.mem_append.mp hx with hold | hnew
                · exact Or.inl (s.checkpoints.numbered x hold)
                · rw [List.mem_singleton.mp hnew]
                  exact Or.inr (Or.inl (CheckpointTable.isAt_iff.mpr ⟨rfl, rfl⟩)) }

/-! ## While it is pending -/

/-- A backend task leaves the turn pending. -/
theorem Turning.backend {extra : Option CheckpointId} {session : SessionId}
    {policy : ModelRoutePolicyConfig} {text : String} (h : Turning tidy s p id opened extra t) :
    Wp (Undisturbed config digest U) () (runBackendTask config p session policy text)
      (fun _ r => Turning tidy s p id opened extra r)
      (fun _ r => Turning tidy s p id opened extra r) t := by
  have hkept : ∀ r, Kept t r ∧ (t.gate p = none → r.gate p = none) →
      Turning tidy s p id opened extra r := by
    intro r hr
    exact {
      gate := hr.2 h.gate
      committed := by rw [hr.1.conversations]; exact h.committed
      others := by rw [hr.1.conversations]; exact h.others
      ids := by rw [hr.1.conversations]; exact h.ids
      states := by rw [hr.1.projectStates]; exact h.states
      baseline := by rw [hr.1.checkpoints]; exact h.baseline
      leftover := by rw [hr.1.checkpoints]; exact h.leftover }
  exact Wp.mono trivial (wp_runBackendTask session policy text) (fun _ r _ hr => hkept r hr)
    (fun _ r _ hr => hkept r hr)

/-- A verification checkpoint is a new one, of the present tree. -/
theorem Turning.verification (h : Turning tidy s p id opened none t) :
    Wp (Undisturbed config digest U) ()
      (createProjectCheckpoint config p .agentChangeVerification)
      (fun m r => Turning tidy s p id opened (some m.checkpointId) r ∧
        m.treeSha256 = digest (r.tree p) ∧ m.checkpointId ≠ opened.checkpoint.checkpointId)
      (fun _ r => Turning tidy s p id opened none r) t := by
  refine Wp.mono trivial (wp_createProjectCheckpoint h.gate) (fun m r _ hr => ?_)
    (fun _ r _ hr => ?_)
  · obtain ⟨hgate, hconversations, hstates, htree, rfl, hcheckpoints⟩ := hr
    obtain ⟨x, hx, hxtree⟩ := h.baseline
    have hserial : opened.checkpoint.checkpointId.serial < t.checkpoints.next := by
      have hmem := CheckpointTable.get_mem hx
      have hlt := t.checkpoints.numbered x hmem.1
      rwa [hmem.2.2] at hlt
    refine ⟨{
      gate := hgate
      committed := by rw [hconversations]; exact h.committed
      others := by rw [hconversations]; exact h.others
      ids := by rw [hconversations]; exact h.ids
      states := by rw [hstates]; exact h.states
      baseline := ⟨x, by rw [hcheckpoints]; exact CheckpointTable.get_add hx _ _ _ _, hxtree⟩
      leftover := fun htidy y hy => ?_ }, by rw [htree]; rfl, fun heq => ?_⟩
    · rw [hcheckpoints] at hy
      rcases List.mem_append.mp hy with hold | hnew
      · rcases h.leftover htidy y hold with hbefore | hbaseline | ⟨k, hnone, -⟩
        · exact Or.inl hbefore
        · exact Or.inr (Or.inl hbaseline)
        · cases hnone
      · rw [List.mem_singleton.mp hnew]
        exact Or.inr (Or.inr ⟨_, rfl, CheckpointTable.isAt_iff.mpr ⟨rfl, rfl⟩⟩)
    · rw [← heq] at hserial
      exact Nat.lt_irrefl _ hserial
  · obtain ⟨hgate, hkept⟩ := hr
    exact {
      gate := hgate
      committed := by rw [hkept.conversations]; exact h.committed
      others := by rw [hkept.conversations]; exact h.others
      ids := by rw [hkept.conversations]; exact h.ids
      states := by rw [hkept.projectStates]; exact h.states
      baseline := by rw [hkept.checkpoints]; exact h.baseline
      leftover := by rw [hkept.checkpoints]; exact h.leftover }

/-- Dropping the verification checkpoint keeps the baseline. -/
theorem Turning.drop {k : CheckpointId} (h : Turning U s p id opened (some k) t)
    (hne : k ≠ opened.checkpoint.checkpointId) (hstore : config.checkpointStore = true) :
    Wp (Undisturbed config digest U) () (tryRemoveProjectCheckpoint config p k)
      (fun _ r => Turning U s p id opened none r) (fun _ _ => False) t := by
  refine Wp.mono trivial (wp_tryRemove hstore) (fun removed r _ hr => ?_) (fun _ _ _ hr => hr)
  obtain ⟨table, rfl, hshape, hgone⟩ := hr
  obtain ⟨x, hx, hxtree⟩ := h.baseline
  refine {
    gate := h.gate
    committed := h.committed
    others := h.others
    ids := h.ids
    states := h.states
    baseline := ⟨x, ?_, hxtree⟩
    leftover := fun hU y hy => ?_ }
  · rcases hshape with rfl | rfl
    · exact hx
    · exact CheckpointTable.get_remove hx hne
  · have hin : y ∈ t.checkpoints.snapshots := by
      rcases hshape with rfl | rfl
      · exact hy
      · exact List.mem_of_mem_filter hy
    rcases h.leftover hU y hin with hbefore | hbaseline | ⟨k', hk', hat⟩
    · exact Or.inl hbefore
    · exact Or.inr (Or.inl hbaseline)
    · cases hk'
      rw [hgone (Or.inr hU) y hy] at hat
      cases hat

/-- An opened turn that is pending in a settled project can be rolled back. -/
theorem Turning.ready {extra : Option CheckpointId} {before : PersistedConversation}
    {session : PersistedAgentSession} (h : Turning tidy s p id opened extra t)
    (hopened : Opened config digest s p id prompt opened before session)
    (hsettled : Settled config s p) : Ready config t p (id, session.sessionId) := by
  exact hsettled.ready hopened.loaded h.committed hopened.owned hopened.session h.states h.ids
    h.others

/-! ## Recovering -/

/-- Both checkpoints of a turn are dropped.  Unless a removal reports a failure, and in any case
    when nothing obstructs them, none is left. -/
theorem wp_cleanup {α : Type} {Q : α → Core Tree Unit → Prop}
    {E : VibeCoderError → Core Tree Unit → Prop} {extra : Option CheckpointId}
    {baseline : CheckpointId} {f : Bool → Bool → CoreM α} (s : Core Tree Unit) (tidy : Prop)
    (hstore : config.checkpointStore = true)
    (hleft : tidy → ∀ x ∈ t.checkpoints.snapshots,
      x.metadata.checkpointId.serial < s.checkpoints.next ∨
        CheckpointTable.isAt p baseline x = true ∨
          ∃ k, extra = some k ∧ CheckpointTable.isAt p k x = true)
    (h : ∀ a b table, (tidy → (a = true ∧ b = true) ∨ U →
      NoNewCheckpoint s { t with checkpoints := table }) →
      Wp (Undisturbed config digest U) () (f a b) Q E { t with checkpoints := table }) :
    Wp (Undisturbed config digest U) ()
      (tryRemoveVerification config p extra >>= fun a =>
        tryRemoveProjectCheckpoint config p baseline >>= fun b => f a b) Q E t := by
  -- the verification checkpoint, if there is one
  have hfirst : Wp (Undisturbed config digest U) () (tryRemoveVerification config p extra)
      (fun a r => ∃ table, r = { t with checkpoints := table } ∧
        (∀ x ∈ table.snapshots, x ∈ t.checkpoints.snapshots) ∧
        (a = true ∨ U → ∀ k, extra = some k → ∀ x ∈ table.snapshots,
          CheckpointTable.isAt p k x = false))
      (fun _ _ => False) t := by
    cases extra with
    | none =>
      refine wp_pure ⟨t.checkpoints, rfl, fun _ hx => hx, fun _ k hk => ?_⟩
      cases hk
    | some k =>
      refine Wp.mono trivial (wp_tryRemove hstore) (fun a r _ hr => ?_) (fun _ _ _ hr => hr)
      obtain ⟨table, rfl, hshape, hgone⟩ := hr
      refine ⟨table, rfl, fun x hx => ?_, fun hdone k' hk' => ?_⟩
      · rcases hshape with rfl | rfl
        · exact hx
        · exact List.mem_of_mem_filter hx
      · cases hk'
        exact hgone hdone
  refine wp_seq trivial hfirst (fun a r _ hr => ?_) (fun _ _ _ hr => hr.elim)
  obtain ⟨table, rfl, hsub, hgone⟩ := hr
  refine wp_seq trivial (wp_tryRemove hstore) (fun b r _ hr => ?_) (fun _ _ _ hr => hr.elim)
  obtain ⟨table', rfl, hshape, hgone'⟩ := hr
  refine h a b table' (fun htidy hdone x hx => ?_)
  have hin : x ∈ table.snapshots := by
    rcases hshape with rfl | rfl
    · exact hx
    · exact List.mem_of_mem_filter hx
  rcases hleft htidy x (hsub x hin) with hbefore | hbaseline | ⟨k, hk, hat⟩
  · exact hbefore
  · have hno := hgone' (hdone.imp_left (fun hab => hab.2)) x hx
    rw [hbaseline] at hno
    cases hno
  · have hno := hgone (hdone.imp_left (fun hab => hab.1)) k hk x hin
    rw [hat] at hno
    cases hno

/-- What a turn needs to be recovered. -/
structure Recovers (config : CoreConfig) (digest : Tree → String) (U : Prop) (s : Core Tree Unit)
    (p : ProjectId) (id : ConversationId) (prompt : String) (opened : OpenedAction)
    (before : PersistedConversation) (session : PersistedAgentSession) : Prop where
  start : Opened config digest s p id prompt opened before session
  store : config.conversationStore = true
  settled : U → Settled config s p
  fits : U → ∃ c, ConversationTable.commit (opened.conversation.withPending false) = .ok c

/-- **The recovery of a pending turn.**  It restores the tree, clears the marker and drops the
    checkpoints; or it fails under one of its two codes with the marker preserved, which nothing
    but an exhausted epoch makes it do when the outside does not obstruct it. -/
theorem wp_recoverPendingTurn {extra : Option CheckpointId} {before : PersistedConversation}
    {session : PersistedAgentSession} (hrec : Recovers config digest U s p id prompt opened before session)
    (h : Turning tidy s p id opened extra t) (rollbackCode cleanupCode : String) :
    Wp (Undisturbed config digest U) ()
      (recoverPendingTurn config p opened.conversation session.sessionId
        opened.checkpoint.checkpointId extra rollbackCode cleanupCode)
      (fun _ r => Undone s r p id prompt ∧ (tidy → U → NoNewCheckpoint s r))
      (fun e r => (e = checkpointError rollbackCode ∨ e = persistenceError cleanupCode) ∧
        Gained s r p id [(.user, prompt)] true ∧ (U → Exhausted r p)) t := by
  obtain ⟨x, hx, hxtree⟩ := h.baseline
  have hrollback := wp_rollback digest h.gate hx (fun hU => h.ready hrec.start (hrec.settled hU))
    hrec.store hrec.start.store
  rw [← h.committed.conversation] at hrollback
  refine wp_bind (wp_mapError (Wp.mono trivial hrollback (fun _ r _ hr => ?_) (fun _ r _ hr => ?_)))
  · obtain ⟨hkept, -, htree⟩ := hr
    have hcommitted : Committed r.conversations p id opened.conversation := by
      rw [hkept.conversations]
      exact h.committed
    have hvalid := PersistedConversation.validate_cleared hcommitted.valid hcommitted.created
    refine wp_bind (wp_mapError (Wp.mono trivial (wp_settleUpdate hcommitted hvalid rfl rfl rfl)
      (fun _ r' _ hr' => ?_) (fun _ r' _ hr' => ?_)))
    · obtain ⟨-, ⟨table, rfl⟩, hrecord⟩ := hr'
      refine wp_cleanup s tidy hrec.start.store (fun htidy y hy => ?_) (fun _ _ _ hnone => wp_pure ?_)
      · rw [hkept.checkpoints] at hy
        exact h.leftover htidy y hy
      · refine ⟨⟨htree.trans hxtree, ?_⟩, fun htidy hU => hnone htidy (Or.inr hU)⟩
        exact hrec.start.gained hrecord (List.append_nil _).symm rfl
    · obtain ⟨rfl, hrefused⟩ := hr'
      refine ⟨Or.inr rfl, hrec.start.gained hcommitted.stored (List.append_nil _).symm
        hcommitted.pending, fun hU => ?_⟩
      obtain ⟨c, hc⟩ := hrec.fits hU
      rw [hrefused] at hc
      cases hc
  · obtain ⟨hkept, -, hexhausted⟩ := hr
    refine ⟨Or.inl rfl, ?_, hexhausted⟩
    have hstored : r.conversations.record p id = some opened.conversation := by
      rw [hkept.conversations]
      exact h.committed.stored
    exact hrec.start.gained hstored (List.append_nil _).symm h.committed.pending

/-! ## A small project -/

/-- A core with one empty conversation, whose trees are written or not. -/
def emptyCore : Core Bool Unit :=
  .fresh (.single (emptyConversation ⟨0⟩ ⟨1⟩ "session_1")) false

/-- A digest that tells the two trees apart. -/
def digestOf (tree : Bool) : String := if tree then "written" else "empty"

/-- An agent that writes one file, reports it, and answers `text`. -/
def writing (text : String) : World Bool :=
  { World.calm text (fun _ => true) with
    events := [.toolStarted "write" "call_1", .toolFinished "write" "call_1" true "" none]
    turn := .ok {
      text := text
      cancelled := false
      toolCalls := [{ callId := "call_1", tool := "write", output := "", error := none }]
      usage := none } }

/-- An agent whose turn fails after it has written, and which is not quiescent at step `busy`. -/
def restless (busy n : Nat) : World Bool :=
  { World.calm "" (fun _ => true) with
    turn := .error (.agent "turn_failed")
    fault := if n = busy then some (.agent "workspace_not_quiescent") else none }

end VibeCoder
