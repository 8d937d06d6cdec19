/-
  The context of a model turn after any history of turns.

  Many calls share one core: conversation, model, action and loop turns, each with its failures and
  its cancellation, and anything else that writes no conversation.  They take their operations in any
  order, and any of them can be dropped at any operation.

  1. **A write** — `Speaks`: every record a call hands to the store is `Prompted`.
  2. **A call** — the opening of a turn returns a record that has just been asked (`Asked`); from
     then on all its writes are read off that record, whatever the others do in between.
  3. **A run** — `prompted_run`: every stored record is `Prompted` all along, and so
     `gateway_context_law`.
-/
import VibeCoder.Core.Alone
import VibeCoder.Core.ModelContext
import VibeCoder.Lib.Run

namespace VibeCoder

open Resume

variable {Tree ι α β : Type} {config : CoreConfig} {digest : Tree → String} {i : ι}
variable {c : PersistedConversation}

/-! ## Records -/

/-- A record whose last message is a prompt. -/
structure Asked (c : PersistedConversation) : Prop where
  prompted : Prompted c.roles
  last : c.roles.getLast? = some .user

theorem appendMessage_roles {c' : PersistedConversation} {role : ConversationRole} {text : String}
    (h : c.appendMessage role text = .ok c') : c'.roles = c.roles ++ [role] := by
  obtain ⟨-, -, -, rfl⟩ := PersistedConversation.appendMessage_ok h
  rw [PersistedConversation.roles, List.map_append]
  rfl

theorem asked_of_append {c' : PersistedConversation} {prompt : String} (hc : Prompted c.roles)
    (h : c.appendMessage .user prompt = .ok c') : Asked c' := by
  refine ⟨?_, ?_⟩
  · rw [appendMessage_roles h]
    exact hc.ask
  · rw [appendMessage_roles h, List.getLast?_concat]

theorem Asked.answered {c' : PersistedConversation} {text : String} (hc : Asked c) (pending : Bool)
    (h : (c.withPending pending).appendMessage .assistant text = .ok c') : Prompted c'.roles := by
  rw [appendMessage_roles h]
  exact hc.prompted.answer hc.last

/-! ## The calls of one core -/

/-- Every record an operation hands to the store is prompted. -/
def Speaks : Op → Prop
  | .updateConversation _ c => Prompted c.roles
  | _ => True

/-- Every stored record is prompted. -/
def AllPrompted (s : Core Tree ι) : Prop :=
  ∀ p id c, s.conversations.record p id = some c → Prompted c.roles

/-- An operation that hands the store a prompted record leaves prompted records. -/
theorem AllPrompted.exec {s : Core Tree ι} {o : Op} (h : AllPrompted s) (ho : Speaks o)
    (w : World Tree) : AllPrompted (exec config digest i w o s).2 := by
  by_cases hwrites : o.writesConversations = false
  · rw [AllPrompted, exec_conversations config digest i w s hwrites]
    exact h
  · cases o with
    | updateConversation expected c =>
      rcases exec_update_cases config digest i w s expected c with ⟨e, hexec, -⟩ |
        ⟨committed, hupdate, hexec⟩
      · rw [hexec]
        exact h
      · rw [hexec]
        intro p id found hfound
        obtain ⟨-, -, hcommit, -⟩ := ConversationTable.prepareUpdate_ok hupdate
        obtain ⟨rfl, -, -⟩ := ConversationTable.commit_ok hcommit
        obtain ⟨hhere, hothers⟩ := ConversationTable.put_record hupdate
        by_cases hkey : p = c.projectId ∧ id = c.conversationId
        · obtain ⟨rfl, rfl⟩ := hkey
          cases hhere.symm.trans hfound
          exact ho
        · exact h p id found ((hothers p id hkey).symm.trans hfound)
    | _ => exact absurd rfl hwrites

/-- Calls that share a core.  Nothing is assumed of the outside, and a call relies on nothing but
    the invariant. -/
abbrev Conversing (config : CoreConfig) (digest : Tree → String) :
    Setting Op (fun o => Result o.Val) ι (World Tree) (Core Tree ι) where
  exec := exec config digest
  admits := fun _ => True
  inv := AllPrompted
  allowed := fun _ o _ => Speaks o
  rely := fun _ _ _ => True
  rely_refl := fun _ _ => trivial
  rely_trans := fun _ _ => trivial
  inv_step := fun _ h ho => h.exec ho _
  rely_step := fun _ _ _ _ => trivial

/-- A call may run `p` at any time, and what it returns has the property. -/
def Yields (config : CoreConfig) (digest : Tree → String) (i : ι) (Q : α → Prop) (p : CoreM α) :
    Prop :=
  ∀ s, AllPrompted s → Wp (Conversing config digest) i p (fun a _ => Q a) (fun _ _ => True) s

section

variable {Q : α → Prop} {R : β → Prop}

theorem yields_pure {a : α} (h : Q a) : Yields config digest i Q (pure a) := fun _ _ => wp_pure h

theorem yields_throw {e : VibeCoderError} : Yields config digest i Q (throw e) :=
  fun _ _ => wp_throw trivial

theorem yields_resume {r : Result α} (h : ∀ a, r = .ok a → Q a) :
    Yields config digest i Q (resume r) := by
  intro s _
  refine wp_resume ?_
  cases r with
  | ok a => exact h a rfl
  | error e => trivial

theorem yields_bind {p : CoreM β} {f : β → CoreM α} (hp : Yields config digest i R p)
    (hf : ∀ b, R b → Yields config digest i Q (f b)) : Yields config digest i Q (p >>= f) :=
  fun s hs => wp_seq hs (hp s hs) (fun b t ht hb => hf b hb t ht) (fun _ _ _ _ => trivial)

theorem yields_settle {p : CoreM α} (hp : Yields config digest i Q p) :
    Yields config digest i (fun r => ∀ a, r = .ok a → Q a) (settle p) := by
  intro s hs
  refine wp_settle (Wp.mono hs (hp s hs) (fun a t _ ha => ?_) (fun e t _ _ a h => by cases h))
  rintro _ ⟨⟩
  exact ha

/-- A program of operations that speak can be run at any time. -/
theorem yields_only {p : CoreM α} (hp : Only Speaks p) :
    Yields config digest i (fun _ => True) p :=
  fun _ _ => wp_only (fun _ ho _ _ => ⟨ho, fun _ _ _ _ _ => trivial⟩) hp trivial

/-- Before something that may be run at any time, such a program only takes its turn. -/
theorem yields_after {p : CoreM β} {f : β → CoreM α} (hp : Only Speaks p)
    (hf : ∀ b, Yields config digest i Q (f b)) : Yields config digest i Q (p >>= f) :=
  yields_bind (yields_only hp) (fun b _ => hf b)

/-- A loaded record is prompted. -/
theorem yields_load (p : ProjectId) (id : ConversationId) :
    Yields config digest i (fun found => ∀ c, found = some c → Prompted c.roles)
      (ask (.loadConversation p id)) := by
  intro s hs
  refine wp_attempt trivial (fun w _ t _ _ => ?_)
  show Post _ _ (s.answer w (.loadConversation p id)) t
  rw [Core.answer]
  cases w.ioFault with
  | some e => trivial
  | none =>
    rw [orFault]
    cases hload : s.conversations.load p id with
    | error e => trivial
    | ok found =>
      rintro c rfl
      exact hs p id c (ConversationTable.load_some hload).1

/-- A committed record has the messages that were handed to the store. -/
theorem yields_update {expected : Nat} (h : Prompted c.roles) :
    Yields config digest i (fun committed => committed.roles = c.roles)
      (act (.updateConversation expected c)) := by
  intro s _
  refine wp_attempt h (fun w _ t _ _ => ?_)
  show Post _ _ (exec config digest i w (.updateConversation expected c) s).1 t
  rcases exec_update_cases config digest i w s expected c with ⟨e, hexec, -⟩ |
    ⟨committed, hupdate, hexec⟩
  · rw [hexec]
    trivial
  · rw [hexec]
    obtain ⟨-, -, hcommit, -⟩ := ConversationTable.prepareUpdate_ok hupdate
    obtain ⟨rfl, -, -⟩ := ConversationTable.commit_ok hcommit
    rfl

theorem yields_withLifecycle {project : ProjectId} {body : CoreM α}
    (h : Yields config digest i Q body) :
    Yields config digest i Q (withLifecycle project body) := by
  refine yields_after (only_attempt trivial) (fun _ => ?_)
  refine yields_bind (yields_settle h) (fun result hresult => ?_)
  exact yields_after (only_attempt trivial) (fun _ => yields_resume hresult)

end

/-! ## Programs that write no conversation -/

/-- An operation that writes no conversation. -/
def Silent (o : Op) : Prop := o.writesConversations = false

theorem Silent.speaks {o : Op} (h : Silent o) : Speaks o := by
  cases o with
  | updateConversation expected c => cases h
  | _ => trivial

theorem only_speaks {p : CoreM α} (h : Only Silent p) : Only Speaks p :=
  h.mono (fun _ ho => ho.speaks)

section

variable {P : Op → Prop}

theorem only_withLifecycle {project : ProjectId} {body : CoreM α} (hacquire : P (.acquire project))
    (hrelease : P (.release project)) (hbody : Only P body) :
    Only P (withLifecycle project body) := by
  refine only_bind (only_attempt hacquire) (fun _ => only_bind (only_settle hbody) (fun _ => ?_))
  exact only_bind (only_attempt hrelease) (fun _ => only_resume _)

theorem only_mapError {p : CoreM α} {e : VibeCoderError} (h : Only P p) : Only P (mapError p e) := by
  refine only_bind (only_settle h) (fun result => ?_)
  cases result with
  | ok a => exact only_pure a
  | error e => exact only_throw _

/-- What follows a pure result needs to be looked at only where there is one. -/
theorem only_resume_then {r : Result β} {f : β → CoreM α}
    (h : ∀ b, r = .ok b → Only P (f b)) : Only P (resume r >>= f) := by
  cases r with
  | ok b => exact h b rfl
  | error e => exact only_throw e

end

theorem silent_createProjectCheckpoint (project : ProjectId) (reason : CheckpointReason) :
    Only Silent (createProjectCheckpoint config project reason) := by
  refine only_withLifecycle rfl rfl ?_
  refine only_bind (only_attempt rfl) (fun _ => ?_)
  refine only_bind (only_ensureNoActiveProjectProcess (fun _ => rfl) project) (fun _ => ?_)
  refine only_bind (only_attempt rfl) (fun _ => only_bind (only_resume _) (fun _ => ?_))
  exact only_attempt rfl

theorem silent_tryRemoveProjectCheckpoint (project : ProjectId) (checkpoint : CheckpointId) :
    Only Silent (tryRemoveProjectCheckpoint config project checkpoint) := by
  refine only_bind (only_settle ?_) (fun _ => only_pure _)
  refine only_bind (only_attempt rfl) (fun _ => ?_)
  refine only_bind (only_ensureNoActiveProjectProcess (fun _ => rfl) project) (fun _ => ?_)
  exact only_bind (only_resume _) (fun _ => only_attempt rfl)

theorem silent_tryRemoveVerification (project : ProjectId) (checkpoint : Option CheckpointId) :
    Only Silent (tryRemoveVerification config project checkpoint) := by
  cases checkpoint with
  | none => exact only_pure true
  | some checkpoint => exact silent_tryRemoveProjectCheckpoint project checkpoint

theorem silent_scanConversations (project : ProjectId)
    (permitted : Option (ConversationId × SessionId)) (ids : List ConversationId) :
    ∀ scan, Only Silent (scanConversations config project permitted scan ids) := by
  induction ids with
  | nil => exact fun scan => only_pure scan
  | cons id rest ih =>
    intro scan
    exact only_bind (only_attempt rfl) (fun _ => only_bind (only_resume _) (fun scan => ih scan))

theorem silent_refreshSession (project : ProjectId) (session : SessionId) (code : String) :
    Only Silent (refreshSession project session code) :=
  only_mapError (only_attempt rfl)

theorem silent_refreshSessions (project : ProjectId) (sessions : List SessionId) :
    Only Silent (refreshSessions project sessions) := by
  induction sessions with
  | nil => exact only_pure ()
  | cons session rest ih => exact only_bind (silent_refreshSession project session _) (fun _ => ih)

theorem silent_prepareRollback (project : ProjectId)
    (permitted : Option (ConversationId × SessionId)) :
    Only Silent (prepareRollback config project permitted) := by
  have hproject : Only Silent (persistedProjectSession config project) := by
    rw [persistedProjectSession]
    split
    · exact only_bind (only_attempt rfl) (fun _ => only_resume _)
    · exact only_pure none
  have hconversations : Only Silent (persistedConversationSessions config project permitted) := by
    rw [persistedConversationSessions]
    split
    · refine only_bind (only_attempt rfl) (fun ids => ?_)
      refine only_bind (silent_scanConversations project permitted ids _) (fun _ => ?_)
      exact only_bind (only_resume _) (fun _ => only_pure _)
    · exact only_bind (only_resume _) (fun _ => only_pure _)
  refine only_bind hproject (fun _ => only_bind hconversations (fun _ => ?_))
  exact only_bind (only_resume _) (fun _ => only_pure _)

theorem silent_finishRollback (project : ProjectId) (sessions : Option SessionId × List SessionId) :
    Only Silent (finishRollback project sessions) := by
  obtain ⟨session, sessions⟩ := sessions
  refine only_bind (only_attempt rfl) (fun _ => only_bind (only_attempt rfl) (fun _ => ?_))
  cases session with
  | none => exact only_bind (only_pure ()) (fun _ => silent_refreshSessions project sessions)
  | some session =>
    exact only_bind (silent_refreshSession project session _)
      (fun _ => silent_refreshSessions project sessions)

/-- A rollback writes no conversation. -/
theorem silent_rollback (project : ProjectId) (checkpoint : CheckpointId)
    (permitted : Option (ConversationId × SessionId)) :
    Only Silent (rollbackProjectCheckpointInternal config project checkpoint permitted) := by
  refine only_withLifecycle rfl rfl ?_
  refine only_bind (only_attempt rfl) (fun _ => ?_)
  refine only_bind (only_ensureNoActiveProjectProcess (fun _ => rfl) project) (fun _ => ?_)
  refine only_bind (only_attempt rfl) (fun _ => only_bind (only_attempt rfl) (fun _ => ?_))
  refine only_bind (silent_prepareRollback project permitted) (fun sessions => ?_)
  refine only_bind (only_attempt rfl) (fun _ => only_bind (only_attempt rfl) (fun _ => ?_))
  exact only_bind (silent_finishRollback project sessions) (fun _ => only_pure _)

/-- A backend task writes no conversation. -/
theorem silent_runBackendTask (project : ProjectId) (session : SessionId)
    (policy : ModelRoutePolicyConfig) (prompt : String) :
    Only Silent (runBackendTask config project session policy prompt) := by
  have hbackend : ∀ o, IsBackend o → Silent o := by
    intro o ho
    cases o <;> first | rfl | exact ho.elim
  refine only_withLifecycle rfl rfl ?_
  refine only_bind (only_prepareBackendTask (fun _ => rfl) project session policy prompt) ?_
  intro task
  exact (only_backendAttempts project session prompt maxRouteTargets task [] []).mono hbackend

/-- A future polled under a flag performs what it performs anyway, and reads the flag. -/
theorem silent_pollOrCancel {flag : Flag} (p : Proc Op (fun o => Result o.Val) (Result α))
    (h : p.Only Silent) : (pollOrCancel flag p).Only Silent := by
  induction p with
  | ret r => trivial
  | call o k ih =>
    have hgo : ∀ answer, (pollOrCancel flag (k answer)).Only Silent :=
      fun answer => ih answer (h.2 answer)
    rw [pollOrCancel]
    refine ⟨rfl, fun timedOut => ?_⟩
    rcases timedOut with e | _ | _
    · exact ⟨h.1, hgo⟩
    · exact ⟨h.1, hgo⟩
    · refine ⟨rfl, fun requested => ?_⟩
      rcases requested with e | _ | _
      · exact ⟨h.1, hgo⟩
      · exact ⟨h.1, hgo⟩
      · trivial

/-- The inference of a model turn writes no conversation. -/
theorem silent_inference (conversation : PersistedConversation) (requestedModelId : String)
    (maxOutputTokens : Nat) (cancellation : Option Flag) :
    Only Silent (inferenceOrCancel
      (conversationModelInference conversation requestedModelId maxOutputTokens) cancellation) := by
  have hinference : Only Silent
      (conversationModelInference conversation requestedModelId maxOutputTokens) := by
    refine only_bind (only_attempt rfl) (fun _ => only_bind (only_resume _) (fun _ => ?_))
    refine only_bind (only_attempt rfl) (fun _ => only_bind (only_resume _) (fun _ => ?_))
    refine only_bind (only_resume _) (fun _ => only_bind (only_attempt rfl) (fun _ => ?_))
    exact only_bind (only_resume _) (fun _ => only_pure _)
  cases cancellation with
  | none => exact only_settle hinference
  | some flag =>
    refine only_bind (only_settle ?_) (fun _ => only_bind (only_attempt rfl) (fun _ => only_pure _))
    refine only_bind (only_attempt rfl) (fun _ => only_bind (only_resume _) (fun _ => ?_))
    exact silent_pollOrCancel _ hinference

/-! ## After the prompt has been committed -/

theorem only_clear (h : Asked c) {expected : Nat} :
    Only Speaks (act (.updateConversation expected (c.withPending false))) :=
  only_attempt h.prompted

theorem only_clearAfterFailure (h : Asked c) (code : String) (error : VibeCoderError) :
    Only Speaks (clearAfterFailure (α := α) c code error) :=
  only_bind (only_mapError (only_clear h)) (fun _ => only_throw _)

theorem only_closeConversationTurn (h : Asked c)
    (result : Result (BackendTaskOutcome × List AgentEvent)) :
    Only Speaks (closeConversationTurn c result) := by
  rcases result with error | ⟨outcome, events⟩
  · exact only_clearAfterFailure h _ _
  · refine only_resume_then (fun answered hanswer => ?_)
    refine only_bind (only_attempt ?_) (fun _ => only_pure outcome)
    rw [answeredConversation] at hanswer
    split at hanswer
    · cases hanswer
      exact h.prompted
    · exact h.answered false hanswer

theorem only_closeModelTurn (h : Asked c) (result : Result ModelInference) :
    Only Speaks (closeModelTurn c result) := by
  cases result with
  | error error => exact only_clearAfterFailure h _ _
  | ok inference =>
    refine only_resume_then (fun answered hanswer => ?_)
    exact only_bind (only_attempt (h.answered false hanswer)) (fun _ => only_pure _)

theorem only_recoverPendingTurn (h : Asked c) (project : ProjectId) (session : SessionId)
    (baseline : CheckpointId) (verification : Option CheckpointId)
    (rollbackCode cleanupCode : String) :
    Only Speaks (recoverPendingTurn config project c session baseline verification rollbackCode
      cleanupCode) := by
  refine only_bind (only_mapError (only_speaks (silent_rollback project baseline _))) (fun _ => ?_)
  refine only_bind (only_mapError (only_clear h)) (fun _ => ?_)
  refine only_bind (only_speaks (silent_tryRemoveVerification project verification)) (fun _ => ?_)
  exact only_bind (only_speaks (silent_tryRemoveProjectCheckpoint project baseline))
    (fun _ => only_pure _)

variable {opened : OpenedAction} {project : ProjectId}

theorem only_failAgentAction (h : Asked opened.conversation) (verification : Option CheckpointId)
    (error : VibeCoderError) :
    Only Speaks (failAgentAction (α := α) config project opened verification error) := by
  refine only_bind (only_bind (only_resume _) (fun session => ?_)) (fun _ => only_throw _)
  exact only_recoverPendingTurn h project session.sessionId _ verification _ _

theorem only_commitAgentAction (h : Asked opened.conversation) (outcome : BackendTaskOutcome)
    (counts : ToolCounts) (post : CheckpointMetadata) :
    Only Speaks (commitAgentAction config project opened outcome counts post) := by
  rw [commitAgentAction]
  cases hanswer : (opened.conversation.withPending false).appendMessage .assistant
      outcome.turn.text with
  | error e => exact only_failAgentAction h _ _
  | ok completed =>
    refine only_bind (only_settle (only_attempt (h.answered false hanswer))) (fun result => ?_)
    cases result with
    | error e => exact only_failAgentAction h _ _
    | ok committed =>
      refine only_bind (only_speaks (silent_tryRemoveProjectCheckpoint project _)) (fun _ => ?_)
      exact only_bind (only_speaks (silent_tryRemoveProjectCheckpoint project _))
        (fun _ => only_pure _)

theorem only_closeAgentActionTurn (h : Asked opened.conversation)
    (action : Result (BackendTaskOutcome × List AgentEvent)) :
    Only Speaks (closeAgentActionTurn config project opened action) := by
  rcases action with error | ⟨outcome, events⟩
  · exact only_failAgentAction h _ _
  · rw [closeAgentActionTurn]
    cases validateAgentActionTurn outcome.turn (.ofEvents events) with
    | error e => exact only_failAgentAction h _ _
    | ok counts =>
      refine only_bind (only_settle (only_speaks (silent_createProjectCheckpoint project _))) ?_
      intro checkpoint
      cases checkpoint with
      | error e => exact only_failAgentAction h _ _
      | ok post =>
        dsimp only
        split
        · exact only_failAgentAction h _ _
        · exact only_commitAgentAction h outcome counts post

/-! ## The iterations of a loop -/

variable {guard : ExplicitAgentLoopGuard}

theorem only_failExplicitLoop (h : Asked opened.conversation) (verification : Option CheckpointId)
    (error : VibeCoderError) :
    Only Speaks (failExplicitLoop (α := α) config guard opened verification error) :=
  only_bind (only_recoverPendingTurn h guard.projectId opened.session _ verification _ _)
    (fun _ => only_throw _)

theorem only_finishNonSuccess (h : Asked opened.conversation) (verification : Option CheckpointId)
    (stopReason : ExplicitAgentLoopStopReason) (progress : LoopProgress) :
    Only Speaks (finishPersistedExplicitAgentLoopNonSuccess config guard opened verification
      stopReason progress) := by
  refine only_bind (only_resume _) (fun _ => ?_)
  refine only_bind (only_mapError (only_speaks (silent_rollback guard.projectId _ _))) (fun _ => ?_)
  refine only_resume_then (fun completed hanswer => ?_)
  refine only_bind (only_mapError (only_attempt (h.answered false hanswer))) (fun _ => ?_)
  refine only_bind (only_speaks (silent_tryRemoveVerification guard.projectId verification)) ?_
  intro _
  exact only_bind (only_speaks (silent_tryRemoveProjectCheckpoint guard.projectId _))
    (fun _ => only_pure _)

theorem only_completeExplicitLoop (h : Asked opened.conversation) (progress : LoopProgress)
    (verification : CheckpointMetadata) (body : String) :
    Only Speaks (completeExplicitLoop config guard opened progress verification body) := by
  rw [completeExplicitLoop]
  cases hanswer : (opened.conversation.withPending false).appendMessage .assistant body with
  | error e => exact only_failExplicitLoop h _ _
  | ok completed =>
    refine only_bind (only_settle (only_attempt (h.answered false hanswer))) (fun result => ?_)
    cases result with
    | error e => exact only_failExplicitLoop h _ _
    | ok committed =>
      refine only_bind (only_speaks (silent_tryRemoveProjectCheckpoint guard.projectId _)) ?_
      intro _
      exact only_bind (only_speaks (silent_tryRemoveProjectCheckpoint guard.projectId _))
        (fun _ => only_pure _)

theorem only_continueExplicitLoop (h : Asked opened.conversation) (iteration : Nat)
    (progress : LoopProgress) (verification : CheckpointMetadata) (mutations : Nat) :
    Only Speaks (continueExplicitLoop config guard opened iteration progress verification
      mutations) := by
  rw [continueExplicitLoop]
  dsimp only
  split
  · exact only_failExplicitLoop h _ _
  · split
    · exact only_finishNonSuccess h _ _ _
    · refine only_bind (only_speaks (silent_tryRemoveProjectCheckpoint guard.projectId _)) ?_
      intro _
      split
      · exact only_finishNonSuccess h _ _ _
      · exact only_pure _

theorem only_verifyExplicitLoopTurn (h : Asked opened.conversation) (iteration : Nat)
    (progress : LoopProgress) (response : ExplicitAgentLoopDecision × String)
    (counts : ToolCounts) :
    Only Speaks (verifyExplicitLoopTurn config guard opened iteration progress response counts) := by
  refine only_bind (only_settle (only_speaks (silent_createProjectCheckpoint guard.projectId _))) ?_
  intro checkpoint
  cases checkpoint with
  | error e => exact only_failExplicitLoop h _ _
  | ok verification =>
    dsimp only
    split
    · exact only_finishNonSuccess h _ _ _
    · refine only_bind (only_attempt trivial) (fun requested => ?_)
      split
      · exact only_finishNonSuccess h _ _ _
      · split
        · exact only_continueExplicitLoop h iteration progress verification _
        · exact only_completeExplicitLoop h progress verification _

theorem only_judgeExplicitLoopTurn (h : Asked opened.conversation) (iteration : Nat)
    (progress : LoopProgress) (outcome : BackendTaskOutcome) (events : List AgentEvent) :
    Only Speaks (judgeExplicitLoopTurn config guard opened iteration progress outcome events) := by
  refine only_bind (only_attempt trivial) (fun requested => ?_)
  split
  · exact only_finishNonSuccess h _ _ _
  · cases parseExplicitAgentLoopResponse outcome.turn.text with
    | error e => exact only_failExplicitLoop h _ _
    | ok response =>
      cases validateAgentLoopIterationTurn outcome.turn (.ofEvents events) with
      | error e => exact only_failExplicitLoop h _ _
      | ok counts => exact only_verifyExplicitLoopTurn h iteration _ response counts

theorem only_judgeExplicitLoopFailure (h : Asked opened.conversation) (progress : LoopProgress)
    (error : VibeCoderError) :
    Only Speaks (judgeExplicitLoopFailure config guard opened progress error) := by
  rw [judgeExplicitLoopFailure]
  split
  · refine only_bind (only_attempt trivial) (fun requested => ?_)
    split
    · exact only_finishNonSuccess h _ _ _
    · exact only_failExplicitLoop h _ _
  · exact only_failExplicitLoop h _ _

theorem only_explicitLoopIteration (h : Asked opened.conversation)
    (routePolicy : ModelRoutePolicyConfig) (prompt : String) (iteration : Nat)
    (progress : LoopProgress) :
    Only Speaks (explicitLoopIteration config guard opened routePolicy prompt iteration
      progress) := by
  refine only_bind (only_attempt trivial) (fun requested => ?_)
  split
  · exact only_finishNonSuccess h _ _ _
  · cases buildExplicitAgentLoopIterationPrompt prompt iteration guard.policy.maxTurns with
    | error e => exact only_failExplicitLoop h _ _
    | ok iterationPrompt =>
      refine only_bind (only_settle (only_speaks (silent_runBackendTask _ _ _ _))) (fun result => ?_)
      rcases result with e | ⟨outcome, events⟩
      · exact only_judgeExplicitLoopFailure h progress e
      · exact only_judgeExplicitLoopTurn h iteration progress outcome events

theorem only_explicitLoopIterations (h : Asked opened.conversation) (terminal : VibeCoderError)
    (routePolicy : ModelRoutePolicyConfig) (prompt : String) (remaining : Nat) :
    ∀ progress, Only Speaks (explicitLoopIterations config guard opened terminal routePolicy prompt
      remaining progress) := by
  induction remaining with
  | zero => exact fun _ => only_throw terminal
  | succ remaining ih =>
    intro progress
    refine only_bind (only_explicitLoopIteration h routePolicy prompt _ progress) (fun step => ?_)
    cases step with
    | again progress => exact ih progress
    | finished outcome => exact only_pure outcome

/-! ## Openings -/

variable {project : ProjectId} {id : ConversationId}

/-- Committing the prompt of a loaded record. -/
theorem yields_commitUserMessage {prompt : String} (hc : Prompted c.roles) :
    Yields config digest i Asked (commitUserMessage c prompt) := by
  refine yields_bind (yields_resume (Q := fun asked => Asked asked)
    (fun asked hasked => asked_of_append hc hasked)) (fun asked hasked => ?_)
  intro s hs
  refine Wp.mono hs (yields_update (c := asked.withPending true) hasked.prompted s hs)
    (fun committed t _ hroles => ?_) (fun _ _ _ h => h)
  have hroles : committed.roles = asked.roles := hroles
  exact ⟨hroles ▸ hasked.prompted, hroles ▸ hasked.last⟩

/-- The record that the checks of a turn let through is the loaded one. -/
theorem yields_runnable {loaded : Option PersistedConversation}
    (h : ∀ c, loaded = some c → Prompted c.roles) :
    Yields config digest i (fun runnable => Prompted runnable.1.roles)
      (resume (runnableConversation config loaded)) :=
  yields_resume (fun _ hrun => h _ (runnableConversation_ok hrun).1)

theorem yields_openConversationTurn (prompt : String) :
    Yields config digest i (fun opened => Asked opened.2)
      (openConversationTurn config project id prompt) := by
  refine yields_withLifecycle (yields_after (only_attempt trivial) (fun _ => ?_))
  refine yields_bind (yields_load project id) (fun loaded hloaded => ?_)
  refine yields_bind (yields_runnable hloaded) (fun runnable hrunnable => ?_)
  refine yields_after (only_attempt trivial) (fun _ => ?_)
  exact yields_bind (yields_commitUserMessage hrunnable) (fun _ hasked => yields_pure hasked)

theorem yields_openModelTurn (prompt : String) :
    Yields config digest i Asked (openModelTurn config project id prompt) := by
  refine yields_after (only_resume _) (fun _ => yields_after (only_attempt trivial) (fun _ => ?_))
  refine yields_after (only_attempt trivial) (fun _ => ?_)
  refine yields_bind (yields_load project id) (fun loaded hloaded => ?_)
  refine yields_bind (yields_runnable hloaded) (fun runnable hrunnable => ?_)
  exact yields_after (only_resume _) (fun _ => yields_commitUserMessage hrunnable)

theorem yields_openAgentActionTurn (prompt : String) :
    Yields config digest i (fun opened => Asked opened.conversation)
      (openAgentActionTurn config project id prompt) := by
  refine yields_withLifecycle (yields_after (only_attempt trivial) (fun _ => ?_))
  refine yields_after (only_attempt trivial) (fun _ => ?_)
  refine yields_bind (yields_load project id) (fun loaded hloaded => ?_)
  refine yields_bind (yields_runnable hloaded) (fun runnable hrunnable => ?_)
  refine yields_after (only_resume _) (fun _ => yields_after (only_attempt trivial) (fun _ => ?_))
  refine yields_after (only_speaks (only_ensureNoActiveProjectProcess (fun _ => rfl) project)) ?_
  refine fun _ => yields_after (only_attempt trivial) (fun _ => ?_)
  refine yields_after (only_resume _) (fun _ => yields_after (only_attempt trivial) ?_)
  intro checkpoint
  refine yields_bind (yields_resume (Q := fun asked => Asked asked)
    (fun asked hasked => asked_of_append hrunnable hasked)) (fun asked hasked => ?_)
  refine yields_bind (yields_settle (yields_update (c := asked.withPending true)
    hasked.prompted)) (fun result hresult => ?_)
  cases result with
  | ok committed =>
    have hroles : committed.roles = asked.roles := hresult committed rfl
    exact yields_pure ⟨hroles ▸ hasked.prompted, hroles ▸ hasked.last⟩
  | error error =>
    exact yields_after (only_settle (only_attempt trivial)) (fun _ => yields_throw)

/-! ## Whole calls -/

/-- A call on the core. -/
inductive ConversingCall where
  | conversationTurn (project : ProjectId) (id : ConversationId) (policy : ModelRoutePolicyConfig)
      (prompt : String)
  | modelTurn (project : ProjectId) (id : ConversationId) (requestedModelId : String)
      (maxOutputTokens : Nat) (prompt : String) (cancellation : Option Flag)
  | actionTurn (project : ProjectId) (id : ConversationId) (policy : ModelRoutePolicyConfig)
      (prompt : String)
  | explicitLoop (guard : ExplicitAgentLoopGuard) (policy : ModelRoutePolicyConfig)
      (prompt : String)
  | cancelModelTurn (flag : Flag)
  | cancelLoop (project : ProjectId) (flag : Flag)
  /-- Anything else that writes no conversation. -/
  | other (program : CoreM Unit) (silent : Only Silent program)

/-- What a call runs. -/
def ConversingCall.program (config : CoreConfig) : ConversingCall → CoreM Unit
  | .conversationTurn project id policy prompt => do
    let _ ← runPersistedConversationTurn config project id policy prompt
  | .modelTurn project id requestedModelId maxOutputTokens prompt cancellation => do
    let _ ← runPersistedModelConversationTurnInner config project id requestedModelId
      maxOutputTokens prompt cancellation
  | .actionTurn project id policy prompt => do
    let _ ← runPersistedAgentActionTurn config project id policy prompt
  | .explicitLoop guard policy prompt => do
    let _ ← runPersistedExplicitAgentLoop config guard policy prompt
  | .cancelModelTurn flag => requestModelTurnCancel flag
  | .cancelLoop project flag => requestLoopCancel project flag
  | .other program _ => program

theorem yields_conversationTurn (policy : ModelRoutePolicyConfig) (prompt : String) :
    Yields config digest i (fun _ => True)
      (runPersistedConversationTurn config project id policy prompt) := by
  refine yields_after (only_resume _) (fun _ => yields_after (only_resume _) (fun _ => ?_))
  refine yields_bind (yields_openConversationTurn prompt) (fun opened hopened => ?_)
  refine yields_after (only_speaks (only_settle (silent_runBackendTask project _ policy prompt))) ?_
  exact fun result => yields_only (only_closeConversationTurn hopened result)

theorem yields_modelTurn (requestedModelId : String) (maxOutputTokens : Nat) (prompt : String)
    (cancellation : Option Flag) :
    Yields config digest i (fun _ => True)
      (runPersistedModelConversationTurnInner config project id requestedModelId maxOutputTokens
        prompt cancellation) := by
  refine yields_after (only_resume _) (fun _ => yields_after (only_resume _) (fun _ => ?_))
  refine yields_after (only_resume _) (fun _ => yields_withLifecycle ?_)
  refine yields_bind (yields_openModelTurn prompt) (fun conversation hasked => ?_)
  refine yields_after (only_speaks (silent_inference conversation _ _ cancellation)) (fun result => ?_)
  exact yields_only (only_closeModelTurn hasked result)

theorem only_requireAgentActionRuntime (commandToolsCode bridgeCode : String) :
    Only Speaks (requireAgentActionRuntime config commandToolsCode bridgeCode) := by
  refine only_bind (only_attempt trivial) (fun _ => only_bind (only_resume _) (fun _ => ?_))
  refine only_bind (only_resume _) (fun _ => only_bind (only_resume _) (fun _ => ?_))
  exact only_resume _

theorem yields_actionTurn (policy : ModelRoutePolicyConfig) (prompt : String) :
    Yields config digest i (fun _ => True)
      (runPersistedAgentActionTurn config project id policy prompt) := by
  refine yields_after (only_resume _) (fun _ => ?_)
  refine yields_after (only_requireAgentActionRuntime _ _) (fun _ => ?_)
  refine yields_after (only_resume _) (fun _ => ?_)
  refine yields_bind (yields_openAgentActionTurn prompt) (fun opened hopened => ?_)
  refine yields_after (only_speaks (only_settle (silent_runBackendTask project _ policy prompt))) ?_
  exact fun action => yields_only (only_closeAgentActionTurn hopened action)

theorem yields_explicitLoop (guard : ExplicitAgentLoopGuard) (policy : ModelRoutePolicyConfig)
    (prompt : String) :
    Yields config digest i (fun _ => True)
      (runPersistedExplicitAgentLoop config guard policy prompt) := by
  have hprepare : Only Speaks (prepareExplicitLoop config guard prompt) := by
    refine only_bind (only_resume _) (fun _ => only_bind (only_attempt trivial) (fun _ => ?_))
    refine only_bind (only_attempt trivial) (fun _ => only_bind (only_resume _) (fun _ => ?_))
    exact only_bind (only_requireAgentActionRuntime _ _) (fun _ => only_resume _)
  refine yields_bind (R := fun opened => Asked opened.conversation) ?_ (fun opened hopened => ?_)
  · exact yields_after hprepare (fun _ => yields_openAgentActionTurn prompt)
  · exact yields_only (only_explicitLoopIterations hopened _ policy prompt _ _)

/-- Every call can be run at any time. -/
theorem yields_call (call : ConversingCall) :
    Yields config digest i (fun _ => True) (call.program config) := by
  cases call with
  | conversationTurn project id policy prompt =>
    exact yields_bind (yields_conversationTurn policy prompt) (fun _ _ => yields_pure trivial)
  | modelTurn project id requestedModelId maxOutputTokens prompt cancellation =>
    exact yields_bind (yields_modelTurn requestedModelId maxOutputTokens prompt cancellation)
      (fun _ _ => yields_pure trivial)
  | actionTurn project id policy prompt =>
    exact yields_bind (yields_actionTurn policy prompt) (fun _ _ => yields_pure trivial)
  | explicitLoop guard policy prompt =>
    exact yields_bind (yields_explicitLoop guard policy prompt) (fun _ _ => yields_pure trivial)
  | cancelModelTurn flag => exact yields_only (only_attempt trivial)
  | cancelLoop project flag =>
    exact yields_only (only_bind (only_attempt trivial) (fun _ => only_attempt trivial))
  | other program silent => exact yields_only (only_speaks silent)

/-! ## Runs -/

/-- A dropped call gives back the gate it holds.  It can be dropped at any operation, also at one
    that has taken effect. -/
def droppedAnywhere [DecidableEq ι] (config : CoreConfig) (digest : Tree → String) :
    Dropping (Conversing config digest :
      Setting Op (fun o => Result o.Val) ι (World Tree) (Core Tree ι)) where
  suspends := fun _ => true
  abandon := fun i s =>
    { s with gate := fun p => if s.gate p = some i then none else s.gate p }
  inv_abandon := fun _ h _ => h
  rely_abandon := fun _ _ _ _ => trivial

/-- A conversation that has just been created. -/
abbrev NewConversation : Type := { c : PersistedConversation // c.messages = [] }

/-- The table with another record, or none, for a conversation. -/
def ConversationTable.set (table : ConversationTable) (p : ProjectId) (id : ConversationId)
    (found : Option PersistedConversation) : ConversationTable where
  ids := fun q =>
    if q = p then (found.map (fun _ => id)).toList ++ (table.ids q).filter (fun k => k != id)
    else table.ids q
  record := fun q k => if q = p ∧ k = id then found else table.record q k
  listed := by
    intro q k hsome
    by_cases hq : q = p
    · rw [if_pos hq]
      by_cases hk : k = id
      · rw [if_pos ⟨hq, hk⟩] at hsome
        obtain ⟨c, rfl⟩ := Option.isSome_iff_exists.mp hsome
        rw [hk]
        exact List.mem_append_left _ List.mem_cons_self
      · rw [if_neg (fun h => hk h.2)] at hsome
        refine List.mem_append_right _ (List.mem_filter.mpr ⟨table.listed q k hsome, ?_⟩)
        exact bne_iff_ne.mpr hk
    · rw [if_neg (fun h => hq h.1)] at hsome
      rw [if_neg hq]
      exact table.listed q k hsome

/-- The core with another record, or none, for a conversation. -/
def Core.setConversation (s : Core Tree ι) (p : ProjectId) (id : ConversationId)
    (found : Option PersistedConversation) : Core Tree ι :=
  { s with conversations := s.conversations.set p id found }

theorem AllPrompted.setConversation {s : Core Tree ι} (h : AllPrompted s) (p : ProjectId)
    (id : ConversationId) {found : Option PersistedConversation}
    (hfound : ∀ c, found = some c → Prompted c.roles) :
    AllPrompted (s.setConversation p id found) := by
  intro q k c hc
  have hrecord : (if q = p ∧ k = id then found else s.conversations.record q k) = some c := hc
  split at hrecord
  · exact hfound c hrecord
  · exact h q k c hrecord

/-- The calls in progress. -/
abbrev Conversations (ι Tree : Type) : Type :=
  Pool Op (fun o => Result o.Val) ι (Core Tree ι) (Result Unit)

/-- What happens on the core: a call takes a step or is dropped, a conversation is created (or is
    given its session), or one is removed. -/
inductive Occurring (ι Tree : Type) where
  | event (e : Event ι (World Tree))
  | created (c : NewConversation)
  | removed (p : ProjectId) (id : ConversationId)

/-- One such thing. -/
def occur [DecidableEq ι] (config : CoreConfig) (digest : Tree → String)
    (pool : Conversations ι Tree) :
    Occurring ι Tree → Conversations ι Tree
  | .event e => Pool.next (droppedAnywhere config digest) pool e
  | .created c =>
    { pool with
      state := pool.state.setConversation c.1.projectId c.1.conversationId (some c.1) }
  | .removed p id => { pool with state := pool.state.setConversation p id none }

/-- Any calls, none of which has begun. -/
def notBegun (config : CoreConfig) (calls : ι → ConversingCall) (start : Core Tree ι) :
    Conversations ι Tree where
  threads := fun i => some ((calls i).program config).run
  state := start

/-- What holds all along. -/
abbrev Talking (config : CoreConfig) (digest : Tree → String) (pool : Conversations ι Tree) : Prop :=
  Good (Conversing config digest) (fun _ _ _ => True) pool

theorem talking_notBegun {calls : ι → ConversingCall} {start : Core Tree ι}
    (hstart : AllPrompted start) : Talking config digest (notBegun config calls start) := by
  refine ⟨hstart, fun i p hp t _ ht => ?_⟩
  cases hp
  exact Safe.mono ht (yields_call (calls i) t ht) (fun _ _ _ _ => trivial)

theorem Talking.occur [DecidableEq ι] {pool : Conversations ι Tree} (h : Talking config digest pool)
    (e : Occurring ι Tree) : Talking config digest (occur config digest pool e) := by
  cases e with
  | event e => exact h.next (fun _ _ _ => trivial)
  | created c =>
    refine ⟨h.inv.setConversation _ _ (fun found hfound => ?_), fun i p hp t _ ht => ?_⟩
    · cases hfound
      rw [PersistedConversation.roles, c.2]
      exact prompted_nil
    · exact h.safe i p hp t trivial ht
  | removed p id =>
    refine ⟨h.inv.setConversation p id (fun _ hnone => by cases hnone), fun i q hq t _ ht => ?_⟩
    exact h.safe i q hq t trivial ht

/-- **Gateway context selection.**  Whatever calls run on a core whose conversations start empty, in
    whatever order and with whatever failures, a conversation whose last message is a prompt of at
    most the message limit has a context: the longest end that starts and ends with the user and is
    within the limits, with its exact size. -/
theorem gateway_context_law [DecidableEq ι] (config : CoreConfig) (digest : Tree → String)
    (calls : ι → ConversingCall) (start : Core Tree ι)
    (hstart : ∀ p id c, start.conversations.record p id = some c → c.messages = [])
    (run : List (Occurring ι Tree)) (p : ProjectId) (id : ConversationId)
    {c : PersistedConversation} {prompt : PersistedConversationMessage}
    (hstored : (Runs.play (occur config digest) (notBegun config calls start)
      run).state.conversations.record p id = some c)
    (hlast : c.messages.getLast? = some prompt) (huser : prompt.role = .user)
    (hshort : len prompt.text ≤ maxConversationModelMessageBytes) :
    ∃ messages, LongestExchange c messages ∧
      buildGatewayConversationContext c =
        .ok (messages.map PersistedConversationMessage.chat, textBytes messages) := by
  have hempty : AllPrompted start := by
    intro p id c hc
    rw [PersistedConversation.roles, hstart p id c hc]
    exact prompted_nil
  have htalking : Talking config digest
      (Runs.play (occur config digest) (notBegun config calls start) run) :=
    Runs.play_invariant (occur config digest) (fun _ e h => h.occur e)
      (talking_notBegun hempty) run
  exact buildGatewayConversationContext_prompted (htalking.inv p id c hstored) hlast huser hshort

/-! ## One run -/

/-- A conversation turn and a model turn on the same conversation. -/
def twoTurns (second : Bool) : ConversingCall :=
  if second then .modelTurn ⟨0⟩ ⟨1⟩ "model-a" 1 "again" none
  else .conversationTurn ⟨0⟩ ⟨1⟩ calmPolicy "hi"

/-- The first turn fails before its backend task and clears its marker; the second one commits its
    prompt. -/
def failedThenAsked : List (Occurring Bool Unit) :=
  let calm : World Unit := World.calm "" (fun tree => tree)
  let faulty : World Unit := { calm with fault := some (.agent "project_unavailable") }
  List.replicate 7 (.event (.step false calm)) ++ [.event (.step false faulty)] ++
    List.replicate 2 (.event (.step false calm)) ++ List.replicate 5 (.event (.step true calm))

/-- What is stored then. -/
def askedAgain : PersistedConversation :=
  { emptyConversation ⟨0⟩ ⟨1⟩ "session_1" with
    revision := 3
    turnPending := true
    messages := [{ sequence := 0, role := .user, text := "hi" },
      { sequence := 1, role := .user, text := "again" }] }

theorem gateway_context_law_again :
    ∃ messages, LongestExchange askedAgain messages ∧
      buildGatewayConversationContext askedAgain =
        .ok (messages.map PersistedConversationMessage.chat, textBytes messages) := by
  refine gateway_context_law attachedConfig (fun _ => "") twoTurns
    (Core.fresh (.single (emptyConversation ⟨0⟩ ⟨1⟩ "session_1")) ()) (fun p id c hc => ?_)
    failedThenAsked ⟨0⟩ ⟨1⟩ (by decide) rfl rfl (by decide)
  have hrecord : (if p = ⟨0⟩ ∧ id = ⟨1⟩ then some (emptyConversation ⟨0⟩ ⟨1⟩ "session_1")
      else none) = some c := hc
  split at hrecord
  · cases hrecord
    rfl
  · cases hrecord

end VibeCoder
