/-
  The action turn alone on the core (`run_persisted_agent_action_turn`): with no concurrent call
  and no I/O fault of a store it is all or nothing, up to the recoveries that the outside refuses.

  * `ActionDone`, `Undone`, `ActionStuck` — the three ways a turn that has committed its prompt
    can end;
  * `action_turn_all_or_nothing` — which of them a result means.
-/
import VibeCoder.Core.PendingTurn

namespace VibeCoder

open Resume

/-! ## What a turn leaves -/

section

variable {Tree : Type}

/-- A turn that returned `Ok`. -/
structure ActionDone (s t : Core Tree Unit) (p : ProjectId) (id : ConversationId)
    (prompt : String) (outcome : PersistedAgentActionTurnOutcome) : Prop where
  tree : t.tree p ≠ s.tree p
  mutated : ∃ call ∈ outcome.backend.turn.toolCalls,
    call.error = none ∧ call.tool ∈ agentActionMutationTools
  messages : Gained s t p id [(.user, prompt), (.assistant, outcome.backend.turn.text)] false
  cleaned : outcome.checkpointCleanupComplete = true → NoNewCheckpoint s t

/-- A turn whose recovery was refused, as its error says: the marker is preserved. -/
structure ActionStuck (s t : Core Tree Unit) (p : ProjectId) (id : ConversationId)
    (prompt : String) (e : VibeCoderError) : Prop where
  error : e = checkpointError "conversation_agent_action_rollback_failed_pending_preserved" ∨
    e = persistenceError "conversation_agent_action_failure_cleanup_failed_pending_preserved"
  messages : Gained s t p id [(.user, prompt)] true

end

namespace ActionTurn

variable {Tree : Type} {config : CoreConfig} {digest : Tree → String} {U : Prop}
variable {s t : Core Tree Unit} {p : ProjectId} {id : ConversationId} {prompt : String}
variable {opened : OpenedAction} {before : PersistedConversation}
variable {session : PersistedAgentSession} {extra : Option CheckpointId} {α : Type}
variable {Q : α → Core Tree Unit → Prop}

/-! ## Failing -/

/-- How a failed turn ends. -/
def Failed (U : Prop) (s : Core Tree Unit) (p : ProjectId) (id : ConversationId)
    (prompt : String) (e : VibeCoderError) (t : Core Tree Unit) : Prop :=
  (Undone s t p id prompt ∧ (U → NoNewCheckpoint s t)) ∨
    (ActionStuck s t p id prompt e ∧ (U → Exhausted t p))

/-- A turn that fails is recovered first. -/
theorem wp_failAgentAction (hrec : Recovers config digest U s p id prompt opened before session)
    (h : Turning True s p id opened extra t) (error : VibeCoderError) :
    Wp (Undisturbed config digest U) () (failAgentAction config p opened extra error) Q
      (Failed U s p id prompt) t := by
  rw [failAgentAction, recoverFailedPersistedAgentAction, hrec.start.session]
  refine wp_seq trivial (wp_recoverPendingTurn hrec h _ _) (fun _ r _ hr => wp_throw ?_)
    (fun e r _ hr => ?_)
  · exact Or.inl ⟨hr.1, hr.2 trivial⟩
  · exact Or.inr ⟨⟨hr.1, hr.2.1⟩, hr.2.2⟩

/-! ## Closing -/

/-- The commit of an answer: both checkpoints go, and the tree stays as it was verified. -/
theorem wp_commitAgentAction (hrec : Recovers config digest U s p id prompt opened before session)
    {post : CheckpointMetadata} {outcome : BackendTaskOutcome} {counts : ToolCounts}
    (h : Turning True s p id opened (some post.checkpointId) t) (htree : t.tree p ≠ s.tree p)
    (hcalls : ∃ call ∈ outcome.turn.toolCalls,
      call.error = none ∧ call.tool ∈ agentActionMutationTools) :
    Wp (Undisturbed config digest U) () (commitAgentAction config p opened outcome counts post)
      (fun outcome r => ActionDone s r p id prompt outcome ∧ (U → NoNewCheckpoint s r))
      (Failed U s p id prompt) t := by
  rw [commitAgentAction]
  cases hanswer : (opened.conversation.withPending false).appendMessage .assistant
      outcome.turn.text with
  | error e => exact wp_failAgentAction hrec h e
  | ok completed =>
    have hvalid := PersistedConversation.validate_answered h.committed.valid h.committed.created
      hanswer
    have hsaid := PersistedConversation.said_append hanswer
    obtain ⟨-, -, -, hcompleted⟩ := PersistedConversation.appendMessage_ok hanswer
    refine wp_bind (wp_settle (Wp.mono trivial (wp_settleUpdate h.committed hvalid
      (by rw [hcompleted]; rfl) (by rw [hcompleted]; rfl) (by rw [hcompleted]; rfl))
      (fun _ r _ hr => ?_) (fun e r _ hr => ?_)))
    · obtain ⟨-, ⟨table, rfl⟩, hrecord⟩ := hr
      show Wp _ _ (tryRemoveVerification config p (some post.checkpointId) >>= fun a =>
        tryRemoveProjectCheckpoint config p opened.checkpoint.checkpointId >>= fun b => _) _ _ _
      refine wp_cleanup s True hrec.start.store h.leftover (fun a b checkpoints hnone => ?_)
      refine wp_pure ⟨⟨htree, hcalls, ?_, fun hdone => ?_⟩, fun hU => hnone trivial (Or.inr hU)⟩
      · refine hrec.start.gained hrecord hsaid ?_
        rw [hcompleted]
        rfl
      · rw [Bool.and_eq_true] at hdone
        exact hnone trivial (Or.inl hdone)
    · obtain ⟨rfl, -⟩ := hr
      exact wp_failAgentAction hrec h e

/-- The close of a turn: its transcript, its verification checkpoint, its commit. -/
theorem wp_closeAgentActionTurn
    (hrec : Recovers config digest U s p id prompt opened before session)
    (h : Turning True s p id opened none t)
    (action : Result (BackendTaskOutcome × List AgentEvent)) :
    Wp (Undisturbed config digest U) () (closeAgentActionTurn config p opened action)
      (fun outcome r => ActionDone s r p id prompt outcome ∧ (U → NoNewCheckpoint s r))
      (Failed U s p id prompt) t := by
  match action with
  | .error e => exact wp_failAgentAction hrec h e
  | .ok (outcome, events) =>
    rw [closeAgentActionTurn]
    cases hcounts : validateAgentActionTurn outcome.turn (.ofEvents events) with
    | error e => exact wp_failAgentAction hrec h e
    | ok counts =>
      refine wp_bind (wp_settle (Wp.mono trivial h.verification (fun post r _ hr => ?_)
        (fun e r _ hr => wp_failAgentAction hrec hr e)))
      obtain ⟨hturning, hdigest, -⟩ := hr
      dsimp only
      split
      · exact wp_failAgentAction hrec hturning _
      · -- different digests are digests of different trees
        rename_i hdiffers
        have htree : r.tree p ≠ s.tree p := by
          intro hsame
          rw [hdigest, hrec.start.baseline, hsame] at hdiffers
          exact hdiffers rfl
        exact wp_commitAgentAction hrec hturning htree (validateAgentActionTurn_ok hcounts).2

/-! ## The whole turn -/

theorem wp_runPersistedAgentActionTurn (policy : ModelRoutePolicyConfig)
    (hsettled : U → Settled config s p)
    (hfits : U → ∀ before asked, s.conversations.record p id = some before →
      before.appendMessage .user prompt = .ok asked →
      ∃ c, ConversationTable.commit
        { asked with turnPending := false, revision := before.revision + 1 } = .ok c) :
    Wp (Undisturbed config digest U) () (runPersistedAgentActionTurn config p id policy prompt)
      (fun outcome t => ActionDone s t p id prompt outcome ∧ (U → NoNewCheckpoint s t))
      (fun e t => t.conversations = s.conversations ∨ Failed U s p id prompt e t) s := by
  refine wp_resume_then (fun _ _ => Or.inl rfl) (fun _ hprompt => ?_)
  refine wp_seq trivial (wp_requireAgentActionRuntime _ _) (fun _ t _ ht => ?_)
    (fun _ t _ ht => Or.inl (by rw [ht]))
  rw [ht]
  refine wp_failIf (fun _ => Or.inl rfl) (fun hstore => ?_)
  refine wp_seq trivial (wp_openAgentActionTurn (prompt_valid hprompt)) (fun opened t _ ht => ?_)
    (fun _ t _ ht => Or.inl ht.1)
  obtain ⟨⟨before, session, hopened⟩, hturning⟩ := ht
  have hrec : Recovers config digest U s p id prompt opened before session := by
    obtain ⟨asked, hasked, heq⟩ := hopened.conversation
    refine ⟨hopened, by simpa using hstore, hsettled, fun hU => ?_⟩
    rw [heq]
    exact hfits hU before asked (ConversationTable.load_some hopened.loaded).1 hasked
  refine wp_bind (wp_settle (Wp.mono trivial hturning.backend (fun action r _ hr => ?_)
    (fun e r _ hr => ?_)))
  · exact Wp.mono trivial (wp_closeAgentActionTurn hrec hr (.ok action)) (fun _ _ _ h => h)
      (fun _ _ _ h => Or.inr h)
  · exact Wp.mono trivial (wp_closeAgentActionTurn hrec hr (.error e)) (fun _ _ _ h => h)
      (fun _ _ _ h => Or.inr h)

/-- **The action turn is all or nothing.**  Alone on the core and with no I/O fault of a store, a
    turn that returns `Ok` has changed the tree by a successful mutating call and committed both
    messages; one that fails after it committed its prompt has restored the tree, with that prompt
    alone and the marker clear, unless its error says that the recovery was refused.  If nothing
    outside refuses recoveries, none is refused before the epoch of the project is exhausted, and
    no checkpoint of the turn remains. -/
theorem action_turn_all_or_nothing (config : CoreConfig) (digest : Tree → String)
    (w : Nat → World Tree) (s : Core Tree Unit) (p : ProjectId) (id : ConversationId)
    (policy : ModelRoutePolicyConfig) (prompt : String) (hio : ∀ n, (w n).ioFault = none) :
    let run := runAlone (exec config digest ()) w
      (runPersistedAgentActionTurn config p id policy prompt) 0 s
    let t := run.2.2
    (∀ outcome, run.1 = .ok outcome → ActionDone s t p id prompt outcome ∧
      (Unobstructed config w s p id prompt → NoNewCheckpoint s t)) ∧
    (∀ e, run.1 = .error e → t.conversations.record p id ≠ s.conversations.record p id →
      (Undone s t p id prompt ∧
        (Unobstructed config w s p id prompt → NoNewCheckpoint s t)) ∨
      (ActionStuck s t p id prompt e ∧
        (Unobstructed config w s p id prompt → Exhausted t p))) := by
  intro run t
  have hwp : Wp (Undisturbed config digest (Unobstructed config w s p id prompt)) ()
      (runPersistedAgentActionTurn config p id policy prompt) _ _ s :=
    wp_runPersistedAgentActionTurn policy (fun hU => hU.settled) (fun hU => hU.fits)
  have hpost : Post _ _ run.1 t :=
    wp_run (w := w) (n := 0) (fun n => ⟨hio n, fun hU => hU.answers n⟩) hwp
  refine ⟨fun outcome hok => ?_, fun e herror hcommitted => ?_⟩
  · rw [hok] at hpost
    exact hpost
  · rw [herror] at hpost
    rcases hpost with hsame | hfailed
    · exact absurd (congrArg (fun table => table.record p id) hsame) hcommitted
    · exact hfailed

/-! ## Two runs -/

/-- The action turn that asks `hi`, run alone on that core. -/
def hiTurn (w : Nat → World Bool) :
    Result PersistedAgentActionTurnOutcome × Nat × Core Bool Unit :=
  runAlone (exec attachedConfig digestOf ()) w
    (runPersistedAgentActionTurn attachedConfig ⟨0⟩ ⟨1⟩ calmPolicy "hi") 0 emptyCore

theorem action_turn_all_or_nothing_writing :
    (hiTurn (fun _ => writing "done")).1.isOk = true ∧
      ∀ outcome, (hiTurn (fun _ => writing "done")).1 = .ok outcome →
        ActionDone emptyCore (hiTurn (fun _ => writing "done")).2.2 ⟨0⟩ ⟨1⟩ "hi" outcome :=
  ⟨by decide, fun outcome hok =>
    ((action_turn_all_or_nothing attachedConfig digestOf (fun _ => writing "done") emptyCore ⟨0⟩ ⟨1⟩
      calmPolicy "hi" (fun _ => rfl)).1 outcome hok).1⟩

/-- The rollback is refused, and the failed turn leaves the written tree and the marker. -/
theorem not_every_failure_undone :
    ¬ ∀ (w : Nat → World Bool) (e : VibeCoderError), (∀ n, (w n).ioFault = none) →
      (hiTurn w).1 = .error e →
      (hiTurn w).2.2.conversations.record ⟨0⟩ ⟨1⟩ ≠ emptyCore.conversations.record ⟨0⟩ ⟨1⟩ →
      Undone emptyCore (hiTurn w).2.2 ⟨0⟩ ⟨1⟩ "hi" ∧
        NoNewCheckpoint emptyCore (hiTurn w).2.2 := by
  intro h
  have hrun : (hiTurn (restless 30)).1 = .error (checkpointError
        "conversation_agent_action_rollback_failed_pending_preserved") ∧
      (hiTurn (restless 30)).2.2.conversations.record ⟨0⟩ ⟨1⟩ ≠
        emptyCore.conversations.record ⟨0⟩ ⟨1⟩ ∧
      (hiTurn (restless 30)).2.2.tree ⟨0⟩ = true := by
    decide
  have hundone := h (restless 30) _ (fun _ => rfl) hrun.1 hrun.2.1
  rw [hundone.1.tree] at hrun
  cases hrun.2.2

end ActionTurn

end VibeCoder
