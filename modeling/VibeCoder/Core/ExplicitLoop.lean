/-
  The explicit loop alone on the core (`run_persisted_explicit_agent_loop`): whatever the agent
  does in its turns, the loop commits once or restores its baseline, within its budgets.

  * `LoopUnobstructed` — nothing outside refuses a recovery or the end of a stopped loop;
  * `LoopDone`, `Undone`, `LoopStuck` — the three ways a loop that has committed its prompt ends;
  * `wp_explicitLoopIteration` — one iteration goes on with the turn still pending, or ends so;
  * `explicitLoopIterations_terminal` — the statement after the loop is never reached;
  * `explicit_loop_outcome_law`.
-/
import VibeCoder.Core.PendingTurn

namespace VibeCoder

open Resume

/-! ## What a loop leaves -/

section

variable {Tree : Type}

/-- Nothing outside refuses a recovery, or the last update of a stopped loop. -/
structure LoopUnobstructed (config : CoreConfig) (w : Nat → World Tree) (s : Core Tree Unit)
    (p : ProjectId) (id : ConversationId) (prompt : String) : Prop
    extends Unobstructed config w s p id prompt where
  stops : ∀ before asked answered reason, s.conversations.record p id = some before →
    before.appendMessage .user prompt = .ok asked →
    { asked with turnPending := false, revision := before.revision + 1 }.appendMessage .assistant
      (explicitAgentLoopStopMessage reason) = .ok answered →
    ∃ c, ConversationTable.commit answered = .ok c

/-- A loop that returned `Ok`. -/
structure LoopDone (policy : ExplicitAgentLoopPolicy) (s t : Core Tree Unit) (p : ProjectId)
    (id : ConversationId) (prompt : String) (outcome : PersistedExplicitAgentLoopOutcome) :
    Prop where
  committed_iff : outcome.workspaceCommitted = true ↔ outcome.stopReason = .completed
  rolledBack_iff : outcome.rollbackPerformed = false ↔ outcome.stopReason = .completed
  turns : outcome.turnsCompleted ≤ policy.maxTurns
  calls : outcome.stopReason = .completed → outcome.totalToolCalls ≤ policy.maxTotalToolCalls
  tree : outcome.stopReason ≠ .completed → t.tree p = s.tree p
  messages : Gained s t p id [(.user, prompt), (.assistant, outcome.assistantText)] false

/-- A loop whose end or recovery was refused, as its error says: the marker is preserved. -/
structure LoopStuck (s t : Core Tree Unit) (p : ProjectId) (id : ConversationId)
    (prompt : String) (e : VibeCoderError) : Prop where
  error : e = checkpointError "explicit_agent_loop_rollback_failed_pending_preserved" ∨
    e = persistenceError "explicit_agent_loop_failure_cleanup_failed_pending_preserved" ∨
    e = checkpointError "explicit_agent_loop_terminal_rollback_failed_pending_preserved" ∨
    e = persistenceError "explicit_agent_loop_terminal_persistence_failed_pending_preserved"
  messages : Gained s t p id [(.user, prompt)] true

end

namespace ExplicitLoop

variable {Tree : Type} {config : CoreConfig} {digest : Tree → String} {U : Prop}
variable {s t : Core Tree Unit} {prompt : String} {guard : ExplicitAgentLoopGuard}
variable {opened : OpenedAction} {before : PersistedConversation}
variable {session : PersistedAgentSession} {extra : Option CheckpointId} {α : Type}
variable {Q : α → Core Tree Unit → Prop} {progress : LoopProgress}

/-- How a failed loop ends. -/
def Failed (U : Prop) (s : Core Tree Unit) (p : ProjectId) (id : ConversationId)
    (prompt : String) (e : VibeCoderError) (t : Core Tree Unit) : Prop :=
  (Undone s t p id prompt ∧ (U → NoNewCheckpoint s t)) ∨
    (LoopStuck s t p id prompt e ∧ (U → Exhausted t p))

/-- What a loop needs to be recovered, or to stop. -/
structure Stops (config : CoreConfig) (digest : Tree → String) (U : Prop) (s : Core Tree Unit)
    (guard : ExplicitAgentLoopGuard) (prompt : String) (opened : OpenedAction)
    (before : PersistedConversation) (session : PersistedAgentSession) : Prop
    extends Recovers config digest U s guard.projectId guard.conversationId prompt opened before
      session where
  stops : U → ∀ reason answered, (opened.conversation.withPending false).appendMessage .assistant
    (explicitAgentLoopStopMessage reason) = .ok answered →
    ∃ c, ConversationTable.commit answered = .ok c

/-! ## Ending a loop -/

/-- A loop that fails is recovered first. -/
theorem wp_failExplicitLoop (hrec : Stops config digest U s guard prompt opened before session)
    (h : Turning U s guard.projectId guard.conversationId opened extra t)
    (error : VibeCoderError) :
    Wp (Undisturbed config digest U) () (failExplicitLoop config guard opened extra error) Q
      (Failed U s guard.projectId guard.conversationId prompt) t := by
  rw [failExplicitLoop, recoverFailedPersistedExplicitAgentLoop, hrec.start.handed]
  refine wp_seq trivial (wp_recoverPendingTurn hrec.toRecovers h _ _) (fun _ r _ hr => wp_throw ?_)
    (fun e r _ hr => ?_)
  · exact Or.inl ⟨hr.1, fun hU => hr.2 hU hU⟩
  · exact Or.inr ⟨⟨hr.1.imp_right Or.inl, hr.2.1⟩, hr.2.2⟩

/-- What an iteration that ends the loop has established. -/
def Finished (U : Prop) (s : Core Tree Unit) (guard : ExplicitAgentLoopGuard) (prompt : String)
    (step : LoopStep) (t : Core Tree Unit) : Prop :=
  ∃ outcome, step = .finished outcome ∧
    LoopDone guard.policy s t guard.projectId guard.conversationId prompt outcome ∧
    (U → NoNewCheckpoint s t)

/-- The stop message is always accepted: the capacity check has reserved its room. -/
theorem stop_append (hrec : Stops config digest U s guard prompt opened before session)
    (reason : ExplicitAgentLoopStopReason) :
    ∃ answered, (opened.conversation.withPending false).appendMessage .assistant
      (explicitAgentLoopStopMessage reason) = .ok answered := by
  obtain ⟨asked, hasked, heq⟩ := hrec.start.conversation
  obtain ⟨answered, hanswered⟩ := roomForTurn_append hrec.start.room hasked
    (explicitAgentLoopStopMessage_valid reason) false
  obtain ⟨htext, hcount, hbytes, -⟩ := PersistedConversation.appendMessage_ok hanswered
  rw [heq]
  exact ⟨_, PersistedConversation.appendMessage_eq .assistant htext hcount hbytes⟩

/-- A stopped loop: rolled back, then ended with its stop message. -/
theorem wp_finish (hrec : Stops config digest U s guard prompt opened before session)
    (h : Turning U s guard.projectId guard.conversationId opened extra t)
    {reason : ExplicitAgentLoopStopReason} (hreason : reason ≠ .completed)
    (hturns : progress.turnsCompleted ≤ guard.policy.maxTurns) :
    Wp (Undisturbed config digest U) ()
      (finishPersistedExplicitAgentLoopNonSuccess config guard opened extra reason progress)
      (Finished U s guard prompt)
      (Failed U s guard.projectId guard.conversationId prompt) t := by
  obtain ⟨x, hx, hxtree⟩ := h.baseline
  obtain ⟨answered, hanswered⟩ := stop_append hrec reason
  have hrollback := wp_rollback digest h.gate hx (fun hU => h.ready hrec.start (hrec.settled hU))
    hrec.store hrec.start.store
  rw [← h.committed.conversation, ← hrec.start.handed] at hrollback
  refine wp_failIf (fun hcompleted => absurd (beq_iff_eq.mp hcompleted) hreason) (fun _ => ?_)
  refine wp_bind (wp_mapError (Wp.mono trivial hrollback (fun _ r _ hr => ?_) (fun _ r _ hr => ?_)))
  · obtain ⟨hkept, -, htree⟩ := hr
    have hcommitted : Committed r.conversations guard.projectId guard.conversationId
        opened.conversation := by
      rw [hkept.conversations]
      exact h.committed
    have hvalid := PersistedConversation.validate_answered hcommitted.valid hcommitted.created
      hanswered
    have hsaid := PersistedConversation.said_append hanswered
    obtain ⟨-, -, -, heq⟩ := PersistedConversation.appendMessage_ok hanswered
    refine wp_resume_then (fun e he => ?_) (fun completed hcompleted => ?_)
    · rw [hanswered] at he
      cases he
    rw [hanswered] at hcompleted
    cases hcompleted
    refine wp_bind (wp_mapError (Wp.mono trivial (wp_settleUpdate hcommitted hvalid
      (by rw [heq]; rfl) (by rw [heq]; rfl) (by rw [heq]; rfl)) (fun _ r' _ hr' => ?_)
      (fun _ r' _ hr' => ?_)))
    · obtain ⟨-, ⟨table, rfl⟩, hrecord⟩ := hr'
      refine wp_cleanup s U hrec.start.store (fun hU y hy => ?_)
        (fun a b _ hnone => wp_pure ⟨_, rfl, ?_, fun hU => hnone hU (Or.inr hU)⟩)
      · rw [hkept.checkpoints] at hy
        exact h.leftover hU y hy
      · exact {
          committed_iff := ⟨fun hno => (by cases hno), fun h => absurd h hreason⟩
          rolledBack_iff := ⟨fun hno => (by cases hno), fun h => absurd h hreason⟩
          turns := hturns
          calls := fun h => absurd h hreason
          tree := fun _ => htree.trans hxtree
          messages := hrec.start.gained hrecord hsaid (by rw [heq]; rfl) }
    · obtain ⟨rfl, hrefused⟩ := hr'
      refine Or.inr ⟨⟨Or.inr (Or.inr (Or.inr rfl)), ?_⟩, fun hU => ?_⟩
      · exact hrec.start.gained hcommitted.stored (List.append_nil _).symm hcommitted.pending
      · obtain ⟨c, hc⟩ := hrec.stops hU reason answered hanswered
        rw [hrefused] at hc
        cases hc
  · obtain ⟨hkept, -, hexhausted⟩ := hr
    have hstored : r.conversations.record guard.projectId guard.conversationId =
        some opened.conversation := by
      rw [hkept.conversations]
      exact h.committed.stored
    refine Or.inr ⟨⟨Or.inr (Or.inr (Or.inl rfl)), ?_⟩, hexhausted⟩
    exact hrec.start.gained hstored (List.append_nil _).symm h.committed.pending

/-- A completed loop: its answer committed, its checkpoints dropped, its tree kept. -/
theorem wp_completeExplicitLoop (hrec : Stops config digest U s guard prompt opened before session)
    {verification : CheckpointMetadata} {body : String}
    (h : Turning U s guard.projectId guard.conversationId opened (some verification.checkpointId) t)
    (hturns : progress.turnsCompleted ≤ guard.policy.maxTurns)
    (hcalls : progress.totalToolCalls ≤ guard.policy.maxTotalToolCalls) :
    Wp (Undisturbed config digest U) ()
      (completeExplicitLoop config guard opened progress verification body)
      (Finished U s guard prompt)
      (Failed U s guard.projectId guard.conversationId prompt) t := by
  rw [completeExplicitLoop]
  cases hanswer : (opened.conversation.withPending false).appendMessage .assistant body with
  | error e => exact wp_failExplicitLoop hrec h e
  | ok completed =>
    have hvalid := PersistedConversation.validate_answered h.committed.valid h.committed.created
      hanswer
    have hsaid := PersistedConversation.said_append hanswer
    obtain ⟨-, -, -, heq⟩ := PersistedConversation.appendMessage_ok hanswer
    refine wp_bind (wp_settle (Wp.mono trivial (wp_settleUpdate h.committed hvalid
      (by rw [heq]; rfl) (by rw [heq]; rfl) (by rw [heq]; rfl)) (fun _ r _ hr => ?_)
      (fun e r _ hr => ?_)))
    · obtain ⟨-, ⟨table, rfl⟩, hrecord⟩ := hr
      show Wp _ _ (tryRemoveVerification config guard.projectId (some verification.checkpointId) >>=
        fun a => tryRemoveProjectCheckpoint config guard.projectId
          opened.checkpoint.checkpointId >>= fun b => _) _ _ _
      refine wp_cleanup s U hrec.start.store h.leftover
        (fun a b _ hnone => wp_pure ⟨_, rfl, ?_, fun hU => hnone hU (Or.inr hU)⟩)
      exact {
        committed_iff := ⟨fun _ => rfl, fun _ => rfl⟩
        rolledBack_iff := ⟨fun _ => rfl, fun _ => rfl⟩
        turns := hturns
        calls := fun _ => hcalls
        tree := fun hne => absurd rfl hne
        messages := hrec.start.gained hrecord hsaid (by rw [heq]; rfl) }
    · obtain ⟨rfl, -⟩ := hr
      exact wp_failExplicitLoop hrec h e

/-! ## One iteration -/

/-- An iteration goes on with the turn pending and a turn to spare, or it has ended the loop. -/
def StepEnd (U : Prop) (s : Core Tree Unit) (guard : ExplicitAgentLoopGuard) (prompt : String)
    (opened : OpenedAction) (iteration : Nat) (step : LoopStep) (t : Core Tree Unit) : Prop :=
  match step with
  | .again progress => iteration < guard.policy.maxTurns ∧ progress.turnsCompleted ≤ iteration ∧
    Turning U s guard.projectId guard.conversationId opened none t
  | .finished outcome =>
    LoopDone guard.policy s t guard.projectId guard.conversationId prompt outcome ∧
      (U → NoNewCheckpoint s t)

theorem Finished.stepEnd {iteration : Nat} {step : LoopStep} (h : Finished U s guard prompt step t) :
    StepEnd U s guard prompt opened iteration step t := by
  obtain ⟨outcome, rfl, hdone⟩ := h
  exact hdone

/-- A part that ends the loop ends the iteration. -/
theorem wp_stepEnd {iteration : Nat} {body : CoreM LoopStep}
    (h : Wp (Undisturbed config digest U) () body (Finished U s guard prompt)
      (Failed U s guard.projectId guard.conversationId prompt) t) :
    Wp (Undisturbed config digest U) () body (StepEnd U s guard prompt opened iteration)
      (Failed U s guard.projectId guard.conversationId prompt) t :=
  Wp.mono trivial h (fun _ _ _ hr => hr.stepEnd) (fun _ _ _ hr => hr)

/-- `Continue`: one more iteration only after real progress, and only if one remains. -/
theorem wp_continueExplicitLoop (hrec : Stops config digest U s guard prompt opened before session)
    {verification : CheckpointMetadata} {iteration mutations : Nat}
    (h : Turning U s guard.projectId guard.conversationId opened (some verification.checkpointId) t)
    (hnew : verification.checkpointId ≠ opened.checkpoint.checkpointId)
    (hturns : progress.turnsCompleted ≤ iteration) (hlast : iteration ≤ guard.policy.maxTurns) :
    Wp (Undisturbed config digest U) ()
      (continueExplicitLoop config guard opened iteration progress verification mutations)
      (StepEnd U s guard prompt opened iteration)
      (Failed U s guard.projectId guard.conversationId prompt) t := by
  rw [continueExplicitLoop]
  split
  · exact wp_failExplicitLoop hrec h _
  · dsimp only
    split
    · exact wp_stepEnd (wp_finish hrec h (by decide) (Nat.le_trans hturns hlast))
    · refine wp_seq trivial (h.drop hnew hrec.start.store) (fun _ r _ hr => ?_)
        (fun _ _ _ hr => hr.elim)
      split
      · exact wp_stepEnd (wp_finish hrec hr (by decide) (Nat.le_trans hturns hlast))
      · rename_i hmore
        exact wp_pure ⟨Nat.lt_of_le_of_ne hlast hmore, hturns, hr⟩

/-- Reading the cancellation flag changes nothing. -/
theorem wp_isRequested {flag : Flag} {f : Bool → CoreM α}
    {E : VibeCoderError → Core Tree Unit → Prop}
    (h : ∀ requested, Wp (Undisturbed config digest U) () (f requested) Q E t) :
    Wp (Undisturbed config digest U) () (act (.isRequested flag) >>= f) Q E t :=
  wp_bind (wp_alone (fun _ _ => h _))

/-- After an accepted transcript: the budgets are checked before anything is committed. -/
theorem wp_verifyExplicitLoopTurn
    (hrec : Stops config digest U s guard prompt opened before session) {iteration : Nat}
    {response : ExplicitAgentLoopDecision × String} {counts : ToolCounts}
    (h : Turning U s guard.projectId guard.conversationId opened none t)
    (hturns : progress.turnsCompleted ≤ iteration) (hlast : iteration ≤ guard.policy.maxTurns) :
    Wp (Undisturbed config digest U) ()
      (verifyExplicitLoopTurn config guard opened iteration progress response counts)
      (StepEnd U s guard prompt opened iteration)
      (Failed U s guard.projectId guard.conversationId prompt) t := by
  have hmax : progress.turnsCompleted ≤ guard.policy.maxTurns := Nat.le_trans hturns hlast
  refine wp_bind (wp_settle (Wp.mono trivial h.verification (fun verification r _ hr => ?_)
    (fun e r _ hr => wp_failExplicitLoop hrec hr e)))
  obtain ⟨hturning, -, hnew⟩ := hr
  dsimp only
  split
  · exact wp_stepEnd (wp_finish hrec hturning (by decide) hmax)
  · rename_i hbudget
    refine wp_isRequested (fun requested => ?_)
    cases requested with
    | true => exact wp_stepEnd (wp_finish hrec hturning (by decide) hmax)
    | false =>
      cases hdecision : response.1 with
      | «continue» => exact wp_continueExplicitLoop hrec hturning hnew hturns hlast
      | complete =>
        exact wp_stepEnd (wp_completeExplicitLoop hrec hturning hmax (Nat.not_lt.mp hbudget))

/-- One more turn is counted once. -/
theorem saturatingAdd_le (max a b : Nat) : saturatingAdd max a b ≤ a + b := by
  rw [saturatingAdd]
  split <;> omega

/-- After a completed inner turn. -/
theorem wp_judgeExplicitLoopTurn
    (hrec : Stops config digest U s guard prompt opened before session) {iteration : Nat}
    {outcome : BackendTaskOutcome} {events : List AgentEvent}
    (h : Turning U s guard.projectId guard.conversationId opened none t)
    (hturns : progress.turnsCompleted + 1 ≤ iteration) (hlast : iteration ≤ guard.policy.maxTurns) :
    Wp (Undisturbed config digest U) ()
      (judgeExplicitLoopTurn config guard opened iteration progress outcome events)
      (StepEnd U s guard prompt opened iteration)
      (Failed U s guard.projectId guard.conversationId prompt) t := by
  have hcounted : saturatingAdd u8Max progress.turnsCompleted 1 ≤ iteration :=
    Nat.le_trans (saturatingAdd_le _ _ _) hturns
  refine wp_isRequested (fun requested => ?_)
  cases requested with
  | true => exact wp_stepEnd (wp_finish hrec h (by decide) (Nat.le_trans hcounted hlast))
  | false =>
    dsimp only
    cases parseExplicitAgentLoopResponse outcome.turn.text with
    | error e => exact wp_failExplicitLoop hrec h e
    | ok response =>
      dsimp only
      cases validateAgentLoopIterationTurn outcome.turn (.ofEvents events) with
      | error e => exact wp_failExplicitLoop hrec h e
      | ok counts => exact wp_verifyExplicitLoopTurn hrec h hcounted hlast

/-- After a failed inner turn. -/
theorem wp_judgeExplicitLoopFailure
    (hrec : Stops config digest U s guard prompt opened before session)
    (h : Turning U s guard.projectId guard.conversationId opened none t)
    (hmax : progress.turnsCompleted ≤ guard.policy.maxTurns) (error : VibeCoderError) :
    Wp (Undisturbed config digest U) ()
      (judgeExplicitLoopFailure config guard opened progress error)
      (Finished U s guard prompt)
      (Failed U s guard.projectId guard.conversationId prompt) t := by
  rw [judgeExplicitLoopFailure]
  split
  · refine wp_isRequested (fun requested => ?_)
    cases requested with
    | true => exact wp_finish hrec h (by decide) hmax
    | false => exact wp_failExplicitLoop hrec h error
  · exact wp_failExplicitLoop hrec h error

/-- **One iteration.**  It ends the loop in one of its ways, or leaves the turn pending with a
    further iteration to go. -/
theorem wp_explicitLoopIteration
    (hrec : Stops config digest U s guard prompt opened before session) {iteration : Nat}
    (h : Turning U s guard.projectId guard.conversationId opened none t)
    (routePolicy : ModelRoutePolicyConfig) (hturns : progress.turnsCompleted + 1 ≤ iteration)
    (hlast : iteration ≤ guard.policy.maxTurns) :
    Wp (Undisturbed config digest U) ()
      (explicitLoopIteration config guard opened routePolicy prompt iteration progress)
      (StepEnd U s guard prompt opened iteration)
      (Failed U s guard.projectId guard.conversationId prompt) t := by
  have hmax : progress.turnsCompleted ≤ guard.policy.maxTurns := by omega
  refine wp_isRequested (fun requested => ?_)
  cases requested with
  | true => exact wp_stepEnd (wp_finish hrec h (by decide) hmax)
  | false =>
    cases buildExplicitAgentLoopIterationPrompt prompt iteration guard.policy.maxTurns with
    | error e => exact wp_failExplicitLoop hrec h e
    | ok iterationPrompt =>
      refine wp_bind (wp_settle (Wp.mono trivial h.backend (fun action r _ hr => ?_)
        (fun e r _ hr => ?_)))
      · exact wp_judgeExplicitLoopTurn hrec hr hturns hlast
      · exact wp_stepEnd (wp_judgeExplicitLoopFailure hrec hr hmax e)

/-! ## The whole loop -/

/-- **The loop.**  Induction on the iterations that remain; the turns completed so far and those
    still to come fit into the policy. -/
theorem wp_explicitLoopIterations
    (hrec : Stops config digest U s guard prompt opened before session)
    (terminal : VibeCoderError) (routePolicy : ModelRoutePolicyConfig) (remaining : Nat) :
    ∀ {progress : LoopProgress} {t : Core Tree Unit},
      Turning U s guard.projectId guard.conversationId opened none t →
      progress.turnsCompleted + (remaining + 1) ≤ guard.policy.maxTurns →
      Wp (Undisturbed config digest U) ()
        (explicitLoopIterations config guard opened terminal routePolicy prompt (remaining + 1)
          progress)
        (fun outcome r =>
          LoopDone guard.policy s r guard.projectId guard.conversationId prompt outcome ∧
            (U → NoNewCheckpoint s r))
        (Failed U s guard.projectId guard.conversationId prompt) t := by
  induction remaining with
  | zero =>
    intro progress t h hbudget
    refine wp_seq trivial (wp_explicitLoopIteration hrec h routePolicy (by omega) (by omega))
      (fun step r _ hr => ?_) (fun _ _ _ hr => hr)
    cases step with
    | again next =>
      -- the last iteration never asks for another one
      have hmore : guard.policy.maxTurns - 0 < guard.policy.maxTurns := hr.1
      omega
    | finished outcome => exact wp_pure hr
  | succ remaining ih =>
    intro progress t h hbudget
    refine wp_seq trivial (wp_explicitLoopIteration hrec h routePolicy (by omega) (by omega))
      (fun step r _ hr => ?_) (fun _ _ _ hr => hr)
    cases step with
    | again next =>
      obtain ⟨hmore, hturns, hturning⟩ := hr
      exact ih hturning (by omega)
    | finished outcome => exact wp_pure hr

/-- The statement after the loop is never reached: it does not matter what it returns. -/
theorem explicitLoopIterations_terminal
    (hrec : Stops config digest U s guard prompt opened before session) {w : Nat → World Tree}
    (hw : ∀ n, Answers Tree U (w n)) (terminal terminal' : VibeCoderError)
    (routePolicy : ModelRoutePolicyConfig) (remaining : Nat) :
    ∀ {progress : LoopProgress} {t : Core Tree Unit} {n : Nat},
      Turning U s guard.projectId guard.conversationId opened none t →
      progress.turnsCompleted + (remaining + 1) ≤ guard.policy.maxTurns →
      runAlone (exec config digest ()) w (explicitLoopIterations config guard opened terminal
        routePolicy prompt (remaining + 1) progress) n t =
      runAlone (exec config digest ()) w (explicitLoopIterations config guard opened terminal'
        routePolicy prompt (remaining + 1) progress) n t := by
  induction remaining with
  | zero =>
    intro progress t n h hbudget
    refine runAlone_bind_congr hw
      (wp_explicitLoopIteration hrec h routePolicy (by omega) (by omega)) (fun step m r hr => ?_)
    cases step with
    | again next =>
      have hmore : guard.policy.maxTurns - 0 < guard.policy.maxTurns := hr.1
      omega
    | finished outcome => rfl
  | succ remaining ih =>
    intro progress t n h hbudget
    refine runAlone_bind_congr hw
      (wp_explicitLoopIteration hrec h routePolicy (by omega) (by omega)) (fun step m r hr => ?_)
    cases step with
    | again next =>
      obtain ⟨hmore, hturns, hturning⟩ := hr
      exact ih hturning (by omega)
    | finished outcome => rfl

/-- An opened loop has what it needs to be recovered, or to stop. -/
theorem stops_of_unobstructed {w : Nat → World Tree}
    (hopened : Opened config digest s guard.projectId guard.conversationId prompt opened before
      session) (hstore : config.conversationStore = true) :
    Stops config digest (LoopUnobstructed config w s guard.projectId guard.conversationId prompt) s
      guard prompt opened before session := by
  obtain ⟨asked, hasked, heq⟩ := hopened.conversation
  have hrecord := (ConversationTable.load_some hopened.loaded).1
  refine ⟨⟨hopened, hstore, fun hU => hU.settled, fun hU => ?_⟩, fun hU reason answered h => ?_⟩
  · rw [heq]
    exact hU.fits before asked hrecord hasked
  · rw [heq] at h
    exact hU.stops before asked answered reason hrecord hasked h

/-- The checks of a loop before it opens its turn only start its guard. -/
theorem wp_prepareExplicitLoop :
    Wp (Undisturbed config digest U) () (prepareExplicitLoop config guard prompt)
      (fun _ t => (∃ started, t = { s with startedGuards := started }) ∧
        messageTextInvalid prompt = false ∧ config.conversationStore = true)
      (fun _ t => t.conversations = s.conversations) s := by
  refine wp_resume_then (fun _ _ => rfl) (fun _ hprompt => ?_)
  refine wp_bind (wp_alone (fun w _ => ?_))
  rw [exec]
  split
  · exact rfl
  · refine wp_isRequested (fun requested => wp_failIf (fun _ => rfl) (fun _ => ?_))
    refine wp_seq trivial (wp_requireAgentActionRuntime _ _) (fun _ t _ ht => ?_)
      (fun _ t _ ht => by rw [ht])
    rw [ht]
    refine wp_resume ?_
    cases hstore : config.conversationStore with
    | false => exact rfl
    | true => exact ⟨⟨_, rfl⟩, prompt_valid hprompt, rfl⟩

/-- The start of a loop: nothing is committed, or its turn is open. -/
theorem wp_openExplicitLoop :
    Wp (Undisturbed config digest U) () (openExplicitLoop config guard prompt)
      (fun opened t => config.conversationStore = true ∧
        (∃ before session, Opened config digest s guard.projectId guard.conversationId prompt
          opened before session) ∧
        Turning U s guard.projectId guard.conversationId opened none t)
      (fun _ t => t.conversations = s.conversations) s := by
  refine wp_seq trivial wp_prepareExplicitLoop (fun _ t _ ht => ?_) (fun _ _ _ ht => ht)
  obtain ⟨⟨started, rfl⟩, hprompt, hstore⟩ := ht
  refine Wp.mono trivial (wp_openAgentActionTurn hprompt) (fun opened t _ ht => ?_)
    (fun _ t _ ht => ht.1)
  -- a started guard is nothing a turn looks at
  obtain ⟨⟨before, session, ho⟩, hturning⟩ := ht
  exact ⟨hstore, ⟨before, session, ho.loaded, ho.owned, ho.handed, ho.room, ho.conversation,
    ho.baseline, ho.store⟩, ⟨hturning.gate, hturning.committed, hturning.others, hturning.ids,
    hturning.states, hturning.baseline, fun _ => hturning.leftover trivial⟩⟩

/-- **The explicit loop outcome law.**  Alone on the core and with no I/O fault of a store, a loop
    that returns `Ok` has committed its workspace exactly if it completed, within its turns and,
    if completed, its tool calls; a stopped loop has restored the baseline; either has appended its
    prompt and one answer.  A loop that fails after it committed its prompt has restored the
    baseline, with that prompt alone and the marker clear, unless its error says that the recovery
    was refused.  If nothing outside refuses recoveries, none is refused before the epoch of the
    project is exhausted, and no checkpoint of the loop remains.  The statement after the loop is
    never reached. -/
theorem explicit_loop_outcome_law (config : CoreConfig) (digest : Tree → String)
    (w : Nat → World Tree) (s : Core Tree Unit) (guard : ExplicitAgentLoopGuard)
    (routePolicy : ModelRoutePolicyConfig) (prompt : String) (hio : ∀ n, (w n).ioFault = none) :
    let p := guard.projectId
    let id := guard.conversationId
    let run := runAlone (exec config digest ()) w
      (runPersistedExplicitAgentLoop config guard routePolicy prompt) 0 s
    let t := run.2.2
    (∀ outcome, run.1 = .ok outcome → LoopDone guard.policy s t p id prompt outcome ∧
      (LoopUnobstructed config w s p id prompt → NoNewCheckpoint s t)) ∧
    (∀ e, run.1 = .error e → t.conversations.record p id ≠ s.conversations.record p id →
      (Undone s t p id prompt ∧
        (LoopUnobstructed config w s p id prompt → NoNewCheckpoint s t)) ∨
      (LoopStuck s t p id prompt e ∧
        (LoopUnobstructed config w s p id prompt → Exhausted t p))) ∧
    (∀ terminal, runAlone (exec config digest ()) w
      (runExplicitLoopEnding config guard terminal routePolicy prompt) 0 s = run) := by
  intro p id run t
  have hw : ∀ n, Answers Tree (LoopUnobstructed config w s p id prompt) (w n) :=
    fun n => ⟨hio n, fun hU => hU.answers n⟩
  have hopen : Wp (Undisturbed config digest (LoopUnobstructed config w s p id prompt)) ()
      (openExplicitLoop config guard prompt) _ _ s := wp_openExplicitLoop
  have hturns : 0 < guard.policy.maxTurns := guard.policy.turns_pos
  obtain ⟨remaining, hremaining⟩ : ∃ m, guard.policy.maxTurns = m + 1 :=
    ⟨guard.policy.maxTurns - 1, by omega⟩
  have hbudget : ∀ baseline, (LoopProgress.start baseline).turnsCompleted + (remaining + 1) ≤
      guard.policy.maxTurns := by
    intro baseline
    show 0 + (remaining + 1) ≤ guard.policy.maxTurns
    omega
  have hwp : ∀ terminal, Wp (Undisturbed config digest (LoopUnobstructed config w s p id prompt)) ()
      (runExplicitLoopEnding config guard terminal routePolicy prompt)
      (fun outcome t => LoopDone guard.policy s t p id prompt outcome ∧
        (LoopUnobstructed config w s p id prompt → NoNewCheckpoint s t))
      (fun e t => t.conversations = s.conversations ∨
        Failed (LoopUnobstructed config w s p id prompt) s p id prompt e t) s := by
    intro terminal
    refine wp_seq trivial hopen (fun opened t _ ht => ?_) (fun _ _ _ ht => Or.inl ht)
    obtain ⟨hstore, ⟨before, session, hopened⟩, hturning⟩ := ht
    rw [hremaining]
    exact Wp.mono trivial (wp_explicitLoopIterations (stops_of_unobstructed hopened hstore) terminal
      routePolicy remaining hturning (hbudget _)) (fun _ _ _ hr => hr) (fun _ _ _ hr => Or.inr hr)
  have hpost : Post _ _ run.1 t := wp_run (w := w) (n := 0) hw (hwp _)
  refine ⟨fun outcome hok => ?_, fun e herror hcommitted => ?_, fun terminal => ?_⟩
  · rw [hok] at hpost
    exact hpost
  · rw [herror] at hpost
    rcases hpost with hsame | hfailed
    · exact absurd (congrArg (fun table => table.record p id) hsame) hcommitted
    · exact hfailed
  · refine runAlone_bind_congr hw hopen (fun opened m r hr => ?_)
    obtain ⟨hstore, ⟨before, session, hopened⟩, hturning⟩ := hr
    rw [hremaining]
    exact explicitLoopIterations_terminal (stops_of_unobstructed hopened hstore) hw terminal _
      routePolicy remaining hturning (hbudget _)

/-! ## A refused recovery -/

/-- While the session of a project is being created, every rollback of the project is refused. -/
theorem wp_rollback_refused {p : ProjectId} {k : CheckpointId}
    {permitted : Option (ConversationId × SessionId)} {state : PersistedProjectState}
    (hstore : config.projectStateStore = true) (hstate : t.projectStates p = some state)
    (hcreation : state.sessionCreationPending = true) :
    Wp (Undisturbed config digest U) () (rollbackProjectCheckpointInternal config p k permitted)
      (fun _ _ => False) (fun _ r => r.conversations = t.conversations) t := by
  refine wp_lifecycle_alone (fun _ _ => rfl) (fun _ => ?_)
  refine wp_ask_any (fun _ => rfl) (fun _ => wp_ensureNoActive (fun _ _ => rfl) ?_)
  refine wp_ask_any (fun _ => rfl) (fun _ => ?_)
  refine wp_invalidate (fun _ _ _ => rfl) (fun policy => ?_)
  refine wp_bind ?_
  rw [prepareRollback, persistedProjectSession, if_pos hstore]
  refine wp_bind (wp_bind (wp_ask (fun w hw => ?_)))
  rw [Core.answer, hw.1]
  refine wp_resume ?_
  rw [hstate, rollbackProjectSession, if_pos hcreation]
  exact rfl

/-- A bridge without a transport provider matches no gateway profile, so no backend task gets as
    far as a turn. -/
theorem wp_backend_mismatch {p : ProjectId} {session : SessionId}
    {policy : ModelRoutePolicyConfig} {text : String} {bridge : ModelGatewayBridgeIdentity}
    (hbridge : config.bridge = some bridge) (hempty : bridge.transportProvider = "") :
    Wp (Undisturbed config digest U) () (runBackendTask config p session policy text)
      (fun _ _ => False) (fun _ _ => True) t := by
  refine wp_lifecycle_alone (fun _ _ => trivial) (fun _ => wp_bind (wp_bind ?_))
  refine wp_ask_any (fun _ => trivial) (fun _ => wp_ensureNoActive (fun _ _ => trivial) ?_)
  refine wp_ask_any (fun _ => trivial) (fun _ => wp_ask_any (fun _ => trivial) (fun _ => ?_))
  refine wp_ask_any (fun _ => trivial) (fun _ => wp_failIf (fun _ => trivial) (fun _ => ?_))
  refine wp_ask_any (fun _ => trivial) (fun profile => ?_)
  refine wp_resume_then (fun _ _ => trivial) (fun _ _ => wp_resume ?_)
  rw [hbridge]
  dsimp only
  rw [requireAgentGatewayBridgeMatchesProfile, hempty]
  simp [Post]

/-- With both, the first iteration fails and leaves the marker. -/
theorem wp_loop_refused {state : PersistedProjectState} {bridge : ModelGatewayBridgeIdentity}
    (hstore : config.projectStateStore = true)
    (hstate : t.projectStates guard.projectId = some state)
    (hcreation : state.sessionCreationPending = true) (hbridge : config.bridge = some bridge)
    (hempty : bridge.transportProvider = "") (terminal : VibeCoderError)
    (routePolicy : ModelRoutePolicyConfig) (remaining : Nat) :
    Wp (Undisturbed config digest U) ()
      (explicitLoopIterations config guard opened terminal routePolicy prompt (remaining + 1)
        progress)
      (fun _ _ => False) (fun _ r => r.conversations = t.conversations) t := by
  have hrefused : ∀ r : Core Tree Unit, Kept t r → ∀ {k : CheckpointId} {e : VibeCoderError}
      {permitted : Option (ConversationId × SessionId)},
      Wp (Undisturbed config digest U) ()
        (mapError (rollbackProjectCheckpointInternal config guard.projectId k permitted) e)
        (fun _ _ => False) (fun _ r => r.conversations = t.conversations) r := by
    intro r hr k e permitted
    have hstate' : r.projectStates guard.projectId = some state := by
      rw [hr.projectStates]
      exact hstate
    refine wp_mapError (Wp.mono trivial (wp_rollback_refused hstore hstate' hcreation)
      (fun _ _ _ h => h) (fun _ v _ hv => ?_))
    rw [hv]
    exact hr.conversations
  have hfail : ∀ r : Core Tree Unit, Kept t r → ∀ {β : Type} {R : β → Core Tree Unit → Prop}
      {extra : Option CheckpointId} (e : VibeCoderError),
      Wp (Undisturbed config digest U) () (failExplicitLoop config guard opened extra e : CoreM β) R
        (fun _ r => r.conversations = t.conversations) r := fun r hr =>
    fun e => wp_bind (wp_bind (Wp.mono trivial (hrefused r hr) (fun _ _ _ h => h.elim)
      (fun _ _ _ h => h)))
  have hfinish : ∀ r : Core Tree Unit, Kept t r → ∀ {R : LoopStep → Core Tree Unit → Prop}
      {next : LoopProgress},
      Wp (Undisturbed config digest U) ()
        (finishPersistedExplicitAgentLoopNonSuccess config guard opened none .cancelled next) R
        (fun _ r => r.conversations = t.conversations) r := fun r hr =>
    wp_failIf (fun h => by cases h) (fun _ => wp_bind (Wp.mono trivial (hrefused r hr)
      (fun _ _ _ h => h.elim) (fun _ _ _ h => h)))
  refine wp_bind (wp_isRequested (fun requested => ?_))
  cases requested with
  | true => exact hfinish t (Kept.refl t)
  | false =>
    cases buildExplicitAgentLoopIterationPrompt prompt _ guard.policy.maxTurns with
    | error e => exact hfail t (Kept.refl t) e
    | ok text =>
      have hbackend : Wp (Undisturbed config digest U) ()
          (runBackendTask config guard.projectId opened.session routePolicy text) _ _ t :=
        (wp_backend_mismatch hbridge hempty).and (wp_runBackendTask opened.session routePolicy text)
      refine wp_bind (wp_settle (Wp.mono trivial hbackend (fun _ _ _ h => h.1.elim)
        (fun e r _ hr => ?_)))
      have hkept := hr.2.1
      show Wp _ _ (judgeExplicitLoopFailure config guard opened progress e) _ _ _
      rw [judgeExplicitLoopFailure]
      split
      · refine wp_isRequested (fun requested => ?_)
        cases requested with
        | true => exact hfinish r hkept
        | false => exact hfail r hkept e
      · exact hfail r hkept e

/-! ## Two runs -/

/-- A loop of at most two turns on that conversation. -/
def twoTurns : ExplicitAgentLoopGuard where
  projectId := ⟨0⟩
  conversationId := ⟨1⟩
  policy := {
    maxTurns := 2
    maxTotalToolCalls := 8
    maxSameWorkspaceOccurrences := 2
    turns_pos := by decide
    turns_le := by decide
    calls_pos := by decide
    calls_le := by decide
    occurrences_ge := by decide
    occurrences_le := by decide }
  cancellation := 0
  started := 0

theorem explicit_loop_outcome_law_twoTurns :
    let run := runAlone (exec attachedConfig digestOf ()) (fun _ => writing "done")
      (runPersistedExplicitAgentLoop attachedConfig twoTurns calmPolicy "hi") 0 emptyCore
    (∀ outcome, run.1 = .ok outcome →
      LoopDone twoTurns.policy emptyCore run.2.2 ⟨0⟩ ⟨1⟩ "hi" outcome) ∧
    ∀ terminal, runAlone (exec attachedConfig digestOf ()) (fun _ => writing "done")
      (runExplicitLoopEnding attachedConfig twoTurns terminal calmPolicy "hi") 0 emptyCore = run :=
  have h := explicit_loop_outcome_law attachedConfig digestOf (fun _ => writing "done") emptyCore
    twoTurns calmPolicy "hi" (fun _ => rfl)
  ⟨fun outcome hok => (h.1 outcome hok).1, h.2.2⟩

/-- A core whose bridge names no transport provider. -/
def mismatchedConfig : CoreConfig :=
  { attachedConfig with
    bridge := some {
      gatewayId := "omniroute"
      transportProvider := ""
      exactModelIdPassthrough := true } }

/-- The small core, with the project's own session still being created. -/
def creatingCore : Core Bool Unit :=
  { emptyCore with
    projectStates := fun _ => some {
      schema := projectStateSchemaV1
      revision := 0
      projectId := ⟨0⟩
      sessionCreationPending := true
      agentSession := none
      routePolicy := none } }

/-- The opening of the loop that asks `hi` there. -/
def hiOpening : Result OpenedAction × Nat × Core Bool Unit :=
  runAlone (exec mismatchedConfig digestOf ()) (fun _ => World.calm "" (fun tree => tree))
    (openExplicitLoop mismatchedConfig twoTurns "hi") 0 creatingCore

/-- The inner turn fails, the rollback is refused, and the failed loop leaves the marker. -/
theorem not_every_loop_undone :
    ¬ ∀ (w : Nat → World Bool) (e : VibeCoderError), (∀ n, (w n).ioFault = none) →
      let run := runAlone (exec mismatchedConfig digestOf ()) w
        (runPersistedExplicitAgentLoop mismatchedConfig twoTurns calmPolicy "hi") 0 creatingCore
      run.1 = .error e →
      run.2.2.conversations.record ⟨0⟩ ⟨1⟩ ≠ creatingCore.conversations.record ⟨0⟩ ⟨1⟩ →
      Undone creatingCore run.2.2 ⟨0⟩ ⟨1⟩ "hi" ∧ NoNewCheckpoint creatingCore run.2.2 := by
  intro h
  have hfacts : hiOpening.1.isOk = true ∧
      (hiOpening.2.2.conversations.record ⟨0⟩ ⟨1⟩).map PersistedConversation.turnPending =
        some true ∧
      (hiOpening.2.2.projectStates ⟨0⟩).map PersistedProjectState.sessionCreationPending =
        some true := by
    decide
  rcases hopening : hiOpening with ⟨answer, m, t⟩
  rw [hopening] at hfacts
  obtain ⟨hok, hpending, hcreation⟩ := hfacts
  cases answer with
  | error e => cases hok
  | ok opened =>
    rw [Option.map_eq_some_iff] at hcreation
    obtain ⟨state, hstate, hcreation⟩ := hcreation
    -- the rest of the run, from the opened turn
    have hrefused : Wp (Undisturbed mismatchedConfig digestOf False) ()
        (explicitLoopIterations mismatchedConfig twoTurns opened
          (agentError "explicit_agent_loop_unreachable_terminal_state") calmPolicy "hi" 2
          (.start opened.checkpoint))
        (fun _ _ => False) (fun _ r => r.conversations = t.conversations) t :=
      wp_loop_refused rfl hstate hcreation rfl rfl _ calmPolicy 1
    have hpost := wp_run (w := fun _ => World.calm "" (fun tree => tree)) (n := m)
      (fun _ => ⟨rfl, fun hfalse => hfalse.elim⟩) hrefused
    have hwhole := runAlone_bind_ok (exec mismatchedConfig digestOf ())
      (fun _ => World.calm "" (fun tree => tree)) (fun opened =>
        explicitLoopIterations mismatchedConfig twoTurns opened
          (agentError "explicit_agent_loop_unreachable_terminal_state") calmPolicy "hi" 2
          (.start opened.checkpoint)) hopening
    rw [← hwhole] at hpost
    revert hpost
    generalize hrun : runAlone (exec mismatchedConfig digestOf ()) _ _ 0 creatingCore = run
    obtain ⟨result, k, r⟩ := run
    cases result with
    | ok outcome => exact fun hpost => hpost.elim
    | error e =>
      intro hpost
      have hsame : r.conversations = t.conversations := hpost
      rw [← hsame, Option.map_eq_some_iff] at hpending
      obtain ⟨c, hc, hmarked⟩ := hpending
      have hcall : runAlone (exec mismatchedConfig digestOf ())
          (fun _ => World.calm "" (fun tree => tree))
          (runPersistedExplicitAgentLoop mismatchedConfig twoTurns calmPolicy "hi") 0 creatingCore =
          (.error e, k, r) := hrun
      have hundone := h (fun _ => World.calm "" (fun tree => tree)) e (fun _ => rfl)
      rw [hcall] at hundone
      have hcommitted : r.conversations.record ⟨0⟩ ⟨1⟩ ≠
          creatingCore.conversations.record ⟨0⟩ ⟨1⟩ := by
        intro hsame'
        have hbefore : creatingCore.conversations.record ⟨0⟩ ⟨1⟩ =
            some (emptyConversation ⟨0⟩ ⟨1⟩ "session_1") := rfl
        rw [hsame', hbefore] at hc
        cases hc
        cases hmarked
      obtain ⟨before, after, -, hafter, -, hclear⟩ := (hundone rfl hcommitted).1.messages
      rw [hc] at hafter
      cases hafter
      rw [hmarked] at hclear
      cases hclear

end ExplicitLoop

end VibeCoder
