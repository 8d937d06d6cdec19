/-
  The rollback of a failed turn, alone on the core: the workspace is restored from the baseline
  checkpoint, and nothing refuses it unless the outside does.

  * `Answers U`   — the outside answers considered: no store fails on I/O and, if `U` holds, the
    workspace, the agent's hold on it and the process runtime do not fail either;
  * `Settled`     — what the scan of a rollback demands of the other conversations of a project;
  * `scan_permitted` — the scan lets the owner of a pending turn through;
  * `wp_rollback` — the rollback under the gate;
  * `wp_settle_update`, `wp_tryRemove`, `wp_createProjectCheckpoint` — the other steps of a
    recovery.
-/
import VibeCoder.Core.Alone

namespace VibeCoder

open Resume

variable {Tree : Type} {config : CoreConfig} {digest : Tree → String} {U : Prop}
variable {α : Type} {Q : α → Core Tree Unit → Prop} {E : VibeCoderError → Core Tree Unit → Prop}
variable {s : Core Tree Unit} {p : ProjectId}

/-! ## The outside -/

/-- No store fails on I/O; if `U` holds, nothing obstructs a recovery either.  The agent and the
    gateway may still answer as they like. -/
def Answers (Tree : Type) (U : Prop) (w : World Tree) : Prop :=
  w.ioFault = none ∧ (U → w.fault = none ∧ w.refusal = none ∧ w.activeProcesses = 0)

/-- A call alone on the core under these answers. -/
abbrev Undisturbed (config : CoreConfig) (digest : Tree → String) (U : Prop) :
    Setting Op (fun o => Result o.Val) Unit (World Tree) (Core Tree Unit) :=
  Alone config digest (Answers Tree U)

/-- The queries a recovery makes of the workspace and of the agent. -/
def Query.recovers : Query → Bool
  | .openProject _ | .verifyProject _ | .ensureWorkspaceQuiescent _
  | .refreshSessionAfterWorkspaceReplacement _ _ => true
  | _ => false

/-- Any query, when its errors do not matter. -/
theorem wp_ask_any {q : Query} {f : q.Val → CoreM α} (herr : ∀ e, E e s)
    (hok : ∀ v, Wp (Undisturbed config digest U) () (f v) Q E s) :
    Wp (Undisturbed config digest U) () (ask q >>= f) Q E s := by
  refine wp_bind (wp_ask (fun w _ => ?_))
  cases s.answer w q with
  | error e => exact herr e
  | ok v => exact hok v

/-- A query of a recovery fails only if the outside obstructs it. -/
theorem wp_recovers {q : Query} {Q : q.Val → Core Tree Unit → Prop} (hq : q.recovers = true)
    (herr : ∀ e, ¬ U → E e s) (hok : ∀ v, Q v s) :
    Wp (Undisturbed config digest U) () (ask q) Q E s := by
  refine wp_ask (fun w hw => ?_)
  cases hanswer : s.answer w q with
  | ok v => exact hok v
  | error e =>
    refine herr e (fun hU => ?_)
    cases q <;> first
      | (cases hq; done)
      | (rw [Core.answer, (hw.2 hU).1] at hanswer; cases hanswer)

theorem wp_ensureNoActive {f : Unit → CoreM α} (herr : ∀ e, ¬ U → E e s)
    (hok : Wp (Undisturbed config digest U) () (f ()) Q E s) :
    Wp (Undisturbed config digest U) () (ensureNoActiveProjectProcess config p >>= f) Q E s := by
  refine wp_bind ?_
  rw [ensureNoActiveProjectProcess]
  split
  · refine wp_bind (wp_ask (fun w hw => ?_))
    rw [Core.answer]
    cases hfault : w.fault with
    | some e => exact herr e (fun hU => by rw [(hw.2 hU).1] at hfault; cases hfault)
    | none =>
      refine wp_resume ?_
      by_cases hactive : w.activeProcesses = 0
      · rw [hactive]
        exact hok
      · rw [if_pos (bne_iff_ne.mpr hactive)]
        exact herr _ (fun hU => hactive (hw.2 hU).2.2)
  · exact wp_pure hok

/-- A check of the core itself. -/
theorem wp_failIf {c : Bool} {e : VibeCoderError} {f : Unit → CoreM α} (herr : c = true → E e s)
    (hok : c = false → Wp (Undisturbed config digest U) () (f ()) Q E s) :
    Wp (Undisturbed config digest U) () (failIf c e >>= f) Q E s := by
  refine wp_bind (wp_resume ?_)
  cases c with
  | true => exact herr rfl
  | false => exact hok rfl

/-- A pure result. -/
theorem wp_resume_then {β : Type} {r : Result β} {f : β → CoreM α} (herr : ∀ e, r = .error e → E e s)
    (hok : ∀ b, r = .ok b → Wp (Undisturbed config digest U) () (f b) Q E s) :
    Wp (Undisturbed config digest U) () (resume r >>= f) Q E s := by
  refine wp_bind (wp_resume ?_)
  cases r with
  | error e => exact herr e rfl
  | ok b => exact hok b rfl

/-- The authorization epoch of a project has reached its last value. -/
def Exhausted (s : Core Tree Unit) (p : ProjectId) : Prop :=
  u64Max ≤ s.policy.projectEpochs p

/-- Revoking the approvals of a project fails only once its epoch is exhausted. -/
theorem wp_invalidate {cancel : Bool} {f : Unit → CoreM α}
    (herr : ∀ e policy, Exhausted { s with policy := policy } p → E e { s with policy := policy })
    (hok : ∀ policy,
      Wp (Undisturbed config digest U) () (f ()) Q E { s with policy := policy }) :
    Wp (Undisturbed config digest U) () (act (.invalidateAuthorizations p cancel) >>= f) Q E s := by
  refine wp_bind (wp_alone (fun w _ => ?_))
  rw [exec, CommandPolicyState.invalidateProjectAuthorizations]
  dsimp only
  split
  · rename_i hmax
    exact herr _ _ hmax
  · exact hok _

/-! ## The scan of a rollback -/

/-- The loop over the conversations of a project as one computation on the store. -/
def scanTable (config : CoreConfig) (table : ConversationTable) (p : ProjectId)
    (permitted : Option (ConversationId × SessionId)) (scan : RollbackScan) :
    List ConversationId → Result RollbackScan
  | [] => .ok scan
  | id :: rest =>
    match table.load p id with
    | .error e => .error e
    | .ok conversation =>
      match scanConversation config permitted scan conversation with
      | .error e => .error e
      | .ok scan => scanTable config table p permitted scan rest

theorem wp_scanConversations {permitted : Option (ConversationId × SessionId)} :
    ∀ {ids : List ConversationId} {scan : RollbackScan},
      Wp (Undisturbed config digest U) () (scanConversations config p permitted scan ids)
        (fun r t => t = s ∧ scanTable config s.conversations p permitted scan ids = .ok r)
        (fun e t => t = s ∧ scanTable config s.conversations p permitted scan ids = .error e) s := by
  intro ids
  induction ids with
  | nil => exact wp_pure ⟨rfl, rfl⟩
  | cons id rest ih =>
    intro scan
    refine wp_bind (wp_ask (fun w hw => ?_))
    rw [Core.answer, hw.1, orFault]
    cases hload : s.conversations.load p id with
    | error e => exact ⟨rfl, by simp [scanTable, hload]⟩
    | ok conversation =>
      refine wp_resume_then (fun e he => ?_) (fun next hnext => ?_)
      · exact ⟨rfl, by simp [scanTable, hload, he]⟩
      · refine Wp.mono trivial ih (fun r t _ ht => ?_) (fun e t _ ht => ?_)
        · exact ⟨ht.1, by simp [scanTable, hload, hnext, ht.2]⟩
        · exact ⟨ht.1, by simp [scanTable, hload, hnext, ht.2]⟩

/-- What a rollback demands of a project: its state contributes a session or none, and every
    listed conversation is settled, with a session of its own under this runtime. -/
structure Settled (config : CoreConfig) (s : Core Tree Unit) (p : ProjectId) : Prop where
  projectSession : config.projectStateStore = true →
    ∃ session, rollbackProjectSession config (s.projectStates p) = .ok session
  listed : (s.conversations.ids p).length ≤ maxPersistedConversationsPerProject
  scanned : ∃ scan, scanTable config s.conversations p none
    { sessions := [], permittedPendingSeen := false } (s.conversations.ids p) = .ok scan

/-- What the failure rollback of a turn finds: the same, with the owner of the turn pending. -/
structure Ready (config : CoreConfig) (s : Core Tree Unit) (p : ProjectId)
    (owner : ConversationId × SessionId) : Prop where
  projectSession : config.projectStateStore = true →
    ∃ session, rollbackProjectSession config (s.projectStates p) = .ok session
  listed : (s.conversations.ids p).length ≤ maxPersistedConversationsPerProject
  scanned : ∃ scan, scanTable config s.conversations p (some owner)
    { sessions := [], permittedPendingSeen := false } (s.conversations.ids p) = .ok scan ∧
      scan.permittedPendingSeen = true

/-- A conversation the scan lets through without a permit is settled, and its session is new. -/
theorem scanConversation_ok {scan next : RollbackScan} {loaded : Option PersistedConversation}
    (h : scanConversation config none scan loaded = .ok next) :
    ∃ c session, loaded = some c ∧ c.sessionCreationPending = false ∧ c.turnPending = false ∧
      c.agentSession = some session ∧ session.runtimeId = config.runtimeId ∧
      session.sessionId ∉ scan.sessions ∧ next.sessions = scan.sessions ++ [session.sessionId] := by
  cases loaded with
  | none => cases h
  | some c =>
    rw [scanConversation] at h
    split at h
    · cases h
    · rename_i hcreation
      split at h
      · cases h
      · rename_i session hsession
        split at h
        · cases h
        · rename_i hruntime
          split at h
          · cases h
          · rename_i hpending
            split at h
            · cases h
            · rename_i hnew
              cases h
              refine ⟨c, session, rfl, by simpa using hcreation, ?_, hsession,
                not_not.mp hruntime, hnew, rfl⟩
              simpa using hpending

/-- Only the record itself decides what the store loads. -/
theorem load_congr {table table' : ConversationTable} {p : ProjectId} {id : ConversationId}
    (h : table'.record p id = table.record p id) : table'.load p id = table.load p id := by
  rw [ConversationTable.load, ConversationTable.load, h]

/-- The scan lets a settled conversation through, whatever the permit. -/
theorem scanConversation_settled (permitted : Option (ConversationId × SessionId))
    {scan : RollbackScan} {c : PersistedConversation} {session : PersistedAgentSession}
    (hcreation : c.sessionCreationPending = false) (hpending : c.turnPending = false)
    (hsession : c.agentSession = some session) (hruntime : session.runtimeId = config.runtimeId)
    (hnew : session.sessionId ∉ scan.sessions) :
    scanConversation config permitted scan (some c) = .ok {
      sessions := scan.sessions ++ [session.sessionId]
      permittedPendingSeen := scan.permittedPendingSeen } := by
  simp [scanConversation, hcreation, hpending, hsession, hruntime, hnew]

/-- The scan lets the owner of the permit through once. -/
theorem scanConversation_owner {scan : RollbackScan} {c : PersistedConversation}
    {session : PersistedAgentSession} (hcreation : c.sessionCreationPending = false)
    (hpending : c.turnPending = true) (hsession : c.agentSession = some session)
    (hruntime : session.runtimeId = config.runtimeId)
    (hfirst : scan.permittedPendingSeen = false) (hnew : session.sessionId ∉ scan.sessions) :
    scanConversation config (some (c.conversationId, session.sessionId)) scan (some c) = .ok {
      sessions := scan.sessions ++ [session.sessionId]
      permittedPendingSeen := true } := by
  simp [scanConversation, hcreation, hpending, hsession, hruntime, hnew, hfirst]

/-- **The permitted scan.**  If every conversation was settled, and since then only the record of
    `id` changed, to a pending one with the same session, then the scan that permits its owner
    succeeds.  Along the loop, an owner already seen has left its session in the list. -/
theorem scan_permitted {table table' : ConversationTable} {id : ConversationId}
    {before c : PersistedConversation} {session : PersistedAgentSession}
    (hbefore : table.load p id = .ok (some before)) (hc : table'.load p id = .ok (some c))
    (hother : ∀ id', id' ≠ id → table'.record p id' = table.record p id')
    (hpending : c.turnPending = true) (hcreation : c.sessionCreationPending = false)
    (hsession : before.agentSession = some session) (hsame : c.agentSession = some session)
    (hid : c.conversationId = id) :
    ∀ (ids : List ConversationId) (scan scan' r : RollbackScan),
      scan'.sessions = scan.sessions →
      (scan'.permittedPendingSeen = true → session.sessionId ∈ scan.sessions) →
      scanTable config table p none scan ids = .ok r →
      ∃ r', scanTable config table' p (some (id, session.sessionId)) scan' ids = .ok r' ∧
        (scan'.permittedPendingSeen = true ∨ id ∈ ids → r'.permittedPendingSeen = true) := by
  intro ids
  induction ids with
  | nil =>
    intro scan scan' r _ _ _
    refine ⟨scan', rfl, ?_⟩
    rintro (hseen | hin)
    · exact hseen
    · exact absurd hin List.not_mem_nil
  | cons here rest ih =>
    intro scan scan' r hsessions hseen hscan
    rw [scanTable] at hscan
    cases hload : table.load p here with
    | error e => rw [hload] at hscan; cases hscan
    | ok loaded =>
      rw [hload] at hscan
      dsimp only at hscan
      cases hnext : scanConversation config none scan loaded with
      | error e => rw [hnext] at hscan; cases hscan
      | ok next =>
        rw [hnext] at hscan
        dsimp only at hscan
        obtain ⟨found, own, rfl, hfc, hfp, hfs, hfr, hnew, hnexts⟩ := scanConversation_ok hnext
        by_cases hhere : here = id
        · -- the owner: it was settled before, so its session is new to the list
          subst hhere
          rw [hbefore] at hload
          cases hload
          rw [hsession] at hfs
          cases hfs
          have hfirst : scan'.permittedPendingSeen = false := by
            cases hs : scan'.permittedPendingSeen with
            | false => rfl
            | true => exact absurd (hseen hs) hnew
          rw [← hsessions] at hnew
          have howner := scanConversation_owner hcreation hpending hsame hfr hfirst hnew
          rw [hid] at howner
          obtain ⟨r', hr', hmark⟩ := ih next
            { sessions := scan'.sessions ++ [session.sessionId], permittedPendingSeen := true } r
            (by rw [hnexts, ← hsessions])
            (fun _ => by rw [hnexts]; exact List.mem_append_right _ (List.mem_singleton_self _)) hscan
          refine ⟨r', ?_, fun _ => hmark (Or.inl rfl)⟩
          rw [scanTable, hc]
          dsimp only
          rw [howner]
          exact hr'
        · have hload' : table'.load p here = .ok (some found) := by
            rw [load_congr (hother here hhere), hload]
          rw [← hsessions] at hnew
          have hsettled := scanConversation_settled (some (id, session.sessionId)) hfc hfp hfs hfr
            hnew
          obtain ⟨r', hr', hmark⟩ := ih next
            { scan' with sessions := scan'.sessions ++ [own.sessionId] } r
            (by rw [hnexts, ← hsessions])
            (fun hs => by rw [hnexts]; exact List.mem_append_left _ (hseen hs)) hscan
          refine ⟨r', ?_, ?_⟩
          · rw [scanTable, hload']
            dsimp only
            rw [hsettled]
            exact hr'
          · rintro (hs | hin)
            · exact hmark (Or.inl hs)
            · refine hmark (Or.inr ((List.mem_cons.mp hin).resolve_left ?_))
              exact fun h => hhere h.symm

/-- A settled project lets the failure rollback of a turn pass. -/
theorem Settled.ready {t : Core Tree Unit} {id : ConversationId} {before c : PersistedConversation}
    {session : PersistedAgentSession} (h : Settled config s p)
    (hbefore : s.conversations.load p id = .ok (some before))
    (hc : Committed t.conversations p id c) (hsession : before.agentSession = some session)
    (hsame : c.agentSession = some session) (hstates : t.projectStates = s.projectStates)
    (hids : t.conversations.ids = s.conversations.ids)
    (hother : ∀ id', id' ≠ id → t.conversations.record p id' = s.conversations.record p id') :
    Ready config t p (id, session.sessionId) := by
  obtain ⟨scan, hscan⟩ := h.scanned
  have hload := hc.load
  rw [hc.project, hc.conversation] at hload
  have hin : id ∈ s.conversations.ids p := by
    refine s.conversations.listed p id ?_
    rw [(ConversationTable.load_some hbefore).1]
    rfl
  obtain ⟨r, hr, hseen⟩ := scan_permitted hbefore hload hother hc.pending hc.created hsession hsame
    hc.conversation _ _ _ scan rfl (fun hs => by cases hs) hscan
  refine ⟨?_, ?_, r, ?_, hseen (Or.inr hin)⟩
  · rw [hstates]
    exact h.projectSession
  · rw [hids]
    exact h.listed
  · rw [hids]
    exact hr

/-! ## The rollback -/

/-- A renamed error. -/
theorem wp_mapError {body : CoreM α} {e : VibeCoderError}
    (h : Wp (Undisturbed config digest U) () body Q (fun _ => E e) s) :
    Wp (Undisturbed config digest U) () (mapError body e) Q E s := by
  refine wp_bind (wp_settle (Wp.mono trivial h (fun a t _ ht => ?_) (fun _ t _ ht => ?_)))
  · exact wp_pure ht
  · exact wp_throw ht

/-- The checks of a failure rollback change nothing, and pass when the project is ready. -/
theorem wp_prepareRollback {owner : ConversationId × SessionId}
    (hready : U → Ready config s p owner) (hconversations : config.conversationStore = true)
    (hcheckpoints : config.checkpointStore = true) :
    Wp (Undisturbed config digest U) () (prepareRollback config p (some owner))
      (fun _ t => t = s) (fun _ t => t = s ∧ ¬ U) s := by
  have hproject : Wp (Undisturbed config digest U) () (persistedProjectSession config p)
      (fun _ t => t = s) (fun _ t => t = s ∧ ¬ U) s := by
    rw [persistedProjectSession]
    split
    · rename_i hstore
      refine wp_bind (wp_ask (fun w hw => ?_))
      rw [Core.answer, hw.1]
      refine wp_resume ?_
      cases hresult : rollbackProjectSession config (s.projectStates p) with
      | ok session => exact rfl
      | error e =>
        refine ⟨rfl, fun hU => ?_⟩
        obtain ⟨session, hsession⟩ := (hready hU).projectSession hstore
        rw [hresult] at hsession
        cases hsession
    · exact wp_pure rfl
  have hscan : Wp (Undisturbed config digest U) ()
      (persistedConversationSessions config p (some owner)) (fun _ t => t = s)
      (fun _ t => t = s ∧ ¬ U) s := by
    rw [persistedConversationSessions, if_pos hconversations]
    refine wp_bind (wp_ask (fun w hw => ?_))
    rw [Core.answer, hw.1, orFault, ConversationTable.list]
    cases hrefusal : w.refusal with
    | some e => exact ⟨rfl, fun hU => by rw [(hw.2 hU).2.1] at hrefusal; cases hrefusal⟩
    | none =>
      rw [orFault]
      split
      · rename_i hmany
        exact ⟨rfl, fun hU => absurd (hready hU).listed (Nat.not_le.mpr hmany)⟩
      · refine wp_seq trivial wp_scanConversations (fun r t _ ht => ?_) (fun e t _ ht => ?_)
        · obtain ⟨rfl, hr⟩ := ht
          refine wp_failIf (fun hmissing => ⟨rfl, fun hU => ?_⟩) (fun _ => wp_pure rfl)
          obtain ⟨scan, hscan, hseen⟩ := (hready hU).scanned
          rw [hr] at hscan
          cases hscan
          rw [hseen] at hmissing
          cases hmissing
        · obtain ⟨rfl, he⟩ := ht
          refine ⟨rfl, fun hU => ?_⟩
          obtain ⟨scan, hscan, -⟩ := (hready hU).scanned
          rw [he] at hscan
          cases hscan
  refine wp_seq trivial hproject (fun session t _ ht => ?_) (fun _ _ _ ht => ht)
  subst ht
  refine wp_seq trivial hscan (fun sessions t _ ht => ?_) (fun _ _ _ ht => ht)
  subst ht
  refine wp_failIf (fun hnone => ?_) (fun _ => wp_pure rfl)
  rw [hcheckpoints] at hnone
  cases hnone

/-- The refreshes after a rollback change nothing, and fail only if the outside obstructs them. -/
theorem wp_finishRollback {sessions : Option SessionId × List SessionId} :
    Wp (Undisturbed config digest U) () (finishRollback p sessions)
      (fun _ t => t = s) (fun _ t => t = s ∧ ¬ U) s := by
  have hone : ∀ session code, Wp (Undisturbed config digest U) () (refreshSession p session code)
      (fun _ t => t = s) (fun _ t => t = s ∧ ¬ U) s := by
    intro session code
    exact wp_mapError (wp_recovers rfl (fun _ hU => ⟨rfl, hU⟩) (fun _ => rfl))
  have hall : ∀ list, Wp (Undisturbed config digest U) () (refreshSessions p list)
      (fun _ t => t = s) (fun _ t => t = s ∧ ¬ U) s := by
    intro list
    induction list with
    | nil => exact wp_pure rfl
    | cons session rest ih =>
      refine wp_seq trivial (hone session _) (fun _ t _ ht => ?_) (fun _ _ _ ht => ht)
      subst ht
      exact ih
  refine wp_bind (wp_recovers rfl (fun _ hU => ⟨rfl, hU⟩) (fun _ => ?_))
  refine wp_bind (wp_recovers rfl (fun _ hU => ⟨rfl, hU⟩) (fun _ => ?_))
  cases sessions.1 with
  | none => exact wp_bind (wp_pure (hall sessions.2))
  | some session =>
    refine wp_seq trivial (hone session _) (fun _ t _ ht => ?_) (fun _ _ _ ht => ht)
    subst ht
    exact hall sessions.2

/-- Restoring a checkpoint that is there fails only if the outside obstructs it. -/
theorem wp_restore {k : CheckpointId} {recovery : Bool} {x : Snapshot Tree}
    {f : RollbackResult → CoreM α} (hsnapshot : s.checkpoints.get p k = some x)
    (herr : ∀ e, ¬ U → E e s)
    (hok : ∀ r, Wp (Undisturbed config digest U) () (f r) Q E
      { s with tree := fun p' => if p' = p then x.tree else s.tree p' }) :
    Wp (Undisturbed config digest U) () (act (.rollbackProject p k recovery) >>= f) Q E s := by
  refine wp_bind (wp_alone (fun w hw => ?_))
  rw [exec, hw.1]
  cases hfault : w.fault with
  | some e => exact herr e (fun hU => by rw [(hw.2 hU).1] at hfault; cases hfault)
  | none =>
    have hrollback : guarded s (none <|> none) (s.rollbackProject p k) = s.rollbackProject p k := rfl
    rw [hrollback, Core.rollbackProject, hsnapshot]
    exact hok _

/-- **The failure rollback.**  It leaves the stores and the gate as they were.  When it succeeds
    the project has the checkpointed tree again; when it fails, the outside obstructed it or the
    authorization epoch of the project is exhausted. -/
theorem wp_rollback (digest : Tree → String) {k : CheckpointId} {id : ConversationId} {session : SessionId}
    {x : Snapshot Tree} (hgate : s.gate p = none) (hsnapshot : s.checkpoints.get p k = some x)
    (hready : U → Ready config s p (id, session)) (hconversations : config.conversationStore = true)
    (hcheckpoints : config.checkpointStore = true) :
    Wp (Undisturbed config digest U) ()
      (rollbackProjectCheckpointForPendingConversation config p k id session)
      (fun _ t => Kept s t ∧ t.gate p = none ∧ t.tree p = x.tree)
      (fun _ t => Kept s t ∧ t.gate p = none ∧ (U → Exhausted t p)) s := by
  refine wp_lifecycle_alone (fun hbusy => absurd hgate hbusy) (fun _ => ?_)
  have hfree : ∀ t : Core Tree Unit, Function.update t.gate p none p = none :=
    fun t => Function.update_self ..
  refine wp_bind (wp_recovers rfl (fun _ hU => ?_) (fun _ => ?_))
  · exact ⟨⟨rfl, rfl, rfl⟩, hfree _, fun h => absurd h hU⟩
  refine wp_ensureNoActive (fun _ hU => ?_) ?_
  · exact ⟨⟨rfl, rfl, rfl⟩, hfree _, fun h => absurd h hU⟩
  refine wp_bind (wp_recovers rfl (fun _ hU => ?_) (fun _ => ?_))
  · exact ⟨⟨rfl, rfl, rfl⟩, hfree _, fun h => absurd h hU⟩
  refine wp_invalidate (fun _ policy hmax => ?_) (fun policy => ?_)
  · exact ⟨⟨rfl, rfl, rfl⟩, hfree _, fun _ => hmax⟩
  refine wp_seq trivial (wp_prepareRollback (fun hU => ⟨(hready hU).projectSession,
    (hready hU).listed, (hready hU).scanned⟩) hconversations hcheckpoints)
    (fun sessions t _ ht => ?_) (fun e t _ ht => ?_)
  · subst ht
    refine wp_restore hsnapshot (fun _ hU => ?_) (fun result => ?_)
    · exact ⟨⟨rfl, rfl, rfl⟩, hfree _, fun h => absurd h hU⟩
    refine wp_invalidate (fun _ policy hmax => ?_) (fun policy => ?_)
    · exact ⟨⟨rfl, rfl, rfl⟩, hfree _, fun _ => hmax⟩
    refine wp_seq trivial wp_finishRollback (fun _ t _ ht => wp_pure ?_) (fun e t _ ht => ?_)
    · subst ht
      exact ⟨⟨rfl, rfl, rfl⟩, hfree _, if_pos rfl⟩
    · obtain ⟨rfl, hU⟩ := ht
      exact ⟨⟨rfl, rfl, rfl⟩, hfree _, fun h => absurd h hU⟩
  · obtain ⟨rfl, hU⟩ := ht
    exact ⟨⟨rfl, rfl, rfl⟩, hfree _, fun h => absurd h hU⟩

/-! ## The other steps of a turn -/

/-- The update that settles a committed record. -/
theorem wp_settleUpdate {id : ConversationId} {c settled : PersistedConversation}
    (h : Committed s.conversations p id c) (hvalid : settled.validate = .ok ())
    (hp : settled.projectId = c.projectId) (hid : settled.conversationId = c.conversationId)
    (hrev : settled.revision = c.revision) :
    Wp (Undisturbed config digest U) () (act (.updateConversation c.revision settled))
      (fun _ t => ConversationTable.commit settled = .ok { settled with revision := c.revision + 1 } ∧
        (∃ table, t = { s with conversations := table }) ∧
        t.conversations.record p id = some { settled with revision := c.revision + 1 })
      (fun e t => t = s ∧ ConversationTable.commit settled = .error e) s := by
  refine wp_alone (fun w hw => ?_)
  have hprepare := h.prepareUpdate hvalid hp hid hrev
  rcases exec_update_cases config digest () w s c.revision settled with
    ⟨e, hexec, hwhy⟩ | ⟨committed, hupdate, hexec⟩
  · rw [hexec]
    refine ⟨rfl, ?_⟩
    rw [hw.1, hprepare] at hwhy
    exact hwhy.resolve_left (fun h => by cases h)
  · rw [hexec]
    have hput := (ConversationTable.put_record hupdate).1
    rw [hp, hid, h.project, h.conversation] at hput
    rw [hprepare] at hupdate
    have heq := (ConversationTable.commit_ok hupdate).1
    rw [hrev] at heq
    subst heq
    exact ⟨hupdate, ⟨_, rfl⟩, hput⟩

/-- The attempt to remove a checkpoint only touches the checkpoints.  Reported as done, or not
    obstructed, it leaves nothing under the id. -/
theorem wp_tryRemove {k : CheckpointId} (hstore : config.checkpointStore = true) :
    Wp (Undisturbed config digest U) () (tryRemoveProjectCheckpoint config p k)
      (fun removed t => ∃ table, t = { s with checkpoints := table } ∧
        (table = s.checkpoints ∨ table = s.checkpoints.remove p k) ∧
        (removed = true ∨ U → ∀ x ∈ table.snapshots, CheckpointTable.isAt p k x = false))
      (fun _ _ => False) s := by
  have hremove : Wp (Undisturbed config digest U) () (removeProjectCheckpoint config p k)
      (fun _ t => t = { s with checkpoints := s.checkpoints.remove p k })
      (fun _ t => t = s ∧ (U → ∀ x ∈ s.checkpoints.snapshots,
        CheckpointTable.isAt p k x = false)) s := by
    refine wp_bind (wp_recovers rfl (fun _ hU => ⟨rfl, fun h => absurd h hU⟩) (fun _ => ?_))
    refine wp_ensureNoActive (fun _ hU => ⟨rfl, fun h => absurd h hU⟩) ?_
    refine wp_failIf (fun hnone => ?_) (fun _ => wp_alone (fun w hw => ?_))
    · rw [hstore] at hnone
      cases hnone
    · rw [exec, hw.1, guarded, Core.removeCheckpoint]
      cases hget : s.checkpoints.get p k with
      | some x => exact rfl
      | none =>
        refine ⟨rfl, fun _ x hx => ?_⟩
        have habsent := List.find?_eq_none.mp hget x hx
        exact Bool.eq_false_iff.mpr habsent
  refine wp_bind (wp_settle (Wp.mono trivial hremove (fun _ t _ ht => ?_) (fun _ t _ ht => ?_)))
  · refine wp_pure ⟨_, ht, Or.inr rfl, fun _ x hx => ?_⟩
    have hkept := (List.mem_filter.mp hx).2
    rw [Bool.not_eq_true'] at hkept
    exact hkept
  · obtain ⟨rfl, habsent⟩ := ht
    refine wp_pure ⟨_, rfl, Or.inl rfl, fun hdone => habsent (hdone.resolve_left ?_)⟩
    exact Bool.false_ne_true

/-- A checkpoint of the present tree. -/
theorem wp_createProjectCheckpoint {reason : CheckpointReason} (hgate : s.gate p = none) :
    Wp (Undisturbed config digest U) () (createProjectCheckpoint config p reason)
      (fun m t => t.gate p = none ∧ t.conversations = s.conversations ∧
        t.projectStates = s.projectStates ∧ t.tree = s.tree ∧
        m = s.checkpoints.metadata p reason (digest (s.tree p)) ∧
        t.checkpoints = s.checkpoints.add p reason (digest (s.tree p)) (s.tree p))
      (fun _ t => t.gate p = none ∧ Kept s t) s := by
  refine wp_lifecycle_alone (fun hbusy => absurd hgate hbusy) (fun _ => ?_)
  have hfree : ∀ t : Core Tree Unit, Function.update t.gate p none p = none :=
    fun t => Function.update_self ..
  refine wp_ask_any (fun _ => ⟨hfree _, ⟨rfl, rfl, rfl⟩⟩) (fun _ => ?_)
  refine wp_ensureNoActive (fun _ _ => ⟨hfree _, ⟨rfl, rfl, rfl⟩⟩) ?_
  refine wp_ask_any (fun _ => ⟨hfree _, ⟨rfl, rfl, rfl⟩⟩) (fun _ => ?_)
  refine wp_failIf (fun _ => ⟨hfree _, ⟨rfl, rfl, rfl⟩⟩) (fun _ => wp_alone (fun w hw => ?_))
  rw [exec]
  cases hfault : w.fault <|> w.ioFault <|> w.refusal with
  | some e => exact ⟨hfree _, ⟨rfl, rfl, rfl⟩⟩
  | none =>
    rw [guarded, Core.createCheckpoint]
    split
    · exact ⟨hfree _, ⟨rfl, rfl, rfl⟩⟩
    · exact ⟨hfree _, rfl, rfl, rfl, rfl, rfl⟩

end VibeCoder
