/-
  One call alone on the core: nothing else touches the shared state while it runs.

  * `wp_alone`, `wp_ask`  — one operation, and a query, which leaves the state as it is;
  * `wp_lifecycle_alone`  — a body under the gate;
  * `IsBackend`           — the operations of a backend task, and what they leave alone (`Kept`);
  * `Committed`           — the record a turn has just written, marker and all.
-/
import VibeCoder.Core.Turns

namespace VibeCoder

open Resume

variable {Tree : Type} (config : CoreConfig) (digest : Tree → String)
variable (admits : World Tree → Prop)

/-- One call alone on the core, under the outside answers that `admits` lets through. -/
abbrev Alone : Setting Op (fun o => Result o.Val) Unit (World Tree) (Core Tree Unit) :=
  Setting.solo (exec config digest ()) admits

variable {config digest admits} {α : Type} {Q : α → Core Tree Unit → Prop}
variable {E : VibeCoderError → Core Tree Unit → Prop} {s : Core Tree Unit}

/-- One operation. -/
theorem wp_alone {o : Op} {Q : o.Val → Core Tree Unit → Prop}
    (h : ∀ w, admits w → Post Q E (exec config digest () w o s).1 (exec config digest () w o s).2) :
    Wp (Alone config digest admits) () (act o) Q E s := by
  refine wp_attempt trivial (fun w hw t hrely _ => ?_)
  have ht : (exec config digest () w o s).2 = t := hrely
  rw [← ht]
  exact h w hw

/-- A query changes nothing. -/
theorem wp_ask {q : Query} {Q : q.Val → Core Tree Unit → Prop}
    (h : ∀ w, admits w → Post Q E (s.answer w q) s) :
    Wp (Alone config digest admits) () (ask q) Q E s :=
  wp_alone (o := .query q) h

/-- A program of operations each of which keeps an assertion. -/
theorem wp_alone_only {P : Op → Prop} {J : Core Tree Unit → Prop}
    (hstep : ∀ o, P o → ∀ t, J t → ∀ w, admits w → J (exec config digest () w o t).2)
    {p : CoreM α} (hp : Only P p) (hJ : J s) :
    Wp (Alone config digest admits) () p (fun _ => J) (fun _ => J) s := by
  refine wp_only (fun o ho t ht => ⟨trivial, fun w hw r hr _ => ?_⟩) hp hJ
  have hr' : (exec config digest () w o t).2 = r := hr
  rw [← hr']
  exact hstep o ho t ht w hw

/-- A body under the gate: it starts with the permit, and its exit loses it. -/
theorem wp_lifecycle_alone {project : ProjectId} {body : CoreM α}
    (hbusy : s.gate project ≠ none → ∀ e, E e s)
    (hbody : s.gate project = none → Wp (Alone config digest admits) () body
      (fun a t => Q a { t with gate := Function.update t.gate project none })
      (fun e t => E e { t with gate := Function.update t.gate project none })
      { s with gate := Function.update s.gate project (some ()) }) :
    Wp (Alone config digest admits) () (withLifecycle project body) Q E s := by
  refine wp_bind (wp_alone (fun w _ => ?_))
  rw [exec]
  split
  · rename_i hbusy'
    exact hbusy (fun hnone => by rw [hnone] at hbusy'; cases hbusy') _
  · rename_i hfree
    have hnone : s.gate project = none := by simpa using hfree
    refine wp_bind (wp_settle (Wp.mono trivial (hbody hnone) (fun a t _ ht => ?_)
      (fun e t _ ht => ?_)))
    · exact wp_bind (wp_alone (fun _ _ => wp_resume ht))
    · exact wp_bind (wp_alone (fun _ _ => wp_resume ht))

/-- Renaming an error performs nothing. -/
theorem runAlone_mapError {W σ : Type} (step : W → (o : Op) → σ → Result o.Val × σ) (w : Nat → W)
    (p : CoreM α) (e : VibeCoderError) (n : Nat) (s : σ) :
    (runAlone step w (mapError p e) n s).2 = (runAlone step w p n s).2 := by
  refine runAlone_settle_silent step w p (fun r m t => ?_) n s
  cases r with
  | ok a => rfl
  | error e' => rfl

/-! ## The operations of a backend task -/

/-- The operations a backend task is made of, under the gate. -/
def IsBackend : Op → Prop
  | .query _ | .invalidateAuthorizations _ _ | .beginTurn _ _ _ _ | .endTurn _ _ => True
  | _ => False

theorem only_ensureNoActiveProjectProcess {P : Op → Prop} (hP : ∀ q, P (.query q))
    (project : ProjectId) : Only P (ensureNoActiveProjectProcess config project) := by
  rw [ensureNoActiveProjectProcess]
  split
  · exact only_bind (only_attempt (hP _)) (fun _ => only_resume _)
  · exact only_pure _

theorem only_prepareBackendTask {P : Op → Prop} (hP : ∀ q, P (.query q)) (project : ProjectId)
    (session : SessionId) (policy : ModelRoutePolicyConfig) (prompt : String) :
    Only P (prepareBackendTask config project session policy prompt) := by
  have hask : ∀ q, Only P (ask q) := fun q => only_attempt (hP q)
  have hcheck : Only P (checkBackendTask config project session) := by
    refine only_bind (hask _) (fun _ => ?_)
    refine only_bind (only_ensureNoActiveProjectProcess hP project) (fun _ => ?_)
    refine only_bind (hask _) (fun _ => only_bind (hask _) (fun _ => only_bind (hask _) (fun _ => ?_)))
    refine only_bind (only_resume _) (fun _ => only_bind (hask _) (fun _ => ?_))
    exact only_bind (only_resume _) (fun _ => only_resume _)
  refine only_bind hcheck (fun _ => only_bind (hask _) (fun _ => ?_))
  exact only_bind (only_resume _) (fun _ => only_bind (hask _) (fun _ => only_resume _))

theorem only_backendAttempt (project : ProjectId) (session : SessionId) (prompt : String)
    (task : BackendTaskStateMachine) (cells : Progress) (seen : List AgentEvent) :
    Only IsBackend (backendAttempt config project session prompt task cells seen) := by
  have hinference : ∀ model task cells observer, Only IsBackend
      (backendInference project session prompt model task cells observer seen) := by
    intro model task cells observer
    refine only_bind (only_attempt trivial) (fun _ => only_bind (only_attempt trivial) (fun _ => ?_))
    refine only_bind (only_attempt trivial) (fun ended => only_bind (only_attempt trivial) ?_)
    intro _
    cases ended.2 with
    | ok turn => exact only_bind (only_resume _) (fun _ => only_pure _)
    | error e => exact only_resume _
  refine only_bind (only_attempt trivial) (fun _ => only_bind (only_resume _) (fun found => ?_))
  cases found with
  | false => exact only_resume _
  | true =>
    refine only_bind (only_settle (only_attempt trivial)) (fun answer => ?_)
    cases answer with
    | error e => exact only_bind (only_resume _) (fun _ => only_throw _)
    | ok active =>
      exact only_bind (only_resume _) (fun _ => only_bind (only_resume _)
        (fun _ => hinference _ _ _ _))

theorem only_backendAttempts (project : ProjectId) (session : SessionId) (prompt : String)
    (rounds : Nat) : ∀ (task : BackendTaskStateMachine) (cells : Progress)
      (seen : List AgentEvent),
      Only IsBackend (backendAttempts config project session prompt rounds task cells seen) := by
  induction rounds with
  | zero => exact fun _ _ _ => only_throw _
  | succ rounds ih =>
    intro task cells seen
    refine only_bind (only_backendAttempt project session prompt task cells seen) (fun step => ?_)
    cases step with
    | done outcome seen => exact only_pure _
    | retry task cells seen => exact ih task cells seen

/-- What is left alone by a backend task: the stores and the states of the projects. -/
structure Kept (s t : Core Tree Unit) : Prop where
  conversations : t.conversations = s.conversations
  projectStates : t.projectStates = s.projectStates
  checkpoints : t.checkpoints = s.checkpoints

theorem Kept.refl (s : Core Tree Unit) : Kept s s := ⟨rfl, rfl, rfl⟩

theorem Kept.trans {s t r : Core Tree Unit} (h₁ : Kept s t) (h₂ : Kept t r) : Kept s r :=
  ⟨h₂.conversations.trans h₁.conversations, h₂.projectStates.trans h₁.projectStates,
    h₂.checkpoints.trans h₁.checkpoints⟩

theorem IsBackend.kept {o : Op} (ho : IsBackend o) (w : World Tree) (t : Core Tree Unit) :
    Kept t (exec config digest () w o t).2 ∧ (exec config digest () w o t).2.gate = t.gate := by
  have hframes : o.writesConversations = false ∧ o.writesCheckpoints = false ∧
      o.writesGate = false := by
    cases o <;> first | exact ⟨rfl, rfl, rfl⟩ | exact ho.elim
  exact ⟨⟨exec_conversations config digest () w t hframes.1, exec_projectStates config digest () w t o,
    exec_checkpoints config digest () w t hframes.2.1⟩, exec_gate config digest () w t hframes.2.2⟩

/-- A backend task leaves the stores alone, and the gate free. -/
theorem wp_runBackendTask {project : ProjectId} (session : SessionId)
    (policy : ModelRoutePolicyConfig) (prompt : String) :
    Wp (Alone config digest admits) () (runBackendTask config project session policy prompt)
      (fun _ t => Kept s t ∧ (s.gate project = none → t.gate project = none))
      (fun _ t => Kept s t ∧ (s.gate project = none → t.gate project = none)) s := by
  refine wp_lifecycle_alone (fun _ _ => ⟨Kept.refl s, fun hgate => hgate⟩) (fun _ => ?_)
  have honly : Only IsBackend
      (prepareBackendTask config project session policy prompt >>= fun task =>
        backendAttempts config project session prompt maxRouteTargets task [] []) :=
    only_bind (only_prepareBackendTask (fun _ => trivial) project session policy prompt)
      (fun task => only_backendAttempts project session prompt maxRouteTargets task [] [])
  have hstep : ∀ o, IsBackend o → ∀ t, Kept s t → ∀ w, admits w →
      Kept s (exec config digest () w o t).2 :=
    fun o ho t ht w _ => ht.trans (IsBackend.kept ho w t).1
  refine Wp.mono trivial (wp_alone_only hstep honly ⟨rfl, rfl, rfl⟩) (fun _ t _ ht => ?_)
    (fun _ t _ ht => ?_)
  · exact ⟨⟨ht.conversations, ht.projectStates, ht.checkpoints⟩, fun _ => Function.update_self ..⟩
  · exact ⟨⟨ht.conversations, ht.projectStates, ht.checkpoints⟩, fun _ => Function.update_self ..⟩

/-! ## A committed record -/

/-- The record of a turn in progress: stored under its own ids, valid, marked, of a size the
    store reads back, with its session. -/
structure Committed (table : ConversationTable) (p : ProjectId) (id : ConversationId)
    (c : PersistedConversation) : Prop where
  stored : table.record p id = some c
  valid : c.validate = .ok ()
  pending : c.turnPending = true
  created : c.sessionCreationPending = false
  project : c.projectId = p
  conversation : c.conversationId = id
  fits : c.encodedBytes ≤ maxPersistedConversationBytes

theorem Committed.load {table : ConversationTable} {p : ProjectId} {id : ConversationId}
    {c : PersistedConversation} (h : Committed table p id c) :
    table.load c.projectId c.conversationId = .ok (some c) := by
  rw [h.project, h.conversation]
  exact ConversationTable.load_eq h.stored h.valid h.project h.conversation h.fits

/-- The update that settles a committed record succeeds exactly when the settled record can be
    committed. -/
theorem Committed.prepareUpdate {table : ConversationTable} {p : ProjectId} {id : ConversationId}
    {c settled : PersistedConversation} (h : Committed table p id c)
    (hvalid : settled.validate = .ok ()) (hp : settled.projectId = c.projectId)
    (hid : settled.conversationId = c.conversationId) (hrev : settled.revision = c.revision) :
    table.prepareUpdate c.revision settled = ConversationTable.commit settled := by
  rw [← hrev]
  exact ConversationTable.prepareUpdate_eq hvalid (by rw [hp, hid]; exact h.load) hrev.symm

/-- What the checks on a loaded record let through. -/
theorem runnableConversation_ok {loaded : Option PersistedConversation}
    {c : PersistedConversation} {session : PersistedAgentSession}
    (h : runnableConversation config loaded = .ok (c, session)) :
    loaded = some c ∧ c.sessionCreationPending = false ∧ c.turnPending = false ∧
      c.agentSession = some session ∧ session.runtimeId = config.runtimeId := by
  cases loaded with
  | none => cases h
  | some found =>
    rw [runnableConversation] at h
    split at h
    · cases h
    · rename_i hcreation
      split at h
      · cases h
      · rename_i hpending
        split at h
        · cases h
        · rename_i given hsession
          split at h
          · cases h
          · rename_i hruntime
            cases h
            exact ⟨rfl, by simpa using hcreation, by simpa using hpending, hsession,
              not_not.mp hruntime⟩

/-- A committed user message: the record that was loaded, with the prompt and the marker. -/
theorem committed_of_update {table : ConversationTable} {p : ProjectId} {id : ConversationId}
    {c asked committed : PersistedConversation} {prompt : String}
    (hloaded : table.load p id = .ok (some c)) (hcreated : c.sessionCreationPending = false)
    (hasked : c.appendMessage .user prompt = .ok asked)
    (hupdate : table.prepareUpdate c.revision (asked.withPending true) = .ok committed) :
    Committed (table.put committed) p id committed ∧
      committed = { asked with turnPending := true, revision := c.revision + 1 } := by
  obtain ⟨-, -, hp, hid, -⟩ := ConversationTable.load_some hloaded
  obtain ⟨-, -, -, rfl⟩ := PersistedConversation.appendMessage_ok hasked
  obtain ⟨hvalid, -, hcommit, -⟩ := ConversationTable.prepareUpdate_ok hupdate
  obtain ⟨rfl, -, hbytes⟩ := ConversationTable.commit_ok hcommit
  have hput := (ConversationTable.put_record hupdate).1
  refine ⟨⟨?_, hvalid, rfl, hcreated, hp, hid, hbytes⟩, rfl⟩
  rw [← hp, ← hid]
  exact hput

/-- Committing the user message, from a loaded record that is not pending. -/
theorem wp_commitUserMessage {p : ProjectId} {id : ConversationId} {c : PersistedConversation}
    {prompt : String} (hloaded : s.conversations.load p id = .ok (some c))
    (hcreated : c.sessionCreationPending = false) :
    Wp (Alone config digest admits) () (commitUserMessage c prompt)
      (fun committed t => ∃ asked, c.appendMessage .user prompt = .ok asked ∧
        committed = { asked with turnPending := true, revision := c.revision + 1 } ∧
        Committed t.conversations p id committed ∧
        t = { s with conversations := s.conversations.put committed })
      (fun _ t => t = s) s := by
  refine wp_bind (wp_resume ?_)
  cases hasked : c.appendMessage .user prompt with
  | error e => exact rfl
  | ok asked =>
    refine wp_alone (fun w _ => ?_)
    rcases exec_update_cases config digest () w s c.revision (asked.withPending true) with
      ⟨e, hexec, -⟩ | ⟨committed, hupdate, hexec⟩
    · rw [hexec]
      exact rfl
    · rw [hexec]
      obtain ⟨hcommitted, heq⟩ := committed_of_update hloaded hcreated hasked hupdate
      exact ⟨asked, rfl, heq, hcommitted, rfl⟩

end VibeCoder
