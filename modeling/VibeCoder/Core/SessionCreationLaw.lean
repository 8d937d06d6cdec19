/-
  What the calls that start a project's session, set its model or set its route policy leave behind,
  in any interleaving of any number of them.

  1. **Calls** (`Call.Left`) — what each call has written when it returns (`wp_call`).

  2. **The crux** (`Inv`, `Allowed`, `Rely`) — the store takes an update only of the record that was
     read last, and a marked record only from the call that marked it.

  3. **The law** (`session_law`) — every accepted update is kept, one session at most is ever bound,
     and a marker that a call leaves is one whose removal the store refused.

  4. **Stranding** (`start_strands`) — it does refuse, when the revisions are used up or the agent
     answers with an id that is none: then nothing takes the marker away again.
-/
import VibeCoder.Core.SessionCreation

namespace VibeCoder.ProjectSession

open Resume Runs

section

variable {ι : Type} [DecidableEq ι]
variable {config : CoreConfig} {calls : ι → Call} {initial : ProjectStateTable} {i : ι}
variable {s : Shared ι} {p : ProjectId}
variable {α : Type} {Q : α → Shared ι → Prop} {E : VibeCoderError → Shared ι → Prop}

/-! ## The other two calls -/

/-- The gate and the workspace are asked, and the record is read. -/
theorem wp_openPersistedProject {J : Shared ι → Prop} (hJ : Stable calls initial i J) (h : J s)
    (hinv : Inv calls initial s) :
    Wp (Sessions config calls initial) i (openPersistedProject config p)
      (fun state t => J t ∧ Seen p state t) (fun _ => J) s := by
  rw [openPersistedProject]
  refine wp_bind (wp_projectStateStore ?_ (fun _ => h))
  refine wp_seq hinv (wp_loadProjectState p hJ h hinv) (fun state t ht h => ?_) (fun _ _ _ h => h)
  refine wp_seq ht (wp_reads trivial (hJ.and (stable_seen p state)) h)
    (fun _ t _ h => wp_pure h) (fun _ _ _ h => h.1)

/-- `set_persisted_session_model`: the update may be there when the agent refuses the model. -/
theorem wp_setModel {model : ModelRef} (hcall : calls i = .setModel p model)
    (hinv : Inv calls initial s) (h : mine calls i p s = []) :
    Wp (Sessions config calls initial) i (setPersistedSessionModel config p model)
      (fun _ t => mine calls i p t = [.model (modelTarget model)])
      (fun _ t => mine calls i p t = [] ∨ mine calls i p t = [.model (modelTarget model)]) s := by
  have hnever : ∀ q, calls i = .start q → q = p := by
    intro q hq
    cases hq.symm.trans hcall
  rw [setPersistedSessionModel]
  refine wp_holdingGate hinv (stable_mine p []) h (fun _ _ h => .inl h) (fun _ => stable_mine p _)
    (fun _ => (stable_mine p _).or (stable_mine p _)) (fun t ht h => ?_)
  refine wp_seq ht (wp_openPersistedProject (stable_mine p []) h ht) (fun state t ht h => ?_)
    (fun _ _ _ h => .inl h)
  obtain ⟨h, hseen⟩ := h
  refine wp_bind (wp_refusePending (fun hidle => ?_) (fun _ => Or.inl h))
  refine wp_bind (wp_resume ?_)
  cases hstored : state.agentSession with
  | none =>
    have hown : ownSession config state =
        .error (persistenceError "project_session_not_persisted") := by
      rw [ownSession, hstored]
    rw [hown]
    exact .inl h
  | some session =>
    have hown : ownSession config state = if session.runtimeId ≠ config.runtimeId then
        .error (persistenceError "project_session_runtime_mismatch") else .ok session := by
      rw [ownSession, hstored]
    rw [hown]
    split
    · exact .inl h
    · have hkept : Stable calls initial i (fun t => mine calls i p t = [] ∧ Seen p state t) :=
        (stable_mine p []).and (stable_seen p state)
      refine wp_seq ht (wp_reads trivial hkept ⟨h, hseen⟩) (fun _ t ht h => ?_)
        (fun _ _ _ h => .inl h.1)
      obtain ⟨h, hseen⟩ := h
      refine wp_bind (wp_resume ?_)
      cases validateTarget (modelTarget model) with
      | error e => exact .inl h
      | ok done =>
        have hmodel : Writes config state (calls i) (withModel state (modelTarget model)) := by
          rw [hcall]
          exact .model p model session hidle hstored
        refine wp_seq ht (wp_update_seen hseen h hidle rfl hnever hmodel) (fun committed t ht h => ?_)
          (fun _ _ _ h => .inl h)
        obtain ⟨-, hmine, -⟩ := h
        rw [hcall] at hmine
        exact Wp.mono ht (wp_reads trivial (stable_mine p _) hmine) (fun _ _ _ h => h)
          (fun _ _ _ h => .inr h)

/-- `set_persisted_route_policy`, without the gate. -/
theorem wp_setRoutePolicy {policy : Option ModelRoutePolicyConfig}
    (hcall : calls i = .setRoutePolicy p policy) (hinv : Inv calls initial s)
    (h : mine calls i p s = []) :
    Wp (Sessions config calls initial) i (setPersistedRoutePolicy config p policy)
      (fun _ t => mine calls i p t = [.policy policy]) (fun _ t => mine calls i p t = []) s := by
  have hnever : ∀ q, calls i = .start q → q = p := by
    intro q hq
    cases hq.symm.trans hcall
  have hrest : ∀ t, Inv calls initial t → mine calls i p t = [] →
      Wp (Sessions config calls initial) i (do
        let state ← loadProjectState p
        refusePending state
        perform (.updateProjectState state.revision (withPolicy state policy)))
      (fun _ t => mine calls i p t = [.policy policy]) (fun _ t => mine calls i p t = []) t := by
    intro t ht h
    refine wp_seq ht (wp_loadProjectState p (stable_mine p []) h ht) (fun state t ht h => ?_)
      (fun _ _ _ h => h)
    obtain ⟨h, hseen⟩ := h
    refine wp_bind (wp_refusePending (fun hidle => ?_) (fun _ => h))
    have hpolicy : Writes config state (calls i) (withPolicy state policy) := by
      rw [hcall]
      exact .policy p policy hidle
    refine Wp.mono ht (wp_update_seen hseen h hidle rfl hnever hpolicy) (fun committed t _ h => ?_)
      (fun _ _ _ h => h)
    obtain ⟨-, hmine, -⟩ := h
    rw [hcall] at hmine
    exact hmine
  rw [setPersistedRoutePolicy]
  refine wp_bind (wp_projectStateStore ?_ (fun _ => h))
  refine wp_seq hinv (wp_reads trivial (stable_mine p []) h) (fun _ t ht h => ?_) (fun _ _ _ h => h)
  cases policy with
  | none => exact hrest t ht h
  | some policy =>
    refine wp_bind (wp_resume ?_)
    cases policy.validate with
    | error e => exact h
    | ok done => exact hrest t ht h

/-! ## What a call has left when it returns -/

/-- The project that a call is for. -/
def Call.project : Call → ProjectId
  | .start p => p
  | .setModel p _ => p
  | .setRoutePolicy p _ => p

/-- What a call that returned a value has written. -/
def Call.Wrote (config : CoreConfig) (calls : ι → Call) (i : ι) (answer : Answer)
    (s : Shared ι) : Prop :=
  match calls i with
  | .start p => ∃ id, answer = .session id ∧
      mine calls i p s = [.mark, .bind (boundSession config id)]
  | .setModel p model => mine calls i p s = [.model (modelTarget model)]
  | .setRoutePolicy p policy => mine calls i p s = [.policy policy]

/-- What a call that failed has written. -/
def Call.Failed (config : CoreConfig) (calls : ι → Call) (i : ι) (s : Shared ι) : Prop :=
  match calls i with
  | .start p => StartFailed config calls i p s
  | .setModel p model => mine calls i p s = [] ∨ mine calls i p s = [.model (modelTarget model)]
  | .setRoutePolicy p _ => mine calls i p s = []

/-- What a call has left, by its result. -/
def Call.Left (config : CoreConfig) (calls : ι → Call) (i : ι) :
    Result Answer → Shared ι → Prop :=
  Post (Call.Wrote config calls i) (fun _ => Call.Failed config calls i)

theorem wp_call (hinv : Inv calls initial s) (h : mine calls i (calls i).project s = []) :
    Wp (Sessions config calls initial) i ((calls i).program config) (Call.Wrote config calls i)
      (fun _ => Call.Failed config calls i) s := by
  cases hcall : calls i with
  | start p =>
    rw [hcall] at h
    refine wp_seq hinv (wp_start hcall hinv h) (fun id t _ h => wp_pure ?_) (fun e t _ h => ?_)
    · rw [Call.Wrote, hcall]
      exact ⟨id, rfl, h⟩
    · rw [Call.Failed, hcall]
      exact h
  | setModel p model =>
    rw [hcall] at h
    refine wp_seq hinv (wp_setModel hcall hinv h) (fun _ t _ h => wp_pure ?_) (fun e t _ h => ?_)
    · rw [Call.Wrote, hcall]
      exact h
    · rw [Call.Failed, hcall]
      exact h
  | setRoutePolicy p policy =>
    rw [hcall] at h
    refine wp_seq hinv (wp_setRoutePolicy hcall hinv h) (fun state t _ h => wp_pure ?_)
      (fun e t _ h => ?_)
    · rw [Call.Wrote, hcall]
      exact h
    · rw [Call.Failed, hcall]
      exact h

/-! ## Runs -/

/-- The calls and what they share. -/
abbrev Calls (ι : Type) := Pool Op (fun o => Result o.Val) ι (Shared ι) (Result Answer)

/-- No call is dropped. -/
def noDropping (config : CoreConfig) (calls : ι → Call) (initial : ProjectStateTable) :
    Dropping (Sessions config calls initial) where
  suspends := fun _ => false
  abandon := fun _ s => s
  inv_abandon := fun hsuspends => by cases hsuspends
  rely_abandon := fun _ hsuspends => by cases hsuspends

/-- Any calls, none of which has begun. -/
def begin (config : CoreConfig) (calls : ι → Call) (initial : ProjectStateTable) : Calls ι where
  threads := fun i => some ((calls i).program config).run
  state := { gate := fun _ => none, states := initial, created := fun _ => none,
             accepted := fun _ => [] }

/-- One call performs its next operation. -/
def step (config : CoreConfig) (calls : ι → Call) (initial : ProjectStateTable) (c : Calls ι)
    (e : ι × World) : Calls ι :=
  Pool.next (noDropping config calls initial) c (.step e.1 e.2)

/-- The calls after a run. -/
def after (config : CoreConfig) (calls : ι → Call) (initial : ProjectStateTable)
    (run : List (ι × World)) : Calls ι :=
  play (step config calls initial) (begin config calls initial) run

theorem after_append (run more : List (ι × World)) :
    after config calls initial (run ++ more) =
      play (step config calls initial) (after config calls initial run) more :=
  play_append _ _ run more

omit [DecidableEq ι] in
theorem inv_begin (config : CoreConfig) (calls : ι → Call) (initial : ProjectStateTable) :
    Inv calls initial (begin config calls initial).state where
  last := fun _ => rfl
  replayed := fun p => by
    show initial.get p = (initial.get p).map (replay [])
    cases initial.get p with
    | none => rfl
    | some first => rfl
  kept := fun p first state hfirst hstate => by
    cases hfirst.symm.trans hstate
    exact kept_first first
  marks := fun _ _ _ hmem => absurd hmem List.not_mem_nil

/-- What holds all along a run. -/
abbrev Sound (config : CoreConfig) (calls : ι → Call) (initial : ProjectStateTable)
    (c : Calls ι) : Prop :=
  Good (Sessions config calls initial) (Call.Left config calls) c

theorem sound_begin (config : CoreConfig) (calls : ι → Call) (initial : ProjectStateTable) :
    Sound config calls initial (begin config calls initial) := by
  refine ⟨inv_begin config calls initial, fun i program hi t hrely ht => ?_⟩
  cases hi
  exact wp_call ht (stable_mine (calls i).project [] _ t ht hrely rfl)

theorem sound_after (run : List (ι × World)) :
    Sound config calls initial (after config calls initial run) :=
  play_invariant _ (fun _ _ h => h.next (fun _ _ _ => trivial)) (sound_begin config calls initial) run

/-- The list of accepted updates only grows. -/
theorem exec_accepted (o : Op) (w : World) (p : ProjectId) :
    ∃ more, (exec i w o s).2.accepted p = s.accepted p ++ more := by
  by_cases ho : o.Reads
  · obtain ⟨-, -, haccepted⟩ := exec_reads ho i w s
    exact ⟨[], by rw [haccepted, List.append_nil]⟩
  · cases o with
    | createSession q =>
      rw [exec]
      split
      · exact ⟨[], (List.append_nil _).symm⟩
      · exact ⟨[], (List.append_nil _).symm⟩
    | updateProjectState expected state =>
      rcases exec_update (i := i) (s := s) expected state w with
        ⟨e, hexec, -⟩ | ⟨current, table, -, -, -, hexec⟩
      · rw [hexec]
        exact ⟨[], (List.append_nil _).symm⟩
      · rw [hexec]
        by_cases hp : p = state.projectId
        · subst hp
          exact ⟨_, Function.update_self ..⟩
        · exact ⟨[], (Function.update_of_ne hp ..).trans (List.append_nil _).symm⟩
    | _ => exact absurd trivial ho

theorem step_accepted (c : Calls ι) (e : ι × World) (p : ProjectId) :
    ∃ more, (step config calls initial c e).state.accepted p = c.state.accepted p ++ more := by
  obtain ⟨i, w⟩ := e
  rw [step, Pool.next]
  cases c.threads i with
  | none => exact ⟨[], (List.append_nil _).symm⟩
  | some program =>
    cases program with
    | ret r => exact ⟨[], (List.append_nil _).symm⟩
    | call o k => exact exec_accepted o w p

theorem play_accepted (c : Calls ι) (more : List (ι × World)) (p : ProjectId) :
    ∃ later, (play (step config calls initial) c more).state.accepted p =
      c.state.accepted p ++ later := by
  refine play_invariant _ (I := fun d : Calls ι => ∃ later, d.state.accepted p = c.state.accepted p ++ later)
    (fun d e h => ?_) ⟨[], (List.append_nil _).symm⟩ more
  obtain ⟨later, hlater⟩ := h
  obtain ⟨next, hnext⟩ : ∃ next, (step config calls initial d e).state.accepted p =
      d.state.accepted p ++ next := step_accepted d e p
  exact ⟨later ++ next, by rw [hnext, hlater, List.append_assoc]⟩

/-! ## The law -/

/-- The record of a project after some calls. -/
def record (c : Calls ι) (p : ProjectId) : Option PersistedProjectState :=
  c.state.states.get p

/-- The updates of a project that the store has accepted, in their order. -/
def history (calls : ι → Call) (c : Calls ι) (p : ProjectId) : List Update :=
  updates calls (c.state.accepted p)

/-- The session that a record has. -/
def sessionOf (state : PersistedProjectState) : Option SessionId :=
  state.agentSession.map PersistedAgentSession.sessionId

/-- What the calls promise together. -/
structure SessionLaw (config : CoreConfig) (calls : ι → Call) (initial : ProjectStateTable)
    (c : Calls ι) : Prop where
  /-- The record is what the accepted updates make of the first one, and has the model and the
      route policy that were accepted last. -/
  replayed : ∀ p, record c p = (initial.get p).map (replay (history calls c p))
  model : ∀ p first state session, initial.get p = some first → record c p = some state →
    state.agentSession = some session →
    session.preferredModel = lastModel first (history calls c p)
  policy : ∀ p first state, initial.get p = some first → record c p = some state →
    state.routePolicy = lastPolicy first (history calls c p)
  /-- The session that the record has is the only one that was ever persisted. -/
  single : ∀ p first state, initial.get p = some first → record c p = some state →
    sessionIds first (history calls c p) = (sessionOf state).toList
  /-- A call that has returned has made its updates, and no others. -/
  returned : ∀ i r, c.threads i = some (.ret r) → Call.Left config calls i r c.state
  /-- A marker is the first record's, or that of a start which is not over, or which has failed
      since the store refused to take it back. -/
  marker : ∀ p state, record c p = some state → state.sessionCreationPending = true →
    c.state.accepted p = [] ∧ initial.get p = some state ∨
    ∃ i, calls i = .start p ∧ Last i p state c.state ∧
      ∀ r, c.threads i = some (.ret r) → (∃ e, r = .error e) ∧ Refused config i state c.state

/-- The last update that a call has made, when it is the last one that was accepted. -/
theorem mine_last {state : PersistedProjectState} (hlast : Last i p state s) :
    (mine calls i p s).getLast? = some ((calls i).update state) := by
  obtain ⟨before, hbefore⟩ := List.getLast?_eq_some_iff.mp hlast
  rw [mine_append hbefore rfl, List.getLast?_concat]

theorem update_mark {state : PersistedProjectState} (hpending : state.sessionCreationPending = true) :
    (Call.start p).update state = .mark := by
  rw [Call.update, if_pos hpending]

/-- A start that has returned, with the record still as it has marked it. -/
theorem left_marked {state : PersistedProjectState} {r : Result Answer}
    (hcall : calls i = .start p) (hpending : state.sessionCreationPending = true)
    (hlast : Last i p state s) (h : Call.Left config calls i r s) :
    (∃ e, r = .error e) ∧ Refused config i state s := by
  have hmark : (mine calls i p s).getLast? = some .mark := by
    rw [mine_last hlast, hcall, update_mark hpending]
  cases r with
  | ok answer =>
    have hwrote : Call.Wrote config calls i answer s := h
    rw [Call.Wrote, hcall] at hwrote
    obtain ⟨id, -, hmine⟩ := hwrote
    rw [hmine] at hmark
    cases hmark
  | error e =>
    have hfailed : Call.Failed config calls i s := h
    rw [Call.Failed, hcall] at hfailed
    rcases hfailed with hmine | hmine | ⟨-, stored, -, hstored, hrefused⟩
    · rw [hmine] at hmark
      cases hmark
    · rw [hmine] at hmark
      cases hmark
    · cases (show some (i, state) = some (i, stored) from hlast.symm.trans hstored)
      exact ⟨⟨e, rfl⟩, hrefused⟩

theorem Sound.law {c : Calls ι} (h : Sound config calls initial c) :
    SessionLaw config calls initial c where
  replayed := fun p => Inv.replayed h.inv p
  model := fun p first state session hfirst hstate hsome =>
    (Inv.kept h.inv p first state hfirst hstate).model session hsome
  policy := fun p first state hfirst hstate => (Inv.kept h.inv p first state hfirst hstate).policy
  single := fun p first state hfirst hstate => (Inv.kept h.inv p first state hfirst hstate).ids
  returned := fun i r hi => h.post hi
  marker := fun p state hstate hpending => by
    have hlast := Inv.last h.inv p
    have hrecord : c.state.states.get p = some state := hstate
    rw [hrecord] at hlast
    cases haccepted : (c.state.accepted p).getLast? with
    | none =>
      rw [haccepted] at hlast
      exact .inl ⟨List.getLast?_eq_none_iff.mp haccepted, hlast.symm⟩
    | some a =>
      rw [haccepted] at hlast
      obtain ⟨i, stored⟩ := a
      have hstored : state = stored := Option.some.inj hlast
      subst hstored
      have hcall : calls i = .start p :=
        Inv.marks h.inv p i state (List.mem_of_getLast? haccepted) hpending
      exact .inr ⟨i, hcall, haccepted, fun r hi => left_marked hcall hpending haccepted (h.post hi)⟩

/-- A record stays, and so does its session. -/
theorem session_kept (run more : List (ι × World)) {state : PersistedProjectState} {id : SessionId}
    (hstate : record (after config calls initial run) p = some state)
    (hsession : sessionOf state = some id) :
    ∃ state', record (after config calls initial (run ++ more)) p = some state' ∧
      sessionOf state' = some id := by
  have hlaw : SessionLaw config calls initial (after config calls initial run) :=
    (sound_after run).law
  have hlater : SessionLaw config calls initial (after config calls initial (run ++ more)) :=
    (sound_after (run ++ more)).law
  obtain ⟨first, hfirst, -⟩ := Option.map_eq_some_iff.mp ((hlaw.replayed p).symm.trans hstate)
  obtain ⟨grown, hgrown⟩ : ∃ grown, (play (step config calls initial)
      (after config calls initial run) more).state.accepted p =
      (after config calls initial run).state.accepted p ++ grown := play_accepted _ more p
  have hupdates : history calls (after config calls initial (run ++ more)) p =
      history calls (after config calls initial run) p ++ updates calls grown := by
    rw [history, after_append, hgrown, updates, List.map_append]
    rfl
  have hstate' := hlater.replayed p
  rw [hfirst] at hstate'
  refine ⟨_, hstate', ?_⟩
  have hids := hlater.single p first _ hfirst hstate'
  have hsingle := hlaw.single p first state hfirst hstate
  rw [hsession, Option.toList_some] at hsingle
  rw [hupdates, sessionIds, List.filterMap_append, ← List.append_assoc] at hids
  rw [sessionIds] at hsingle
  rw [hsingle] at hids
  rw [hupdates]
  cases hsome : sessionOf (replay (history calls (after config calls initial run) p ++
      updates calls grown) first) with
  | none =>
    rw [hsome, Option.toList_none] at hids
    exact absurd hids (List.cons_ne_nil _ _)
  | some id' =>
    rw [hsome, Option.toList_some] at hids
    rw [(List.cons.inj hids).1]

/-- **The law.**  At any point of any run of any calls, and for every project. -/
theorem session_law (config : CoreConfig) (calls : ι → Call) (initial : ProjectStateTable)
    (run : List (ι × World)) :
    SessionLaw config calls initial (after config calls initial run) ∧
      ∀ more p state id, record (after config calls initial run) p = some state →
        sessionOf state = some id →
        ∃ state', record (after config calls initial (run ++ more)) p = some state' ∧
          sessionOf state' = some id :=
  ⟨(sound_after run).law, fun more _ _ _ hstate hsession => session_kept run more hstate hsession⟩

end

/-! ## A marker can stay -/

/-- A project with neither a session nor a route policy. -/
def blank (revision : Nat) : PersistedProjectState where
  schema := projectStateSchemaV1
  revision := revision
  projectId := ⟨0⟩
  sessionCreationPending := false
  agentSession := none
  routePolicy := none

/-- The table with that project alone. -/
def blankTable (revision : Nat) (h : revision ≤ u64Max) : ProjectStateTable where
  get := fun p => if p = ⟨0⟩ then some (blank revision) else none
  valid := fun p state hstate => by
    split at hstate
    · rename_i hp
      cases hstate
      exact ⟨hp.symm, rfl⟩
    · cases hstate
  bounded := fun p state hstate => by
    split at hstate
    · cases hstate
      exact h
    · cases hstate

def jcodeConfig : CoreConfig where
  runtimeId := "jcode"
  bridge := none
  commandPolicy := { allowedRuntimeTools := [], allowWorkspaceExecutables := false }
  processRuntime := false
  projectStateStore := true
  conversationStore := false
  checkpointStore := false

/-- One start alone, run to its end. -/
def startAlone (revision : Nat) (h : revision ≤ u64Max) (w : World) : Calls Unit :=
  after jcodeConfig (fun _ => .start ⟨0⟩) (blankTable revision h) (List.replicate 7 ((), w))

/-- The start has failed, and the record of its project is marked. -/
def Stranded (c : Calls Unit) : Prop :=
  (∃ e, c.threads () = some (.ret (.error e))) ∧
    (record c ⟨0⟩).map PersistedProjectState.sessionCreationPending = some true

/-- An agent that fails when one revision is left, and one that answers with an empty session id. -/
theorem start_strands :
    Stranded (startAlone (u64Max - 1) (Nat.sub_le _ _) ⟨none, some (.agent "gone"), ⟨""⟩⟩) ∧
      Stranded (startAlone 0 (Nat.zero_le _) ⟨none, none, ⟨""⟩⟩) :=
  ⟨⟨⟨_, rfl⟩, rfl⟩, ⟨_, rfl⟩, rfl⟩

end VibeCoder.ProjectSession
