/-
  The record of a project under any number of calls that start its session, set its model or set its
  route policy, in any interleaving, with the agent and the workspace failing anywhere.

  1. **Updates** (`replay`) — what each accepted update does to the record before it.

  2. **The invariant** (`Inv`) — the record is the replay of the accepted updates; a session is bound
     once; who marks a creation as pending is the only one to update the record until it is over.

  3. **Reads and updates** (`Rely`, `wp_update_seen`, `wp_update_marked`) — what a call still knows of
     a record it has read, or marked, when others have gone on.

  4. **Starts** (`StartFailed`, `wp_start`) — what a start leaves in the list of accepted updates.
-/
import VibeCoder.Core.ProjectSession
import VibeCoder.Lib.Run

namespace VibeCoder.ProjectSession

open Resume Runs

/-! ## Calls -/

inductive Call where
  | start (project : ProjectId)
  | setModel (project : ProjectId) (model : ModelRef)
  | setRoutePolicy (project : ProjectId) (policy : Option ModelRoutePolicyConfig)

/-- What a call answers. -/
inductive Answer where
  | session (id : SessionId)
  | done
  | state (state : PersistedProjectState)

def Call.program (config : CoreConfig) : Call → SessionM Answer
  | .start project => do return .session (← startPersistedProjectSession config project)
  | .setModel project model => do
    setPersistedSessionModel config project model
    return .done
  | .setRoutePolicy project policy => do
    return .state (← setPersistedRoutePolicy config project policy)

/-! ## Updates -/

/-- The kinds of updates. -/
inductive Update where
  | mark
  | clear
  | bind (session : PersistedAgentSession)
  | model (target : ModelRouteTargetConfig)
  | policy (config : Option ModelRoutePolicyConfig)
  deriving DecidableEq

/-- An update of the record before it, as it was when it was read. -/
def Update.apply (state : PersistedProjectState) : Update → PersistedProjectState
  | .mark => (withCreationPending state true).committed state.revision
  | .clear => (withCreationPending state false).committed state.revision
  | .bind session =>
    ({ withCreationPending state false with
      agentSession := some session } : PersistedProjectState).committed state.revision
  | .model target => (withModel state target).committed state.revision
  | .policy config => (withPolicy state config).committed state.revision

def replay (updates : List Update) (first : PersistedProjectState) : PersistedProjectState :=
  updates.foldl Update.apply first

/-- The update that a call made, from the record it left. -/
def Call.update (call : Call) (committed : PersistedProjectState) : Update :=
  match call with
  | .setRoutePolicy _ policy => .policy policy
  | .setModel _ model => .model (modelTarget model)
  | .start _ =>
    if committed.sessionCreationPending then .mark
    else
      match committed.agentSession with
      | none => .clear
      | some session => .bind session

def Update.bound : Update → Option SessionId
  | .bind session => some session.sessionId
  | .mark | .clear | .model _ | .policy _ => none

def Update.modelSet : Update → Option ModelRouteTargetConfig
  | .model target => some target
  | .mark | .clear | .bind _ | .policy _ => none

def Update.policySet : Update → Option (Option ModelRoutePolicyConfig)
  | .policy config => some config
  | .mark | .clear | .bind _ | .model _ => none

/-- The session ids that were ever persisted, the first record's own among them. -/
def sessionIds (first : PersistedProjectState) (updates : List Update) : List SessionId :=
  (first.agentSession.map PersistedAgentSession.sessionId).toList ++ updates.filterMap Update.bound

/-- The model that was asked for last. -/
def lastModel (first : PersistedProjectState) (updates : List Update) :
    Option ModelRouteTargetConfig :=
  (updates.filterMap Update.modelSet).getLast?.or
    (first.agentSession.bind PersistedAgentSession.preferredModel)

/-- The route policy that was asked for last. -/
def lastPolicy (first : PersistedProjectState) (updates : List Update) :
    Option ModelRoutePolicyConfig :=
  (updates.filterMap Update.policySet).getLast?.getD first.routePolicy

theorem replay_append (updates : List Update) (u : Update) (first : PersistedProjectState) :
    replay (updates ++ [u]) first = Update.apply (replay updates first) u := by
  rw [replay, List.foldl_append]
  rfl

theorem filterMap_concat {α β : Type} (f : α → Option β) (as : List α) (a : α) :
    (as ++ [a]).filterMap f = as.filterMap f ++ (f a).toList := by
  rw [List.filterMap_append]
  cases h : f a with
  | none => rw [List.filterMap_cons_none h, List.filterMap_nil, Option.toList_none]
  | some b => rw [List.filterMap_cons_some h, List.filterMap_nil, Option.toList_some]

theorem sessionIds_append (first : PersistedProjectState) (updates : List Update) (u : Update) :
    sessionIds first (updates ++ [u]) = sessionIds first updates ++ u.bound.toList := by
  rw [sessionIds, filterMap_concat, ← List.append_assoc]
  rfl

theorem lastModel_append (first : PersistedProjectState) (updates : List Update) (u : Update) :
    lastModel first (updates ++ [u]) = u.modelSet.or (lastModel first updates) := by
  rw [lastModel, filterMap_concat]
  cases u.modelSet with
  | none =>
    rw [Option.toList_none, List.append_nil, Option.none_or]
    rfl
  | some target => rw [Option.toList_some, List.getLast?_concat, Option.some_or, Option.some_or]

theorem lastPolicy_append (first : PersistedProjectState) (updates : List Update) (u : Update) :
    lastPolicy first (updates ++ [u]) = u.policySet.getD (lastPolicy first updates) := by
  rw [lastPolicy, filterMap_concat]
  cases u.policySet with
  | none =>
    rw [Option.toList_none, List.append_nil, Option.getD_none]
    rfl
  | some config => rw [Option.toList_some, List.getLast?_concat, Option.getD_some, Option.getD_some]

/-- What a call may write over the current record. -/
inductive Writes (config : CoreConfig) (current : PersistedProjectState) :
    Call → PersistedProjectState → Prop where
  | mark (p : ProjectId) (hidle : current.sessionCreationPending = false)
      (hnone : current.agentSession = none) :
      Writes config current (.start p) (withCreationPending current true)
  | clear (p : ProjectId) (hpending : current.sessionCreationPending = true)
      (hnone : current.agentSession = none) :
      Writes config current (.start p) (withCreationPending current false)
  | bind (p : ProjectId) (id : SessionId) (hpending : current.sessionCreationPending = true)
      (hnone : current.agentSession = none) :
      Writes config current (.start p) (withSession config current id)
  | model (p : ProjectId) (model : ModelRef) (session : PersistedAgentSession)
      (hidle : current.sessionCreationPending = false)
      (hsome : current.agentSession = some session) :
      Writes config current (.setModel p model) (withModel current (modelTarget model))
  | policy (p : ProjectId) (policy : Option ModelRoutePolicyConfig)
      (hidle : current.sessionCreationPending = false) :
      Writes config current (.setRoutePolicy p policy) (withPolicy current policy)

variable {config : CoreConfig} {call : Call} {current state first : PersistedProjectState}

theorem update_clear {p : ProjectId} (hnone : current.agentSession = none) :
    (Call.start p).update ((withCreationPending current false).committed current.revision) =
      .clear := by
  have hsession : ((withCreationPending current false).committed
      current.revision).agentSession = none := hnone
  rw [Call.update, if_neg (fun h => by cases h), hsession]

/-- The update is read off the record it left, and applied to the one before it. -/
theorem Writes.apply (h : Writes config current call state) :
    Update.apply current (call.update (state.committed current.revision)) =
      state.committed current.revision := by
  cases h with
  | mark p hidle hnone => rfl
  | clear p hpending hnone =>
    rw [update_clear hnone]
    rfl
  | bind p id hpending hnone => rfl
  | model p model session hidle hsome => rfl
  | policy p policy hidle => rfl

/-- Only a start marks a creation as pending. -/
theorem Writes.pending (h : Writes config current call state)
    (hpending : state.sessionCreationPending = true) : ∃ p, call = .start p := by
  cases h with
  | mark p hidle hnone => exact ⟨p, rfl⟩
  | clear p hmarked hnone => exact ⟨p, rfl⟩
  | bind p id hmarked hnone => exact ⟨p, rfl⟩
  | model p model session hidle hsome => cases hidle.symm.trans hpending
  | policy p policy hidle => cases hidle.symm.trans hpending

/-- What a record holds of the updates it went through. -/
structure Kept (first : PersistedProjectState) (updates : List Update)
    (state : PersistedProjectState) : Prop where
  ids : sessionIds first updates = (state.agentSession.map PersistedAgentSession.sessionId).toList
  unset : state.agentSession = none →
    updates.filterMap Update.modelSet = [] ∧ first.agentSession = none
  model : ∀ session, state.agentSession = some session →
    session.preferredModel = lastModel first updates
  policy : state.routePolicy = lastPolicy first updates

theorem kept_first (first : PersistedProjectState) : Kept first [] first where
  ids := List.append_nil _
  unset := fun hnone => ⟨rfl, hnone⟩
  model := fun session hsome => by
    rw [lastModel, hsome]
    rfl
  policy := rfl

/-- An update that leaves session, model and policy as they are. -/
theorem Kept.same {updates : List Update} (h : Kept first updates current) {u : Update}
    (hsession : state.agentSession = current.agentSession) (hbound : u.bound = none)
    (hmodel : u.modelSet = none)
    (hpolicy : state.routePolicy = u.policySet.getD current.routePolicy) :
    Kept first (updates ++ [u]) state where
  ids := by
    rw [sessionIds_append, hbound, hsession, Option.toList_none, List.append_nil]
    exact h.ids
  unset := fun hnone => by
    rw [filterMap_concat, hmodel, Option.toList_none, List.append_nil]
    exact h.unset (hsession.symm.trans hnone)
  model := fun session hsome => by
    rw [lastModel_append, hmodel, Option.none_or]
    exact h.model session (hsession.symm.trans hsome)
  policy := by
    rw [lastPolicy_append, hpolicy, h.policy]

theorem Kept.writes {updates : List Update} (h : Kept first updates current)
    (hwrites : Writes config current call state) :
    Kept first (updates ++ [call.update (state.committed current.revision)])
      (state.committed current.revision) := by
  cases hwrites with
  | mark p hidle hnone => exact h.same rfl rfl rfl rfl
  | clear p hpending hnone =>
    rw [update_clear hnone]
    exact h.same rfl rfl rfl rfl
  | policy p policy hidle => exact h.same rfl rfl rfl rfl
  | bind p id hpending hnone =>
    have hupdate : (Call.start p).update ((withSession config current id).committed
        current.revision) = .bind (boundSession config id) := rfl
    have hstored : ((withSession config current id).committed current.revision).agentSession =
        some (boundSession config id) := rfl
    obtain ⟨hmodels, hfirst⟩ := h.unset hnone
    rw [hupdate]
    refine ⟨?_, fun hgone => ?_, fun session hsome => ?_, ?_⟩
    · rw [sessionIds_append, h.ids, hnone]
      rfl
    · cases hstored.symm.trans hgone
    · cases hstored.symm.trans hsome
      rw [lastModel_append, lastModel, hmodels, hfirst]
      rfl
    · rw [lastPolicy_append]
      exact h.policy
  | model p model session hidle hsome =>
    have hstored : ((withModel current (modelTarget model)).committed
        current.revision).agentSession =
        some { session with preferredModel := some (modelTarget model) } :=
      congrArg (Option.map _) hsome
    refine ⟨?_, fun hgone => ?_, fun session' hsome' => ?_, ?_⟩
    · rw [sessionIds_append, hstored, h.ids, hsome]
      rfl
    · cases hstored.symm.trans hgone
    · cases hstored.symm.trans hsome'
      rw [lastModel_append]
      rfl
    · rw [lastPolicy_append]
      exact h.policy

/-! ## The invariant -/

section

variable {ι : Type}

/-- The accepted updates of a project, each as its call made it. -/
def updates (calls : ι → Call) (accepted : List (ι × PersistedProjectState)) : List Update :=
  accepted.map (fun a => (calls a.1).update a.2)

theorem updates_append (calls : ι → Call) (accepted : List (ι × PersistedProjectState))
    (a : ι × PersistedProjectState) :
    updates calls (accepted ++ [a]) = updates calls accepted ++ [(calls a.1).update a.2] := by
  rw [updates, List.map_append]
  rfl

/-- The record that was committed last, or else the first one. -/
structure Inv (calls : ι → Call) (initial : ProjectStateTable) (s : Shared ι) : Prop where
  last : ∀ p, s.states.get p = ((s.accepted p).getLast?.map Prod.snd).or (initial.get p)
  replayed : ∀ p, s.states.get p = (initial.get p).map (replay (updates calls (s.accepted p)))
  kept : ∀ p first state, initial.get p = some first → s.states.get p = some state →
    Kept first (updates calls (s.accepted p)) state
  marks : ∀ p i state, (i, state) ∈ s.accepted p → state.sessionCreationPending = true →
    calls i = .start p

/-- What a call promises before an update: it writes over the record it has seen, and when that is
    marked, it is its own mark. -/
def Allowed (config : CoreConfig) (calls : ι → Call) (i : ι) : Op → Shared ι → Prop
  | .updateProjectState expected state, s => ∀ current, s.states.get state.projectId = some current →
      current.revision = expected → (∀ p, calls i = .start p → p = state.projectId) ∧
      Writes config current (calls i) state ∧
      (current.sessionCreationPending = true →
        (s.accepted state.projectId).getLast? = some (i, current))
  | _, _ => True

/-- What a call can rely on while others run. -/
structure Rely (i : ι) (s t : Shared ι) : Prop where
  /-- The list of accepted updates grows by updates of others. -/
  grows : ∀ p, ∃ more, t.accepted p = s.accepted p ++ more ∧ ∀ a ∈ more, a.1 ≠ i
  created : t.created i = s.created i
  /-- A record that is replaced gets a later revision. -/
  later : ∀ p state, s.states.get p = some state → ∃ state', t.states.get p = some state' ∧
    (state' = state ∨ state.revision < state'.revision)
  /-- Nobody else writes over a mark. -/
  marked : ∀ p state, (s.accepted p).getLast? = some (i, state) →
    state.sessionCreationPending = true → t.accepted p = s.accepted p

theorem Rely.refl (i : ι) (s : Shared ι) : Rely i s s where
  grows := fun _ => ⟨[], (List.append_nil _).symm, fun _ ha => absurd ha List.not_mem_nil⟩
  created := rfl
  later := fun _ state h => ⟨state, h, .inl rfl⟩
  marked := fun _ _ _ _ => rfl

theorem Rely.trans {i : ι} {s t r : Shared ι} (h : Rely i s t) (h' : Rely i t r) : Rely i s r where
  grows := fun p => by
    obtain ⟨more, hmore, hothers⟩ := h.grows p
    obtain ⟨more', hmore', hothers'⟩ := h'.grows p
    refine ⟨more ++ more', ?_, fun a ha => ?_⟩
    · rw [hmore', hmore, List.append_assoc]
    · rcases List.mem_append.mp ha with ha | ha
      · exact hothers a ha
      · exact hothers' a ha
  created := h'.created.trans h.created
  later := fun p state hstate => by
    obtain ⟨state', hstate', hlater⟩ := h.later p state hstate
    obtain ⟨state'', hstate'', hlater'⟩ := h'.later p state' hstate'
    refine ⟨state'', hstate'', ?_⟩
    rcases hlater with rfl | hlater
    · exact hlater'
    · rcases hlater' with rfl | hlater'
      · exact .inr hlater
      · exact .inr (Nat.lt_trans hlater hlater')
  marked := fun p state hlast hpending => by
    have hsame := h.marked p state hlast hpending
    rw [h'.marked p state (hsame ▸ hlast) hpending, hsame]

variable {calls : ι → Call} {initial : ProjectStateTable} {i j : ι} {s t : Shared ι}

/-- An operation that writes at most the gate. -/
def Op.Reads : Op → Prop
  | .updateProjectState _ _ | .createSession _ => False
  | _ => True

theorem Rely.same (hstates : t.states = s.states) (haccepted : t.accepted = s.accepted)
    (hcreated : t.created i = s.created i) : Rely i s t where
  grows := fun p => ⟨[], by rw [haccepted, List.append_nil], fun _ ha => absurd ha List.not_mem_nil⟩
  created := hcreated
  later := fun p state h => ⟨state, by rw [hstates, h], .inl rfl⟩
  marked := fun p _ _ _ => by rw [haccepted]

/-- Only the record of a project, and the updates accepted for it, are replaced. -/
theorem Inv.update (h : Inv calls initial s) {table : ProjectStateTable} {expected : Nat}
    {current state : PersistedProjectState} (hcurrent : s.states.get state.projectId = some current)
    (hrevision : current.revision = expected)
    (htable : table.get = Function.update s.states.get state.projectId
      (some (state.committed expected)))
    (hproject : ∀ p, calls i = .start p → p = state.projectId)
    (hwrites : Writes config current (calls i) state) :
    Inv calls initial { s with
      states := table
      accepted := Function.update s.accepted state.projectId
        (s.accepted state.projectId ++ [(i, state.committed expected)]) } := by
  subst hrevision
  have hstep : ∀ first, initial.get state.projectId = some first →
      replay (updates calls (s.accepted state.projectId)) first = current := by
    intro first hfirst
    have hreplayed := h.replayed state.projectId
    rw [hfirst, hcurrent] at hreplayed
    exact (Option.some.inj hreplayed).symm
  have hinitial : ∃ first, initial.get state.projectId = some first := by
    have hreplayed := h.replayed state.projectId
    rw [hcurrent] at hreplayed
    obtain ⟨first, hfirst, -⟩ := Option.map_eq_some_iff.mp hreplayed.symm
    exact ⟨first, hfirst⟩
  refine ⟨fun p => ?_, fun p => ?_, fun p first stored hfirst hstored => ?_,
    fun p j stored hmem hpending => ?_⟩
  · show table.get p = ((Function.update s.accepted state.projectId _ p).getLast?.map Prod.snd).or _
    rw [htable]
    by_cases hp : p = state.projectId
    · rw [hp, Function.update_self, Function.update_self, List.getLast?_concat]
      rfl
    · rw [Function.update_of_ne hp, Function.update_of_ne hp]
      exact h.last p
  · show table.get p = (initial.get p).map
      (replay (updates calls (Function.update s.accepted state.projectId _ p)))
    rw [htable]
    by_cases hp : p = state.projectId
    · obtain ⟨first, hfirst⟩ := hinitial
      rw [hp, Function.update_self, Function.update_self, hfirst, updates_append]
      refine congrArg some ?_
      rw [replay_append, hstep first hfirst]
      exact hwrites.apply.symm
    · rw [Function.update_of_ne hp, Function.update_of_ne hp]
      exact h.replayed p
  · change table.get p = some stored at hstored
    show Kept first (updates calls (Function.update s.accepted state.projectId _ p)) stored
    rw [htable] at hstored
    by_cases hp : p = state.projectId
    · subst hp
      rw [Function.update_self] at hstored
      cases hstored
      rw [Function.update_self, updates_append]
      exact (h.kept _ first current hfirst hcurrent).writes hwrites
    · rw [Function.update_of_ne hp] at hstored
      rw [Function.update_of_ne hp]
      exact h.kept p first stored hfirst hstored
  · change (j, stored) ∈ Function.update s.accepted state.projectId _ p at hmem
    by_cases hp : p = state.projectId
    · rw [hp, Function.update_self] at hmem
      rcases List.mem_append.mp hmem with hmem | hmem
      · rw [hp]
        exact h.marks _ j stored hmem hpending
      · cases List.mem_singleton.mp hmem
        obtain ⟨q, hstart⟩ := hwrites.pending hpending
        rw [hp, ← hproject q hstart]
        exact hstart
    · rw [Function.update_of_ne hp] at hmem
      exact h.marks p j stored hmem hpending

/-! ## What a call knows -/

/-- The record was read, and may have been replaced since. -/
def Seen (p : ProjectId) (state : PersistedProjectState) (s : Shared ι) : Prop :=
  state.projectId = p ∧ ∃ now, s.states.get p = some now ∧
    (now = state ∨ state.revision < now.revision)

/-- The last accepted update is the call's, and left this record. -/
def Last (i : ι) (p : ProjectId) (state : PersistedProjectState) (s : Shared ι) : Prop :=
  (s.accepted p).getLast? = some (i, state)

/-- Whatever the others do, `J` stays true. -/
def Stable (calls : ι → Call) (initial : ProjectStateTable) (i : ι) (J : Shared ι → Prop) : Prop :=
  ∀ s t, Inv calls initial t → Rely i s t → J s → J t

theorem stable_seen (p : ProjectId) (state : PersistedProjectState) :
    Stable calls initial i (Seen p state) := by
  intro s t _ hrely h
  obtain ⟨hproject, now, hnow, hlater⟩ := h
  obtain ⟨now', hnow', hlater'⟩ := hrely.later p now hnow
  refine ⟨hproject, now', hnow', ?_⟩
  rcases hlater' with rfl | hlater'
  · exact hlater
  · rcases hlater with rfl | hlater
    · exact .inr hlater'
    · exact .inr (Nat.lt_trans hlater hlater')

/-- A mark of the call's own stays where it is. -/
theorem stable_last {p : ProjectId} {state : PersistedProjectState}
    (hpending : state.sessionCreationPending = true) :
    Stable calls initial i (Last i p state) := by
  intro s t _ hrely h
  rw [Last, hrely.marked p state h hpending]
  exact h

theorem Stable.and {J K : Shared ι → Prop} (hJ : Stable calls initial i J)
    (hK : Stable calls initial i K) : Stable calls initial i (fun s => J s ∧ K s) :=
  fun s t ht hrely h => ⟨hJ s t ht hrely h.1, hK s t ht hrely h.2⟩

theorem Stable.or {J K : Shared ι → Prop} (hJ : Stable calls initial i J)
    (hK : Stable calls initial i K) : Stable calls initial i (fun s => J s ∨ K s) :=
  fun s t ht hrely h => h.imp (hJ s t ht hrely) (hK s t ht hrely)

theorem Op.Reads.allowed {o : Op} (ho : o.Reads) : Allowed config calls i o s := by
  cases o with
  | updateProjectState expected state => exact absurd ho (fun h => h)
  | _ => trivial

variable [DecidableEq ι]

/-- The updates that the store has accepted from a call. -/
def mine (calls : ι → Call) (i : ι) (p : ProjectId) (s : Shared ι) : List Update :=
  updates calls ((s.accepted p).filter (fun a => a.1 = i))

theorem stable_mine (p : ProjectId) (us : List Update) :
    Stable calls initial i (fun s => mine calls i p s = us) := by
  intro s t _ hrely h
  obtain ⟨more, hmore, hothers⟩ := hrely.grows p
  have hnone : more.filter (fun a => a.1 = i) = [] :=
    List.filter_eq_nil_iff.mpr (fun a ha hmine => hothers a ha (of_decide_eq_true hmine))
  rw [mine, hmore, List.filter_append, hnone, List.append_nil]
  exact h

theorem mine_append {p : ProjectId} {accepted : List (ι × PersistedProjectState)}
    {state : PersistedProjectState} (haccepted : t.accepted p = accepted ++ [(i, state)])
    {us : List Update} (h : updates calls (accepted.filter (fun a => a.1 = i)) = us) :
    mine calls i p t = us ++ [(calls i).update state] := by
  have hone : [(i, state)].filter (fun a => a.1 = i) = [(i, state)] :=
    List.filter_cons_of_pos (decide_eq_true rfl)
  rw [mine, haccepted, List.filter_append, hone, updates_append, h]

/-- What an update leaves. -/
theorem exec_update (expected : Nat) (state : PersistedProjectState) (w : World) :
    (∃ e, exec i w (.updateProjectState expected state) s = (.error e, s) ∧
      s.states.update expected state = .error e) ∨
    ∃ current table, s.states.get state.projectId = some current ∧ current.revision = expected ∧
      table.get = Function.update s.states.get state.projectId (some (state.committed expected)) ∧
      exec i w (.updateProjectState expected state) s = (.ok (state.committed expected), { s with
        states := table
        accepted := Function.update s.accepted state.projectId
          (s.accepted state.projectId ++ [(i, state.committed expected)]) }) := by
  rw [exec]
  cases hupdate : s.states.update expected state with
  | error e => exact .inl ⟨e, rfl, rfl⟩
  | ok updated =>
    obtain ⟨committed, table⟩ := updated
    obtain ⟨current, hcurrent, hrevision, rfl, htable⟩ := update_ok hupdate
    exact .inr ⟨current, table, hcurrent, hrevision, htable, rfl⟩

theorem exec_reads {o : Op} (ho : o.Reads) (i : ι) (w : World) (s : Shared ι) :
    (exec i w o s).2.states = s.states ∧ (exec i w o s).2.created = s.created ∧
      (exec i w o s).2.accepted = s.accepted := by
  cases o with
  | updateProjectState expected state => exact absurd ho (fun h => h)
  | createSession p => exact absurd ho (fun h => h)
  | acquire p =>
    rw [exec]
    split
    · exact ⟨rfl, rfl, rfl⟩
    · exact ⟨rfl, rfl, rfl⟩
  | _ => exact ⟨rfl, rfl, rfl⟩

theorem Inv.exec {o : Op} (h : Inv calls initial s) (hallowed : Allowed config calls i o s)
    (w : World) : Inv calls initial (exec i w o s).2 := by
  cases o with
  | updateProjectState expected state =>
    rcases exec_update (i := i) (s := s) expected state w with
      ⟨e, hexec, -⟩ | ⟨current, table, hcurrent, hrevision, htable, hexec⟩
    · rw [hexec]
      exact h
    · obtain ⟨hproject, hwrites, -⟩ := hallowed current hcurrent hrevision
      rw [hexec]
      exact h.update hcurrent hrevision htable hproject hwrites
  | createSession p =>
    rw [ProjectSession.exec]
    split
    · exact h
    · exact ⟨h.last, h.replayed, h.kept, h.marks⟩
  | acquire p =>
    rw [ProjectSession.exec]
    split
    · exact h
    · exact ⟨h.last, h.replayed, h.kept, h.marks⟩
  | release p => exact ⟨h.last, h.replayed, h.kept, h.marks⟩
  | _ => exact h

/-- Nobody but the one who marked a record can write over it. -/
theorem rely_exec {o : Op} (hij : i ≠ j) (h : Inv calls initial s)
    (hallowed : Allowed config calls j o s) (w : World) : Rely i s (exec j w o s).2 := by
  by_cases ho : o.Reads
  · obtain ⟨hstates, hcreated, haccepted⟩ := exec_reads ho j w s
    exact Rely.same hstates haccepted (congrFun hcreated i)
  · cases o with
    | createSession p =>
      rw [exec]
      split
      · exact Rely.refl i s
      · exact Rely.same rfl rfl (Function.update_of_ne hij _ _)
    | updateProjectState expected state =>
      rcases exec_update (i := j) (s := s) expected state w with
        ⟨e, hexec, -⟩ | ⟨current, table, hcurrent, hrevision, htable, hexec⟩
      · rw [hexec]
        exact Rely.refl i s
      · obtain ⟨-, -, hmine⟩ := hallowed current hcurrent hrevision
        rw [hexec]
        refine ⟨fun p => ?_, rfl, fun p stored hstored => ?_, fun p stored hlast hpending => ?_⟩
        · show ∃ more, Function.update s.accepted state.projectId _ p = _ ∧ _
          by_cases hp : p = state.projectId
          · rw [hp, Function.update_self]
            refine ⟨_, rfl, fun a ha => ?_⟩
            rw [List.mem_singleton.mp ha]
            exact hij.symm
          · rw [Function.update_of_ne hp]
            exact ⟨[], (List.append_nil _).symm, fun _ ha => absurd ha List.not_mem_nil⟩
        · show ∃ state', table.get p = some state' ∧ _
          rw [htable]
          by_cases hp : p = state.projectId
          · subst hp
            cases hcurrent.symm.trans hstored
            rw [Function.update_self]
            refine ⟨_, rfl, .inr ?_⟩
            show current.revision < expected + 1
            omega
          · rw [Function.update_of_ne hp]
            exact ⟨stored, hstored, .inl rfl⟩
        · show Function.update s.accepted state.projectId _ p = _
          by_cases hp : p = state.projectId
          · -- the marked record is the current one
            subst hp
            have hstored := h.last state.projectId
            rw [hlast, hcurrent] at hstored
            cases hstored
            cases hlast.symm.trans (hmine hpending)
            exact absurd rfl hij
          · exact Function.update_of_ne hp _ _
    | _ => exact absurd trivial ho

/-- The calls of one core. -/
abbrev Sessions (config : CoreConfig) (calls : ι → Call) (initial : ProjectStateTable) :
    Setting Op (fun o => Result o.Val) ι World (Shared ι) where
  exec := exec
  admits := fun _ => True
  inv := Inv calls initial
  allowed := Allowed config calls
  rely := Rely
  rely_refl := Rely.refl
  rely_trans := Rely.trans
  inv_step := fun _ h hallowed => h.exec hallowed _
  rely_step := fun hij _ h hallowed => rely_exec hij h hallowed _

variable {α : Type} {Q : α → Shared ι → Prop} {E : VibeCoderError → Shared ι → Prop}
variable {J : Shared ι → Prop} {p : ProjectId}

theorem rely_reads {o : Op} (ho : o.Reads) (w : World) : Rely i s (exec i w o s).2 := by
  obtain ⟨hstates, hcreated, haccepted⟩ := exec_reads ho i w s
  exact Rely.same hstates haccepted (congrFun hcreated i)

/-- What reads, or takes or gives the gate. -/
theorem wp_reads {o : Op} (ho : o.Reads) (hJ : Stable calls initial i J) (h : J s) :
    Wp (Sessions config calls initial) i (perform o) (fun _ => J) (fun _ => J) s := by
  refine wp_attempt ho.allowed (fun w _ t hrely ht => ?_)
  have ht : J t := hJ s t ht ((rely_reads ho w).trans hrely) h
  cases ((Sessions config calls initial).exec i w o s).1 with
  | ok a => exact ht
  | error e => exact ht

theorem wp_loadProjectState (p : ProjectId) (hJ : Stable calls initial i J) (h : J s)
    (hinv : Inv calls initial s) :
    Wp (Sessions config calls initial) i (loadProjectState p)
      (fun state t => J t ∧ Seen p state t) (fun _ => J) s := by
  have hop : Wp (Sessions config calls initial) i (perform (.loadProjectState p))
      (fun found t => J t ∧ ∀ state, found = some state → Seen p state t) (fun _ => J) s := by
    refine wp_attempt trivial (fun w _ t hrely ht => ⟨hJ s t ht hrely h, fun state hstored => ?_⟩)
    refine ⟨(s.states.valid p state hstored).1, ?_⟩
    obtain ⟨now, hnow, hlater⟩ := hrely.later p state hstored
    exact ⟨now, hnow, hlater⟩
  refine wp_seq hinv hop (fun found t _ h => ?_) (fun _ _ _ h => h)
  cases found with
  | none => exact wp_throw h.1
  | some state => exact wp_pure ⟨h.1, h.2 state rfl⟩

/-- An update of a record that was seen unmarked. -/
theorem wp_update_seen {state cur : PersistedProjectState} {us : List Update}
    (hseen : Seen p cur s) (hmine : mine calls i p s = us) (hidle : cur.sessionCreationPending = false)
    (hproject : state.projectId = cur.projectId) (hcall : ∀ q, calls i = .start q → q = p)
    (hwrites : Writes config cur (calls i) state) :
    Wp (Sessions config calls initial) i (perform (.updateProjectState cur.revision state))
      (fun committed t => committed = state.committed cur.revision ∧
        mine calls i p t = us ++ [(calls i).update committed] ∧
        (committed.sessionCreationPending = true → Last i p committed t))
      (fun _ t => mine calls i p t = us) s := by
  obtain ⟨rfl, now, hnow, hlater⟩ := hseen
  -- the revision says that the record is still the one that was read
  have hsame : ∀ current, s.states.get state.projectId = some current →
      current.revision = cur.revision → current = cur := by
    intro current hcurrent hrevision
    rw [hproject] at hcurrent
    cases hnow.symm.trans hcurrent
    rcases hlater with rfl | hlater
    · rfl
    · omega
  have hallowed : Allowed config calls i (.updateProjectState cur.revision state) s := by
    intro current hcurrent hrevision
    cases hsame current hcurrent hrevision
    refine ⟨fun q hq => (hcall q hq).trans hproject.symm, hwrites, fun hpending => ?_⟩
    cases hidle.symm.trans hpending
  refine wp_attempt hallowed (fun w _ t hrely ht => ?_)
  have hrely : Rely i (exec i w (.updateProjectState cur.revision state) s).2 t := hrely
  show Post _ _ (exec i w (.updateProjectState cur.revision state) s).1 t
  rcases exec_update (i := i) (s := s) cur.revision state w with
    ⟨e, hexec, -⟩ | ⟨current, table, hcurrent, hrevision, htable, hexec⟩
  · rw [hexec] at hrely ⊢
    exact stable_mine _ us s t ht hrely hmine
  · rw [hexec] at hrely ⊢
    rw [← hproject] at hmine ⊢
    refine ⟨rfl, ?_, fun hpending => ?_⟩
    · refine stable_mine _ _ _ t ht hrely (mine_append (Function.update_self ..) hmine)
    · refine stable_last hpending _ t ht hrely ?_
      show (Function.update s.accepted state.projectId _ state.projectId).getLast? = _
      rw [Function.update_self, List.getLast?_concat]

/-- An update of a record that the call itself has marked. -/
theorem wp_update_marked {state cur : PersistedProjectState} {us : List Update}
    (hlast : Last i p cur s) (hmine : mine calls i p s = us)
    (hpending : cur.sessionCreationPending = true) (hcurrent : s.states.get p = some cur)
    (hproject : state.projectId = p) (hrevision : state.revision = cur.revision)
    (hcall : ∀ q, calls i = .start q → q = p) (hwrites : Writes config cur (calls i) state) :
    Wp (Sessions config calls initial) i (perform (.updateProjectState cur.revision state))
      (fun committed t => committed = state.committed cur.revision ∧
        mine calls i p t = us ++ [(calls i).update committed])
      (fun _ t => mine calls i p t = us ∧ Last i p cur t ∧ t.created i = s.created i ∧
        (cur.revision = u64Max ∨ state.validate ≠ .ok ())) s := by
  subst hproject
  have hallowed : Allowed config calls i (.updateProjectState cur.revision state) s := by
    intro current hstored _
    cases hcurrent.symm.trans hstored
    exact ⟨hcall, hwrites, fun _ => hlast⟩
  refine wp_attempt hallowed (fun w _ t hrely ht => ?_)
  have hrely : Rely i (exec i w (.updateProjectState cur.revision state) s).2 t := hrely
  show Post _ _ (exec i w (.updateProjectState cur.revision state) s).1 t
  rcases exec_update (i := i) (s := s) cur.revision state w with
    ⟨e, hexec, hrefused⟩ | ⟨current, table, -, -, htable, hexec⟩
  · rw [hexec] at hrely ⊢
    refine ⟨stable_mine _ us s t ht hrely hmine, stable_last hpending s t ht hrely hlast,
      hrely.created, ?_⟩
    -- the record is the current one, and so only these two can be the reason
    by_contra hneither
    obtain ⟨hnext, hvalid⟩ := not_or.mp hneither
    have hbound := s.states.bounded _ cur hcurrent
    obtain ⟨table, haccepted⟩ := update_current hcurrent hrevision (not_not.mp hvalid)
      (Nat.lt_of_le_of_ne hbound hnext)
    cases haccepted.symm.trans hrefused
  · rw [hexec] at hrely ⊢
    exact ⟨rfl, stable_mine _ _ _ t ht hrely (mine_append (Function.update_self ..) hmine)⟩

theorem wp_createSession (hJ : Stable calls initial i J) (h : J s)
    (hcreated : ∀ session, J { s with created := Function.update s.created i (some session) }) :
    Wp (Sessions config calls initial) i (perform (.createSession p))
      (fun session t => J t ∧ t.created i = some session) (fun _ => J) s := by
  refine wp_attempt trivial (fun w _ t hrely ht => ?_)
  have hrely : Rely i (exec i w (.createSession p) s).2 t := hrely
  show Post _ _ (exec i w (.createSession p) s).1 t
  rw [exec] at hrely ⊢
  split at hrely
  · exact hJ s t ht hrely h
  · refine ⟨hJ _ t ht hrely (hcreated w.session), ?_⟩
    rw [hrely.created]
    exact Function.update_self ..

/-- A body under the gate; what it leaves is not affected by giving the gate back. -/
theorem wp_holdingGate {body : SessionM α} (hinv : Inv calls initial s)
    (hJ : Stable calls initial i J) (h : J s) (hE : ∀ e t, J t → E e t)
    (hstableQ : ∀ a, Stable calls initial i (Q a)) (hstableE : ∀ e, Stable calls initial i (E e))
    (hbody : ∀ t, Inv calls initial t → J t → Wp (Sessions config calls initial) i body Q E t) :
    Wp (Sessions config calls initial) i (holdingGate p body) Q E s := by
  rw [holdingGate]
  refine wp_seq hinv (wp_reads trivial hJ h) (fun _ t ht h => ?_) (fun e t _ h => hE e t h)
  have hsettled : Wp (Sessions config calls initial) i (settle body) (fun r t => Post Q E r t)
      (fun _ _ => False) t := wp_settle (hbody t ht h)
  refine wp_seq_total ht hsettled (fun r t ht h => ?_)
  have hstable : Stable calls initial i (fun t => Post Q E r t) := by
    cases r with
    | ok a => exact hstableQ a
    | error e => exact hstableE e
  have hrelease : Wp (Sessions config calls initial) i (perform (.release p))
      (fun _ t => Post Q E r t) (fun _ _ => False) t :=
    wp_attempt trivial (fun w _ u hrely hu => hstable t u hu ((rely_reads (o := .release p) trivial w).trans hrely) h)
  exact wp_seq_total ht hrelease (fun _ _ _ h => wp_resume h)

/-! ## What a call leaves -/

/-- Why the store refuses the update that would end a creation: the revisions are used up, or the
    session that the agent has created is not a valid one. -/
def Refused (config : CoreConfig) (i : ι) (state : PersistedProjectState) (s : Shared ι) : Prop :=
  state.revision = u64Max ∨
    ∃ id, s.created i = some id ∧ (boundSession config id).validate ≠ .ok ()

/-- A start that failed: before anything was written, after it took its marker back, or with the
    marker left, since the store refused to remove it. -/
def StartFailed (config : CoreConfig) (calls : ι → Call) (i : ι) (p : ProjectId) (s : Shared ι) :
    Prop :=
  mine calls i p s = [] ∨ mine calls i p s = [.mark, .clear] ∨
    mine calls i p s = [.mark] ∧ ∃ state, state.sessionCreationPending = true ∧ Last i p state s ∧
      Refused config i state s

theorem stable_startFailed (config : CoreConfig) (p : ProjectId) :
    Stable calls initial i (StartFailed config calls i p) := by
  intro s t ht hrely h
  rcases h with h | h | ⟨h, state, hpending, hlast, hreason⟩
  · exact .inl (stable_mine p _ s t ht hrely h)
  · exact .inr (.inl (stable_mine p _ s t ht hrely h))
  · refine .inr (.inr ⟨stable_mine p _ s t ht hrely h, state, hpending,
      stable_last hpending s t ht hrely hlast, ?_⟩)
    rw [Refused, hrely.created]
    exact hreason

theorem wp_projectStateStore {Q : Unit → Shared ι → Prop} (h : Q () s) (herror : ∀ e, E e s) :
    Wp (Sessions config calls initial) i (projectStateStore config) Q E s := by
  rw [projectStateStore]
  split
  · exact wp_pure h
  · exact wp_throw (herror _)

theorem wp_refusePending {Q : Unit → Shared ι → Prop} {state : PersistedProjectState}
    (h : state.sessionCreationPending = false → Q () s) (herror : ∀ e, E e s) :
    Wp (Sessions config calls initial) i (refusePending state) Q E s := by
  rw [refusePending]
  cases hpending : state.sessionCreationPending with
  | true => exact wp_throw (herror _)
  | false => exact wp_pure (h hpending)

/-- The record with a session is valid when the session is. -/
theorem validate_withSession {state : PersistedProjectState} {id : SessionId}
    (hvalid : state.validate = .ok ()) (hsession : (boundSession config id).validate = .ok ()) :
    (withSession config state id).validate = .ok () := by
  obtain ⟨hschema, -, -, hpolicy⟩ := PersistedProjectState.validate_ok.mp hvalid
  refine PersistedProjectState.validate_ok.mpr
    ⟨hschema, (fun h => by cases h.1), (fun session hsome => ?_), hpolicy⟩
  cases hsome
  exact hsession

theorem validate_cleared {state : PersistedProjectState} (hvalid : state.validate = .ok ()) :
    (withCreationPending state false).validate = .ok () := by
  obtain ⟨hschema, -, hsession, hpolicy⟩ := PersistedProjectState.validate_ok.mp hvalid
  exact PersistedProjectState.validate_ok.mpr
    ⟨hschema, (fun h => by cases h.1), hsession, hpolicy⟩

/-- An update of the marked record ends a start, or is refused. -/
theorem wp_finish {state written : PersistedProjectState} {u : Update} (hinv : Inv calls initial s)
    (hcall : calls i = .start p) (hmine : mine calls i p s = [.mark]) (hlast : Last i p state s)
    (hpending : state.sessionCreationPending = true) (hproject : written.projectId = state.projectId)
    (hrevision : written.revision = state.revision)
    (hwrites : Writes config state (.start p) written)
    (hupdate : (Call.start p).update (written.committed state.revision) = u) :
    Wp (Sessions config calls initial) i
      (settle (perform (.updateProjectState state.revision written)))
      (fun r t => (∃ committed, r = .ok committed) ∧ mine calls i p t = [.mark, u] ∨
        (∃ e, r = .error e) ∧ mine calls i p t = [.mark] ∧ Last i p state t ∧
          t.created i = s.created i ∧ (state.revision = u64Max ∨ written.validate ≠ .ok ()))
      (fun _ _ => False) s := by
  have hcurrent : s.states.get p = some state := by
    rw [hinv.last p, show (s.accepted p).getLast? = some (i, state) from hlast]
    rfl
  have hid : written.projectId = p := hproject.trans (s.states.valid p state hcurrent).1
  have honly : ∀ q, calls i = .start q → q = p := by
    intro q hq
    cases hq.symm.trans hcall
    rfl
  have hmine' : Wp (Sessions config calls initial) i
      (perform (.updateProjectState state.revision written)) _ _ s :=
    wp_update_marked hlast hmine hpending hcurrent hid hrevision honly (hcall ▸ hwrites)
  refine wp_settle (Wp.mono hinv hmine' (fun committed t _ h => ?_) (fun e t _ h => ?_))
  · obtain ⟨rfl, hmine⟩ := h
    rw [hcall, hupdate] at hmine
    exact .inl ⟨⟨_, rfl⟩, hmine⟩
  · exact .inr ⟨⟨e, rfl⟩, h⟩

/-- The rest of a start, once the record is marked. -/
theorem wp_create {state : PersistedProjectState} (hcall : calls i = .start p)
    (hinv : Inv calls initial s) (hmine : mine calls i p s = [.mark]) (hlast : Last i p state s)
    (hpending : state.sessionCreationPending = true) (hnone : state.agentSession = none) :
    Wp (Sessions config calls initial) i (createMarkedSession config p state)
      (fun id t => mine calls i p t = [.mark, .bind (boundSession config id)])
      (fun _ => StartFailed config calls i p) s := by
  have hcreated : Wp (Sessions config calls initial) i (settle (perform (.createSession p)))
      (fun r t => (mine calls i p t = [.mark] ∧ Last i p state t) ∧
        ∀ id, r = .ok id → t.created i = some id) (fun _ _ => False) s := by
    have hkept : Stable calls initial i (fun t => mine calls i p t = [.mark] ∧ Last i p state t) :=
      (stable_mine p _).and (stable_last hpending)
    refine wp_settle (Wp.mono hinv (wp_createSession hkept ⟨hmine, hlast⟩
      (fun _ => ⟨hmine, hlast⟩)) (fun id t _ h => ⟨h.1, fun id' hid => ?_⟩)
      (fun e t _ h => ⟨h, fun id hid => by cases hid⟩))
    cases hid
    exact h.2
  rw [createMarkedSession]
  refine wp_seq_total hinv hcreated (fun r t ht h => ?_)
  obtain ⟨⟨hmine, hlast⟩, hid⟩ := h
  have hcurrent : t.states.get p = some state := by
    rw [Inv.last ht p, show (t.accepted p).getLast? = some (i, state) from hlast]
    rfl
  have hvalid : state.validate = .ok () := (t.states.valid p state hcurrent).2
  cases r with
  | error e =>
    refine wp_seq_total ht (wp_finish ht hcall hmine hlast hpending rfl rfl
      (.clear p hpending hnone) (update_clear hnone)) (fun r t _ h => ?_)
    rcases h with ⟨⟨committed, rfl⟩, hmine⟩ | ⟨⟨e', rfl⟩, hmine, hlast, hsame, hreason⟩
    · exact wp_throw (.inr (.inl hmine))
    · -- a cleared record is valid
      have hlast' : state.revision = u64Max := hreason.resolve_right (not_not.mpr
        (validate_cleared hvalid))
      exact wp_throw (.inr (.inr ⟨hmine, state, hpending, hlast, .inl hlast'⟩))
  | ok id =>
    have hid : t.created i = some id := hid id rfl
    have hbind : Writes config state (.start p) (withSession config state id) :=
      .bind p id hpending hnone
    refine wp_seq_total ht (wp_finish (u := .bind (boundSession config id)) ht hcall hmine hlast
      hpending rfl rfl hbind rfl) (fun r t' _ h => ?_)
    rcases h with ⟨⟨committed, rfl⟩, hmine⟩ | ⟨⟨e', rfl⟩, hmine, hlast, hsame, hreason⟩
    · exact wp_pure hmine
    · -- the agent's own session is at fault, or the revisions are used up
      refine wp_throw (.inr (.inr ⟨hmine, state, hpending, hlast, hreason.imp_right
        (fun hinvalid => ⟨id, hsame.trans hid, fun hsession => hinvalid ?_⟩)⟩))
      exact validate_withSession hvalid hsession

/-- `start_persisted_project_session`. -/
theorem wp_start (hcall : calls i = .start p) (hinv : Inv calls initial s)
    (h : mine calls i p s = []) :
    Wp (Sessions config calls initial) i (startPersistedProjectSession config p)
      (fun id t => mine calls i p t = [.mark, .bind (boundSession config id)])
      (fun _ => StartFailed config calls i p) s := by
  have honly : ∀ q, calls i = .start q → q = p := by
    intro q hq
    cases hq.symm.trans hcall
    rfl
  have hfresh : ∀ (e : VibeCoderError) (t : Shared ι), Inv calls initial t →
      mine calls i p t = [] → StartFailed config calls i p t := fun _ _ _ h => .inl h
  rw [startPersistedProjectSession]
  refine wp_holdingGate hinv (stable_mine p []) h (fun e t h => .inl h)
    (fun id => stable_mine p _) (fun _ => stable_startFailed config p) (fun t ht h => ?_)
  refine wp_bind (wp_projectStateStore ?_ (fun _ => Or.inl h))
  refine wp_seq ht (wp_reads trivial (stable_mine p []) h) (fun _ t ht h => ?_) hfresh
  refine wp_seq ht (wp_loadProjectState p (stable_mine p []) h ht) (fun state t ht h => ?_) hfresh
  obtain ⟨h, hseen⟩ := h
  refine wp_bind (wp_refusePending (fun hidle => ?_) (fun _ => Or.inl h))
  cases hstored : state.agentSession with
  | some session => exact wp_throw (.inl h)
  | none =>
    rw [if_neg (fun h => by cases h)]
    have hmark : Writes config state (calls i) (withCreationPending state true) := by
      rw [hcall]
      exact .mark p hidle hstored
    refine wp_seq ht (wp_update_seen hseen h hidle rfl honly hmark) (fun marked t ht h => ?_)
      hfresh
    obtain ⟨rfl, hmine, hlast⟩ := h
    rw [hcall] at hmine
    exact wp_create hcall ht hmine (hlast rfl) rfl hstored

end

end VibeCoder.ProjectSession
