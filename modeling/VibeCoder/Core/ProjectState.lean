/-
  The project state store (`vibecoder-persistence-local`): one record for each project, replaced by
  compare-and-swap on its revision.

  1. **Size** (`encodedBytes_le`) — a record that its own checks accept fits in a state file, so that
     the size check of the store refuses none.

  2. **The table** (`ProjectStateTable`) — only valid records are stored, so that an invalid one
     cannot be built.

  3. **Update** (`update_ok`, `update_current`) — what an accepted update leaves, and when an
     update of the current record is accepted.

  Left out: the faults of the file system.
-/
import Mathlib.Algebra.Order.BigOperators.Group.List
import Mathlib.Data.Nat.Digits.Defs
import Mathlib.Logic.Function.Basic
import VibeCoder.Conversation
import VibeCoder.Lib.Text

namespace VibeCoder

open Json

/-! ## The size of a record -/

theorem charBytes_le (c : Char) : charBytes c ≤ 6 * c.utf8Size := by
  have hpos : 0 < c.utf8Size := Char.utf8Size_pos c
  rw [charBytes]
  split_ifs
  · omega
  · omega
  · omega
  · omega

theorem stringBytes_le (value : String) : stringBytes value ≤ 2 + 6 * len value := by
  have hsum : (value.toList.map charBytes).sum ≤ 6 * (value.toList.map Char.utf8Size).sum := by
    induction value.toList with
    | nil => exact Nat.le_refl 0
    | cons c cs ih =>
      have hc := charBytes_le c
      rw [List.map_cons, List.map_cons, List.sum_cons, List.sum_cons]
      omega
  rw [stringBytes, len, Text.utf8ByteSize_eq_sum]
  omega

theorem natBytes_le {n : Nat} (h : n ≤ u64Max) : natBytes n ≤ 20 := by
  refine (Nat.length_toDigits_le_iff (by decide) (by decide)).mpr ?_
  exact Nat.lt_of_le_of_lt h (by decide)

theorem boolBytes_le (b : Bool) : boolBytes b ≤ 5 := by
  cases b with
  | false => exact Nat.le_refl 5
  | true => exact Nat.le_succ 4

theorem optionBytes_le {α : Type} {bytes : α → Nat} {bound : Nat} {value : Option α}
    (h : ∀ a, value = some a → bytes a ≤ bound) (hnull : 4 ≤ bound) :
    optionBytes bytes value ≤ bound := by
  cases value with
  | none => exact hnull
  | some a => exact h a rfl

theorem groupBytes_map_le {α : Type} {bytes : α → Nat} {bound : Nat} {values : List α}
    (h : ∀ a ∈ values, bytes a ≤ bound) :
    groupBytes (values.map bytes) ≤ 2 + values.length * (bound + 1) := by
  have hsum : (values.map bytes).sum ≤ values.length * bound := by
    have hsum := List.sum_le_card_nsmul (values.map bytes) bound (fun n hn => by
      obtain ⟨a, ha, rfl⟩ := List.mem_map.mp hn
      exact h a ha)
    rw [List.length_map] at hsum
    exact hsum
  rw [groupBytes, List.length_map, Nat.mul_add]
  omega

theorem validateBoundedIdentity_len {value : String} {maxBytes : Nat} {code : String}
    (h : validateBoundedIdentity value maxBytes code = .ok ()) : len value ≤ maxBytes := by
  rw [validateBoundedIdentity] at h
  split at h
  · cases h
  · rename_i hvalid
    simp only [Bool.or_eq_true, decide_eq_true_eq, not_or] at hvalid
    omega

theorem validateTarget_len {target : ModelRouteTargetConfig} (h : validateTarget target = .ok ()) :
    len target.modelId ≤ maxModelIdBytes ∧
      ∀ provider, target.provider = some provider → len provider ≤ maxProviderBytes := by
  simp only [validateTarget, bind, Except.bind] at h
  split at h
  · cases h
  · rename_i hmodel
    refine ⟨validateBoundedIdentity_len hmodel, fun provider hprovider => ?_⟩
    rw [hprovider] at h
    exact validateBoundedIdentity_len h

theorem targetBytes_le {target : ModelRouteTargetConfig} (h : validateTarget target = .ok ()) :
    targetBytes target ≤ 4700 := by
  obtain ⟨hmodel, hprovider⟩ := validateTarget_len h
  have hmodelId : stringBytes target.modelId ≤ 2 + 6 * 512 :=
    Nat.le_trans (stringBytes_le _) (Nat.add_le_add_left (Nat.mul_le_mul_left 6 hmodel) 2)
  have hoption : optionBytes stringBytes target.provider ≤ 2 + 6 * 256 :=
    optionBytes_le (fun provider hsome => Nat.le_trans (stringBytes_le _)
      (Nat.add_le_add_left (Nat.mul_le_mul_left 6 (hprovider provider hsome)) 2)) (by decide)
  have hname : stringBytes "model_id" = 10 := by decide
  have hname' : stringBytes "provider" = 10 := by decide
  simp only [targetBytes, memberBytes, groupBytes, List.sum_cons, List.sum_nil, List.length_cons,
    List.length_nil, hname, hname']
  omega

theorem validateTargets_mem {targets : List ModelRouteTargetConfig} :
    ∀ {seen : List String}, validateTargets seen targets = .ok () →
      ∀ target ∈ targets, validateTarget target = .ok () := by
  induction targets with
  | nil => exact fun _ target hmem => absurd hmem List.not_mem_nil
  | cons first rest ih =>
    intro seen h target hmem
    simp only [validateTargets, bind, Except.bind] at h
    split at h
    · cases h
    · rename_i hfirst
      split at h
      · cases h
      · rcases List.mem_cons.mp hmem with rfl | hmem
        · exact hfirst
        · exact ih h target hmem

/-- The triggers are distinct, and so at most four. -/
theorem validateTriggers_nodup {triggers : List FallbackTrigger} :
    ∀ {seen : List FallbackTrigger}, validateTriggers seen triggers = .ok () →
      triggers.Nodup ∧ ∀ trigger ∈ triggers, trigger ∉ seen := by
  induction triggers with
  | nil => exact fun _ => ⟨List.nodup_nil, fun _ hmem => absurd hmem List.not_mem_nil⟩
  | cons first rest ih =>
    intro seen h
    rw [validateTriggers] at h
    split at h
    · cases h
    · rename_i hfresh
      obtain ⟨hnodup, hrest⟩ := ih h
      refine ⟨List.nodup_cons.mpr ⟨fun hmem => hrest first hmem List.mem_cons_self, hnodup⟩, ?_⟩
      intro trigger hmem hseen
      rcases List.mem_cons.mp hmem with rfl | hmem
      · exact hfresh hseen
      · exact hrest trigger hmem (List.mem_cons_of_mem first hseen)

theorem triggers_length_le {triggers : List FallbackTrigger} (h : triggers.Nodup) :
    triggers.length ≤ 4 := by
  have hsubset : triggers ⊆ [.rateLimited, .timeout, .providerUnavailable, .modelUnavailable] := by
    intro trigger _
    cases trigger with
    | rateLimited => decide
    | timeout => decide
    | providerUnavailable => decide
    | modelUnavailable => decide
  exact h.length_le_of_subset hsubset

theorem triggerBytes_le (trigger : FallbackTrigger) : triggerBytes trigger ≤ 22 := by
  cases trigger with
  | rateLimited => decide
  | timeout => decide
  | providerUnavailable => decide
  | modelUnavailable => decide

theorem validatePolicyShape_triggers {policy : ModelRoutePolicyConfig}
    (h : policy.validate = .ok ()) :
    validateTriggers [] policy.fallbackOn = .ok () ∧ validateTargets [] policy.targets = .ok () := by
  simp only [ModelRoutePolicyConfig.validate, validatePolicyShape, bind, Except.bind] at h
  split at h
  · cases h
  · rename_i hshape
    refine ⟨?_, h⟩
    split at hshape
    · cases hshape
    · split at hshape
      · cases hshape
      · assumption

theorem policyBytes_le {policy : ModelRoutePolicyConfig} (h : policy.validate = .ok ()) :
    policyBytes policy ≤ 40000 := by
  obtain ⟨htriggers, htargets⟩ := validatePolicyShape_triggers h
  have hlength : 1 + policy.fallbacks.length ≤ 8 := by
    have hbound := validate_bounds_targets h
    rw [ModelRoutePolicyConfig.targets, List.length_cons, maxRouteTargets] at hbound
    omega
  have hprimary : targetBytes policy.primary ≤ 4700 :=
    targetBytes_le (validateTargets_mem htargets _ List.mem_cons_self)
  have hfallbacks : groupBytes (policy.fallbacks.map targetBytes) ≤ 2 + 7 * (4700 + 1) := by
    have heach : ∀ target ∈ policy.fallbacks, targetBytes target ≤ 4700 := by
      intro target hmem
      exact targetBytes_le (validateTargets_mem htargets _ (List.mem_cons_of_mem _ hmem))
    refine Nat.le_trans (groupBytes_map_le heach) ?_
    exact Nat.add_le_add_left (Nat.mul_le_mul_right _ (by omega)) 2
  have hon : groupBytes (policy.fallbackOn.map triggerBytes) ≤ 2 + 4 * (22 + 1) := by
    have heach : ∀ trigger ∈ policy.fallbackOn, triggerBytes trigger ≤ 22 := by
      intro trigger _
      exact triggerBytes_le trigger
    refine Nat.le_trans (groupBytes_map_le heach) ?_
    have hfour := triggers_length_le (validateTriggers_nodup htriggers).1
    exact Nat.add_le_add_left (Nat.mul_le_mul_right _ hfour) 2
  have hboundary : boundaryBytes policy.fallbackBoundary = 22 := by
    cases policy.fallbackBoundary with
    | beforeResponseOnly => decide
  have hname₁ : stringBytes "primary" = 9 := by decide
  have hname₂ : stringBytes "fallbacks" = 11 := by decide
  have hname₃ : stringBytes "fallback_on" = 13 := by decide
  have hname₄ : stringBytes "fallback_boundary" = 19 := by decide
  rw [policyBytes, groupBytes]
  simp only [memberBytes, List.sum_cons, List.sum_nil, List.length_cons, List.length_nil, hname₁,
    hname₂, hname₃, hname₄, hboundary]
  omega

theorem validateRuntimeId_len {value : String} (h : validateRuntimeId value = .ok ()) :
    len value ≤ 64 := by
  rw [validateRuntimeId] at h
  split at h
  · cases h
  · rename_i hvalid
    simp only [Bool.or_eq_true, decide_eq_true_eq, not_or] at hvalid
    have hmax : maxRuntimeIdBytes = 64 := rfl
    omega

theorem validateSessionId_len {value : SessionId} (h : validateSessionId value = .ok ()) :
    len value.value ≤ 128 := by
  rw [validateSessionId] at h
  split at h
  · cases h
  · rename_i hvalid
    simp only [Bool.or_eq_true, decide_eq_true_eq, not_or] at hvalid
    have hmax : maxPersistedSessionIdBytes = 128 := rfl
    omega

theorem sessionBytes_le {session : PersistedAgentSession} (h : session.validate = .ok ()) :
    sessionBytes session ≤ 6000 := by
  simp only [PersistedAgentSession.validate, bind, Except.bind] at h
  split at h
  · cases h
  · rename_i hruntime
    split at h
    · cases h
    · rename_i hsession
      have hmodel : optionBytes targetBytes session.preferredModel ≤ 4700 :=
        optionBytes_le (fun model hsome => targetBytes_le (by rw [hsome] at h; exact h)) (by decide)
      have hruntimeId : stringBytes session.runtimeId ≤ 2 + 6 * 64 :=
        Nat.le_trans (stringBytes_le _)
          (Nat.add_le_add_left (Nat.mul_le_mul_left 6 (validateRuntimeId_len hruntime)) 2)
      have hsessionId : stringBytes session.sessionId.value ≤ 2 + 6 * 128 :=
        Nat.le_trans (stringBytes_le _)
          (Nat.add_le_add_left (Nat.mul_le_mul_left 6 (validateSessionId_len hsession)) 2)
      have hname₁ : stringBytes "runtime_id" = 12 := by decide
      have hname₂ : stringBytes "session_id" = 12 := by decide
      have hname₃ : stringBytes "preferred_model" = 17 := by decide
      simp only [sessionBytes, memberBytes, groupBytes, List.sum_cons, List.sum_nil,
        List.length_cons, List.length_nil, hname₁, hname₂, hname₃]
      omega

/-- What a valid record is. -/
theorem PersistedProjectState.validate_ok {state : PersistedProjectState} :
    state.validate = .ok () ↔ state.schema = projectStateSchemaV1 ∧
      ¬ (state.sessionCreationPending = true ∧ state.agentSession.isSome = true) ∧
      (∀ session, state.agentSession = some session → session.validate = .ok ()) ∧
      ∀ policy, state.routePolicy = some policy → policy.validate = .ok () := by
  simp only [validate, bind, Except.bind, throw, throwThe, MonadExceptOf.throw, pure, Except.pure]
  rw [← Bool.and_eq_true]
  by_cases hschema : state.schema = projectStateSchemaV1
  · by_cases hconflict : (state.sessionCreationPending && state.agentSession.isSome) = true
    · rw [if_neg (not_not.mpr hschema), if_pos hconflict]
      exact iff_of_false (fun h => by cases h) (fun h => h.2.1 hconflict)
    · rw [if_neg (not_not.mpr hschema), if_neg hconflict]
      cases hstored : state.agentSession with
      | none =>
        rw [hstored] at hconflict
        have hnone : ∀ session : PersistedAgentSession, none = some session →
            session.validate = .ok () :=
          fun _ hsome => by cases hsome
        cases state.routePolicy with
        | none => exact iff_of_true rfl ⟨hschema, hconflict, hnone, fun _ hsome => by cases hsome⟩
        | some policy =>
          refine ⟨fun h => ⟨hschema, hconflict, hnone, fun _ hsome => ?_⟩, fun h => h.2.2.2 policy rfl⟩
          cases hsome
          exact h
      | some session =>
        rw [hstored] at hconflict
        dsimp only
        cases hsession : session.validate with
        | error e =>
          refine iff_of_false (fun h => by cases h) (fun h => ?_)
          cases hsession.symm.trans (h.2.2.1 session rfl)
        | ok done =>
          have hsome : ∀ s, some session = some s → s.validate = .ok () := by
            intro s hs
            cases hs
            exact hsession
          cases state.routePolicy with
          | none => exact iff_of_true rfl ⟨hschema, hconflict, hsome, fun _ hs => by cases hs⟩
          | some policy =>
            refine ⟨fun h => ⟨hschema, hconflict, hsome, fun _ hs => ?_⟩, fun h => h.2.2.2 policy rfl⟩
            cases hs
            exact h
  · rw [if_pos hschema]
    exact iff_of_false (fun h => by cases h) (fun h => hschema h.1)

theorem len_hyphenated_le (uuid : BitVec 128) : len (hyphenated uuid) ≤ 36 * 4 := by
  have hdigits : (hexDigits 32 uuid.toNat).length = 32 := by
    rw [hexDigits, List.length_map, List.length_range]
  rw [len, hyphenated, Text.utf8ByteSize_ofList]
  refine Nat.le_trans (List.sum_le_card_nsmul _ 4 fun n hn => ?_) ?_
  · obtain ⟨c, -, rfl⟩ := List.mem_map.mp hn
    exact Char.utf8Size_le_four c
  · simp [hdigits]

/-- A valid record fits in a state file. -/
theorem encodedBytes_le {state : PersistedProjectState} (h : state.validate = .ok ())
    (hrevision : state.revision ≤ u64Max) : state.encodedBytes ≤ maxPersistedStateBytes := by
  obtain ⟨hschema, -, hsession, hpolicy⟩ := PersistedProjectState.validate_ok.mp h
  have hschemaBytes : natBytes state.schema ≤ 20 := natBytes_le (by rw [hschema]; decide)
  have hrevisionBytes : natBytes state.revision ≤ 20 := natBytes_le hrevision
  have hproject : stringBytes (hyphenated state.projectId.uuid) ≤ 2 + 6 * (36 * 4) :=
    Nat.le_trans (stringBytes_le _)
      (Nat.add_le_add_left (Nat.mul_le_mul_left 6 (len_hyphenated_le _)) 2)
  have hpending : boolBytes state.sessionCreationPending ≤ 5 := boolBytes_le _
  have hsessionBytes : optionBytes sessionBytes state.agentSession ≤ 6000 :=
    optionBytes_le (fun session hsome => sessionBytes_le (hsession session hsome)) (by decide)
  have hpolicyBytes : optionBytes policyBytes state.routePolicy ≤ 40000 :=
    optionBytes_le (fun policy hsome => policyBytes_le (hpolicy policy hsome)) (by decide)
  have hname₁ : stringBytes "schema" = 8 := by decide
  have hname₂ : stringBytes "revision" = 10 := by decide
  have hname₃ : stringBytes "project_id" = 12 := by decide
  have hname₄ : stringBytes "session_creation_pending" = 26 := by decide
  have hname₅ : stringBytes "agent_session" = 15 := by decide
  have hname₆ : stringBytes "route_policy" = 14 := by decide
  have hmax : maxPersistedStateBytes = 262144 := rfl
  rw [PersistedProjectState.encodedBytes, groupBytes]
  simp only [memberBytes, List.sum_cons, List.sum_nil, List.length_cons, List.length_nil, hname₁,
    hname₂, hname₃, hname₄, hname₅, hname₆]
  omega

/-! ## The table -/

/-- The state files: each holds a valid record of its project. -/
structure ProjectStateTable where
  get : ProjectId → Option PersistedProjectState
  valid : ∀ p state, get p = some state → state.projectId = p ∧ state.validate = .ok ()
  bounded : ∀ p state, get p = some state → state.revision ≤ u64Max

namespace ProjectStateTable

/-- `save_project_state`, after its size check. -/
def put (table : ProjectStateTable) (state : PersistedProjectState)
    (hvalid : state.validate = .ok ()) (hrevision : state.revision ≤ u64Max) :
    ProjectStateTable where
  get := Function.update table.get state.projectId (some state)
  valid := fun p stored h => by
    by_cases hp : p = state.projectId
    · subst hp
      rw [Function.update_self] at h
      cases h
      exact ⟨rfl, hvalid⟩
    · rw [Function.update_of_ne hp] at h
      exact table.valid p stored h
  bounded := fun p stored h => by
    by_cases hp : p = state.projectId
    · subst hp
      rw [Function.update_self] at h
      cases h
      exact hrevision
    · rw [Function.update_of_ne hp] at h
      exact table.bounded p stored h

end ProjectStateTable

/-- The record with the next revision. -/
def PersistedProjectState.committed (state : PersistedProjectState) (expected : Nat) :
    PersistedProjectState :=
  { state with revision := expected + 1 }

theorem PersistedProjectState.validate_committed {state : PersistedProjectState}
    (h : state.validate = .ok ()) (expected : Nat) :
    (state.committed expected).validate = .ok () := h

/-- `update_project_state`. -/
def ProjectStateTable.update (table : ProjectStateTable) (expected : Nat)
    (state : PersistedProjectState) : Result (PersistedProjectState × ProjectStateTable) :=
  match hvalid : state.validate with
  | .error e => .error e
  | .ok () =>
    if state.revision ≠ expected then
      .error (persistenceError "project_state_expected_revision_mismatch")
    else
      match table.get state.projectId with
      | none => .error (persistenceError "project_state_not_found")
      | some current =>
        if current.revision ≠ expected then
          .error (persistenceError "project_state_revision_conflict")
        else if hrevision : expected + 1 ≤ u64Max then
          if (state.committed expected).encodedBytes > maxPersistedStateBytes then
            .error (persistenceError "project_state_too_large")
          else
            .ok (state.committed expected,
              table.put (state.committed expected) (state.validate_committed hvalid expected)
                hrevision)
        else .error (persistenceError "project_state_revision_overflow")

/-- An accepted update replaced the record that had the expected revision. -/
theorem update_ok {table table' : ProjectStateTable} {expected : Nat}
    {state committed : PersistedProjectState}
    (h : table.update expected state = .ok (committed, table')) :
    ∃ current, table.get state.projectId = some current ∧ current.revision = expected ∧
      committed = state.committed expected ∧
      table'.get = Function.update table.get state.projectId (some committed) := by
  rw [ProjectStateTable.update] at h
  split at h
  · cases h
  · split at h
    · cases h
    · split at h
      · cases h
      · rename_i current hcurrent
        split at h
        · cases h
        · rename_i hrevision
          split at h
          · split at h
            · cases h
            · cases h
              exact ⟨current, hcurrent, not_not.mp hrevision, rfl, rfl⟩
          · cases h

/-- A valid update of the current record is accepted while there are revisions left. -/
theorem update_current {table : ProjectStateTable} {state current : PersistedProjectState}
    (hcurrent : table.get state.projectId = some current)
    (hrevision : state.revision = current.revision) (hvalid : state.validate = .ok ())
    (hnext : current.revision < u64Max) :
    ∃ table', table.update current.revision state =
      .ok (state.committed current.revision, table') := by
  have hfits : ¬ (state.committed current.revision).encodedBytes > maxPersistedStateBytes :=
    Nat.not_lt.mpr (encodedBytes_le (state.validate_committed hvalid _) hnext)
  rw [ProjectStateTable.update]
  split
  · rename_i e hinvalid
    cases hvalid.symm.trans hinvalid
  · rw [if_neg (not_not.mpr hrevision), hcurrent]
    dsimp only
    have hnext : current.revision + 1 ≤ u64Max := hnext
    rw [if_neg (not_not.mpr rfl), dif_pos hnext, if_neg hfits]
    exact ⟨_, rfl⟩

end VibeCoder
