/-
  The model route policy (`vibecoder-routing`): which model a task tries, and when a failed
  attempt may fall back to the next configured one.

  A `ResolvedModelRoutePolicy` has private fields in the source and only `resolve` builds one.
  Here the structure carries what `resolve` establishes — at least one route, at most
  `maxRouteTargets`, pairwise distinct model ids — so that `primary` is total and no later proof
  asks for it again.

  The catalog index is a `HashMap` in the source; its keys are checked unique before anything is
  looked up, so the model looks a model up in the checked catalog list itself.
-/
import Mathlib.Data.List.Nodup
import VibeCoder.Domain

namespace VibeCoder

def maxRouteTargets : Nat := 8
def maxModelIdBytes : Nat := 512
def maxProviderBytes : Nat := 256

/-- `routing_error`; the task crate's `task_error` builds the same value. -/
def routingError (code : String) : VibeCoderError := .routing code

/-! ## Configuration -/

/-- `ModelRouteTargetConfig`. -/
structure ModelRouteTargetConfig where
  modelId : String
  provider : Option String
  deriving DecidableEq, Repr

/-- `FallbackTrigger`. -/
inductive FallbackTrigger where
  | rateLimited
  | timeout
  | providerUnavailable
  | modelUnavailable
  deriving DecidableEq, Repr

/-- `FallbackBoundary`, with its only variant. -/
inductive FallbackBoundary where
  | beforeResponseOnly
  deriving DecidableEq, Repr

/-- `ModelRoutePolicyConfig`. -/
structure ModelRoutePolicyConfig where
  primary : ModelRouteTargetConfig
  fallbacks : List ModelRouteTargetConfig
  fallbackOn : List FallbackTrigger
  fallbackBoundary : FallbackBoundary
  deriving DecidableEq, Repr

/-- The primary first, then the fallbacks in order. -/
def ModelRoutePolicyConfig.targets (config : ModelRoutePolicyConfig) :
    List ModelRouteTargetConfig :=
  config.primary :: config.fallbacks

/-- `validate_bounded_identity`. -/
def validateBoundedIdentity (value : String) (maxBytes : Nat) (code : String) : Result Unit :=
  if value.isEmpty || decide (len value > maxBytes) || !trimmed value || hasControl value then
    .error (routingError code)
  else .ok ()

/-- `validate_target`. -/
def validateTarget (target : ModelRouteTargetConfig) : Result Unit := do
  validateBoundedIdentity target.modelId maxModelIdBytes "invalid_route_model_id"
  match target.provider with
  | some provider => validateBoundedIdentity provider maxProviderBytes "invalid_route_provider"
  | none => pure ()

/-- The loop of `validate_policy_shape` over the triggers. -/
def validateTriggers (seen : List FallbackTrigger) : List FallbackTrigger → Result Unit
  | [] => .ok ()
  | trigger :: rest =>
    if trigger ∈ seen then .error (routingError "duplicate_fallback_trigger")
    else validateTriggers (trigger :: seen) rest

/-- `validate_policy_shape`. -/
def validatePolicyShape (config : ModelRoutePolicyConfig) : Result Unit := do
  if 1 + config.fallbacks.length > maxRouteTargets then
    throw (routingError "too_many_route_targets")
  validateTriggers [] config.fallbackOn
  if !config.fallbacks.isEmpty && config.fallbackOn.isEmpty then
    throw (routingError "fallback_routes_without_triggers")

/-- The loop of `ModelRoutePolicyConfig::validate` over the targets. -/
def validateTargets (seen : List String) : List ModelRouteTargetConfig → Result Unit
  | [] => .ok ()
  | target :: rest => do
    validateTarget target
    if target.modelId ∈ seen then throw (routingError "duplicate_route_model_id")
    validateTargets (target.modelId :: seen) rest

/-- `ModelRoutePolicyConfig::validate`. -/
def ModelRoutePolicyConfig.validate (config : ModelRoutePolicyConfig) : Result Unit := do
  validatePolicyShape config
  validateTargets [] config.targets

theorem validate_bounds_targets {config : ModelRoutePolicyConfig}
    (h : config.validate = .ok ()) : config.targets.length ≤ maxRouteTargets := by
  by_cases hlen : 1 + config.fallbacks.length > maxRouteTargets
  · simp only [ModelRoutePolicyConfig.validate, validatePolicyShape, if_pos hlen] at h
    cases h
  · rw [ModelRoutePolicyConfig.targets, List.length_cons]
    omega

/-! ## The catalog -/

/-- The loop of `index_catalog`: every entry is validated, and no id repeats. -/
def indexCatalog (seen : List String) : List ModelRef → Result Unit
  | [] => .ok ()
  | model :: rest => do
    validateBoundedIdentity model.id maxModelIdBytes "invalid_catalog_model_id"
    match model.provider with
    | some provider =>
      validateBoundedIdentity provider maxProviderBytes "invalid_catalog_provider"
    | none => pure ()
    if model.id ∈ seen then throw (routingError "ambiguous_catalog_model_id")
    indexCatalog (model.id :: seen) rest

/-- `catalog_by_id.get(id)`, on a catalog that `indexCatalog` accepted. -/
def catalogGet (catalog : List ModelRef) (id : String) : Option ModelRef :=
  catalog.find? (fun model => model.id == id)

/-- One configured target against the catalog: it must exist exactly, and a configured provider
    must be the catalog's. -/
def resolveTarget (catalog : List ModelRef) (target : ModelRouteTargetConfig) :
    Result ModelRef :=
  match catalogGet catalog target.modelId with
  | none => .error (routingError "configured_route_model_unavailable")
  | some model =>
    match target.provider with
    | none => .ok model
    | some expected =>
      if model.provider = some expected then .ok model
      else .error (routingError "configured_route_provider_mismatch")

/-- The loop of `ResolvedModelRoutePolicy::resolve` over the targets. -/
def resolveRoutes (catalog : List ModelRef) (seen : List String) :
    List ModelRouteTargetConfig → Result (List ModelRef)
  | [] => .ok []
  | target :: rest => do
    validateTarget target
    if target.modelId ∈ seen then throw (routingError "duplicate_route_model_id")
    let model ← resolveTarget catalog target
    let routes ← resolveRoutes catalog (target.modelId :: seen) rest
    pure (model :: routes)

theorem resolveTarget_id {catalog : List ModelRef} {target : ModelRouteTargetConfig}
    {model : ModelRef} (h : resolveTarget catalog target = .ok model) :
    model.id = target.modelId := by
  rw [resolveTarget] at h
  cases hget : catalogGet catalog target.modelId with
  | none => rw [hget] at h; cases h
  | some found =>
    have hid : found.id = target.modelId := by
      have := List.find?_some hget
      exact eq_of_beq this
    rw [hget] at h
    cases hp : target.provider with
    | none => rw [hp] at h; cases h; exact hid
    | some expected =>
      rw [hp] at h
      dsimp only at h
      split at h
      · cases h; exact hid
      · cases h

/-- What a successful step of the loop went through. -/
theorem resolveRoutes_cons {catalog : List ModelRef} {seen : List String}
    {target : ModelRouteTargetConfig} {rest : List ModelRouteTargetConfig}
    {routes : List ModelRef}
    (h : resolveRoutes catalog seen (target :: rest) = .ok routes) :
    target.modelId ∉ seen ∧ ∃ model tail, resolveTarget catalog target = .ok model ∧
      resolveRoutes catalog (target.modelId :: seen) rest = .ok tail ∧ routes = model :: tail := by
  rw [resolveRoutes] at h
  cases hv : validateTarget target with
  | error e => rw [hv] at h; cases h
  | ok u =>
    rw [hv] at h
    by_cases hs : target.modelId ∈ seen
    · simp only [if_pos hs] at h
      cases h
    · simp only [if_neg hs] at h
      refine ⟨hs, ?_⟩
      cases hm : resolveTarget catalog target with
      | error e => rw [hm] at h; cases h
      | ok model =>
        cases ht : resolveRoutes catalog (target.modelId :: seen) rest with
        | error e => rw [hm, ht] at h; cases h
        | ok tail =>
          rw [hm, ht] at h
          cases h
          exact ⟨model, tail, rfl, rfl, rfl⟩

/-- The resolved routes carry the configured ids, in order; none was seen before and none
    repeats. -/
theorem resolveRoutes_ids {catalog : List ModelRef} {targets : List ModelRouteTargetConfig} :
    ∀ {seen : List String} {routes : List ModelRef},
      resolveRoutes catalog seen targets = .ok routes →
        routes.map ModelRef.id = targets.map ModelRouteTargetConfig.modelId ∧
        (routes.map ModelRef.id).Nodup ∧ ∀ id ∈ routes.map ModelRef.id, id ∉ seen := by
  induction targets with
  | nil =>
    intro seen routes h
    cases h
    exact ⟨rfl, List.nodup_nil, fun _ hid => absurd hid List.not_mem_nil⟩
  | cons target rest ih =>
    intro seen routes h
    obtain ⟨hseen, model, tail, hm, ht, rfl⟩ := resolveRoutes_cons h
    obtain ⟨hmap, hnodup, hnew⟩ := ih ht
    have hid : model.id = target.modelId := resolveTarget_id hm
    refine ⟨by rw [List.map_cons, List.map_cons, hmap, hid], ?_, ?_⟩
    · rw [List.map_cons, List.nodup_cons]
      refine ⟨fun hin => hnew _ hin ?_, hnodup⟩
      rw [hid]
      exact List.mem_cons_self
    · intro id hin
      rw [List.map_cons, List.mem_cons] at hin
      rcases hin with rfl | hin
      · rw [hid]; exact hseen
      · exact fun hs => hnew id hin (List.mem_cons_of_mem _ hs)

/-! ## The resolved policy -/

/-- `ResolvedModelRoutePolicy`, with what `resolve` guarantees about its private route list. -/
structure ResolvedModelRoutePolicy where
  routes : List ModelRef
  fallbackOn : List FallbackTrigger
  fallbackBoundary : FallbackBoundary
  nonempty : routes ≠ []
  bounded : routes.length ≤ maxRouteTargets
  distinct : (routes.map ModelRef.id).Nodup

namespace ResolvedModelRoutePolicy

/-- `ResolvedModelRoutePolicy::resolve`. -/
def resolve (config : ModelRoutePolicyConfig) (catalog : List ModelRef) :
    Result ResolvedModelRoutePolicy :=
  match hv : config.validate with
  | .error e => .error e
  | .ok () =>
    match indexCatalog [] catalog with
    | .error e => .error e
    | .ok () =>
      match hr : resolveRoutes catalog [] config.targets with
      | .error e => .error e
      | .ok routes =>
        .ok {
          routes := routes
          fallbackOn := config.fallbackOn
          fallbackBoundary := config.fallbackBoundary
          nonempty := by
            intro hnil
            have hmap := (resolveRoutes_ids hr).1
            rw [hnil, ModelRoutePolicyConfig.targets, List.map_cons] at hmap
            cases hmap
          bounded := by
            have hlen := congrArg List.length (resolveRoutes_ids hr).1
            rw [List.length_map, List.length_map] at hlen
            rw [hlen]
            exact validate_bounds_targets hv
          distinct := (resolveRoutes_ids hr).2.1 }

/-- A resolved policy has one route for each configured target. -/
theorem resolve_length {config : ModelRoutePolicyConfig} {catalog : List ModelRef}
    {policy : ResolvedModelRoutePolicy} (h : resolve config catalog = .ok policy) :
    policy.routes.length = config.targets.length := by
  rw [resolve] at h
  split at h
  · cases h
  · split at h
    · cases h
    · split at h
      · cases h
      · rename_i routes hroutes
        cases h
        have hids := congrArg List.length (resolveRoutes_ids hroutes).1
        rwa [List.length_map, List.length_map] at hids

/-- `primary`: the first route. -/
def primary (policy : ResolvedModelRoutePolicy) : ModelRef :=
  policy.routes.head policy.nonempty

theorem getElem?_zero (policy : ResolvedModelRoutePolicy) :
    policy.routes[0]? = some policy.primary := by
  rw [primary, ← List.head?_eq_getElem?, List.head?_eq_some_head policy.nonempty]

end ResolvedModelRoutePolicy

/-! ## Failed attempts -/

/-- `RouteFailureClass`. -/
inductive RouteFailureClass where
  | rateLimited
  | timeout
  | providerUnavailable
  | gatewayUnavailable
  | modelUnavailable
  | authentication
  | accessDenied
  | invalidRequest
  | cancelled
  | protocolError
  | unknown
  deriving DecidableEq, Repr

/-- `safe_fallback_trigger`. -/
def safeFallbackTrigger : RouteFailureClass → Option FallbackTrigger
  | .rateLimited => some .rateLimited
  | .timeout => some .timeout
  | .providerUnavailable => some .providerUnavailable
  | .modelUnavailable => some .modelUnavailable
  | .gatewayUnavailable | .authentication | .accessDenied | .invalidRequest | .cancelled
  | .protocolError | .unknown => none

/-- `RouteAttemptState`: outside this module only `startAttempt` and `decisionAfterFailure`
    issue one. -/
structure RouteAttemptState where
  routeIndex : Nat
  responseStarted : Bool
  toolActivityStarted : Bool
  deriving DecidableEq, Repr

namespace RouteAttemptState

/-- `RouteAttemptState::pristine`. -/
def pristine (routeIndex : Nat) : RouteAttemptState :=
  { routeIndex := routeIndex, responseStarted := false, toolActivityStarted := false }

/-- `observable_progress_started`. -/
def observableProgressStarted (s : RouteAttemptState) : Bool :=
  s.responseStarted || s.toolActivityStarted

/-- `mark_response_started`. -/
def markResponseStarted (s : RouteAttemptState) : RouteAttemptState :=
  { s with responseStarted := true }

/-- `mark_tool_activity_started`. -/
def markToolActivityStarted (s : RouteAttemptState) : RouteAttemptState :=
  { s with toolActivityStarted := true }

end RouteAttemptState

/-- `RouteStopReason`. -/
inductive RouteStopReason where
  | observableProgressAlreadyStarted
  | failureNotSafeForFallback
  | failureNotEnabledForFallback
  | fallbacksExhausted
  deriving DecidableEq, Repr

/-- `RouteDecision`. -/
inductive RouteDecision where
  | fallback (nextAttempt : RouteAttemptState) (model : ModelRef)
  | stop (reason : RouteStopReason)
  deriving DecidableEq, Repr

namespace ResolvedModelRoutePolicy

/-- `start_attempt`: automatic routing starts at the primary. -/
def startAttempt (_policy : ResolvedModelRoutePolicy) : RouteAttemptState := .pristine 0

/-- `decision_after_failure`. -/
def decisionAfterFailure (policy : ResolvedModelRoutePolicy) (state : RouteAttemptState)
    (failure : RouteFailureClass) : Result RouteDecision :=
  if state.routeIndex ≥ policy.routes.length then
    .error (routingError "route_attempt_index_out_of_bounds")
  else if state.observableProgressStarted then
    .ok (.stop .observableProgressAlreadyStarted)
  else
    match safeFallbackTrigger failure with
    | none => .ok (.stop .failureNotSafeForFallback)
    | some trigger =>
      if trigger ∉ policy.fallbackOn then .ok (.stop .failureNotEnabledForFallback)
      else
        match policy.routes[state.routeIndex + 1]? with
        | none => .ok (.stop .fallbacksExhausted)
        | some model => .ok (.fallback (.pristine (state.routeIndex + 1)) model)

/-- Everything a decision can be, for an attempt on a real route: a stop, or a fallback to the
    very next route with a pristine attempt — and then nothing was observed and the failure class
    has a trigger. -/
theorem decisionAfterFailure_cases (policy : ResolvedModelRoutePolicy)
    (state : RouteAttemptState) (failure : RouteFailureClass)
    (hidx : state.routeIndex < policy.routes.length) :
    (∃ reason, policy.decisionAfterFailure state failure = .ok (.stop reason)) ∨
    (∃ model, policy.decisionAfterFailure state failure =
        .ok (.fallback (.pristine (state.routeIndex + 1)) model) ∧
      policy.routes[state.routeIndex + 1]? = some model ∧
      state.observableProgressStarted = false ∧ (safeFallbackTrigger failure).isSome) := by
  rw [decisionAfterFailure, if_neg (Nat.not_le.mpr hidx)]
  cases hprog : state.observableProgressStarted with
  | true => exact Or.inl ⟨_, rfl⟩
  | false =>
    cases htr : safeFallbackTrigger failure with
    | none => exact Or.inl ⟨_, rfl⟩
    | some trigger =>
      by_cases hen : trigger ∈ policy.fallbackOn
      · cases hnext : policy.routes[state.routeIndex + 1]? with
        | none => exact Or.inl ⟨.fallbacksExhausted, by simp [hen]⟩
        | some model => exact Or.inr ⟨model, by simp [hen], rfl, rfl, rfl⟩
      · exact Or.inl ⟨.failureNotEnabledForFallback, by simp [hen]⟩

end ResolvedModelRoutePolicy

end VibeCoder
