/-
  What route resolution accepts, and what it answers.

  `ResolvedModelRoutePolicy::resolve` makes three passes: `validate` over the configuration,
  `index_catalog` over the catalog, and a loop that looks every target up.  Each pass is a chain of
  early returns.  Here each one is met by a description of what it lets through:

  1. **Identities** — `BoundedIdentity`: not empty, within the bound, no blanks at the ends, no
     control character.
  2. **Configuration** — `ModelRoutePolicyConfig.Valid`.  The two loops that look for repetitions
     carry the set of what they have seen; `validateTriggers_iff` and `validateTargets_iff` are
     stated for an arbitrary such set, and the set is empty at the beginning.
  3. **Catalog** — `ValidCatalog`, by the same kind of induction.
  4. **Lookup** — `Serves`: the catalog entry with the target's id, and with its provider if the
     target names one.  In a catalog without repeated ids `find?` finds that entry and no other.

  `resolve_iff` puts the passes together.
-/
import VibeCoder.Routing

namespace VibeCoder

/-! ## Sequencing -/

theorem Result.bind_eq_ok {α β : Type} {x : Result α} {f : α → Result β} {b : β} :
    (x >>= f) = .ok b ↔ ∃ a, x = .ok a ∧ f a = .ok b := by
  cases x with
  | error e =>
    constructor
    · intro h
      cases h
    · rintro ⟨a, ha, -⟩
      cases ha
  | ok a =>
    constructor
    · intro h
      exact ⟨a, rfl, h⟩
    · rintro ⟨_, ⟨⟩, h⟩
      exact h

/-- A check followed by the rest. -/
theorem Result.check_eq_ok {β : Type} {x : Result Unit} {f : Unit → Result β} {b : β} :
    (x >>= f) = .ok b ↔ x = .ok () ∧ f () = .ok b := by
  rw [Result.bind_eq_ok]
  constructor
  · rintro ⟨⟨⟩, hx, hf⟩
    exact ⟨hx, hf⟩
  · rintro ⟨hx, hf⟩
    exact ⟨(), hx, hf⟩

/-- A guard followed by the rest, as `do` notation spells it. -/
theorem Result.guard_eq_ok {β : Type} {c : Prop} [Decidable c] {e : VibeCoderError}
    {f : Unit → Result β} {rest : Result β} {b : β} :
    (if c then throw e >>= f else rest) = .ok b ↔ ¬ c ∧ rest = .ok b := by
  by_cases hc : c
  · rw [if_pos hc]
    constructor
    · intro h
      cases h
    · rintro ⟨hnot, -⟩
      exact absurd hc hnot
  · rw [if_neg hc]
    constructor
    · intro h
      exact ⟨hc, h⟩
    · rintro ⟨-, h⟩
      exact h

/-! ## Identities -/

/-- What `validate_bounded_identity` lets through. -/
structure BoundedIdentity (maxBytes : Nat) (value : String) : Prop where
  nonempty : value ≠ ""
  bounded : len value ≤ maxBytes
  trimmed : trimmed value = true
  printable : hasControl value = false

theorem validateBoundedIdentity_iff {value : String} {maxBytes : Nat} {code : String} :
    validateBoundedIdentity value maxBytes code = .ok () ↔ BoundedIdentity maxBytes value := by
  rw [validateBoundedIdentity]
  split
  · rename_i hbad
    constructor
    · intro h
      cases h
    · rintro ⟨hne, hlen, htrim, hcontrol⟩
      have hlen' : ¬ len value > maxBytes := by omega
      simp [hne, hlen', htrim, hcontrol] at hbad
  · rename_i hgood
    simp only [Bool.or_eq_true, not_or, Bool.not_eq_true, decide_eq_false_iff_not,
      Bool.not_eq_false', String.isEmpty_eq_false_iff] at hgood
    obtain ⟨⟨⟨hne, hlen⟩, htrim⟩, hcontrol⟩ := hgood
    constructor
    · intro _
      exact ⟨hne, by omega, htrim, hcontrol⟩
    · intro _
      rfl

/-! ## Configuration -/

/-- A target whose identities are bounded. -/
structure ModelRouteTargetConfig.Valid (target : ModelRouteTargetConfig) : Prop where
  modelId : BoundedIdentity maxModelIdBytes target.modelId
  provider : ∀ provider ∈ target.provider, BoundedIdentity maxProviderBytes provider

theorem validateTarget_iff {target : ModelRouteTargetConfig} :
    validateTarget target = .ok () ↔ target.Valid := by
  rw [validateTarget, Result.check_eq_ok, validateBoundedIdentity_iff]
  cases hp : target.provider with
  | none =>
    constructor
    · rintro ⟨hid, -⟩
      refine ⟨hid, fun provider hmem => ?_⟩
      rw [hp] at hmem
      cases hmem
    · intro hvalid
      exact ⟨hvalid.modelId, rfl⟩
  | some provider =>
    dsimp only
    rw [validateBoundedIdentity_iff]
    constructor
    · rintro ⟨hid, hprovider⟩
      refine ⟨hid, fun other hmem => ?_⟩
      rw [hp] at hmem
      cases hmem
      exact hprovider
    · intro hvalid
      exact ⟨hvalid.modelId, hvalid.provider provider hp⟩

/-- The loop accepts distinct triggers, none of which it has seen. -/
theorem validateTriggers_iff {triggers : List FallbackTrigger} :
    ∀ {seen : List FallbackTrigger}, validateTriggers seen triggers = .ok () ↔
      triggers.Nodup ∧ ∀ trigger ∈ triggers, trigger ∉ seen := by
  induction triggers with
  | nil =>
    intro seen
    simp [validateTriggers]
  | cons trigger rest ih =>
    intro seen
    rw [validateTriggers]
    split
    · rename_i hseen
      constructor
      · intro h
        cases h
      · rintro ⟨-, hnew⟩
        exact absurd hseen (hnew trigger List.mem_cons_self)
    · rename_i hseen
      rw [ih]
      simp only [List.nodup_cons, List.mem_cons, not_or, forall_eq_or_imp]
      constructor
      · rintro ⟨hnodup, hnew⟩
        exact ⟨⟨fun hin => (hnew trigger hin).1 rfl, hnodup⟩, hseen,
          fun other hin => (hnew other hin).2⟩
      · rintro ⟨⟨hnotin, hnodup⟩, -, hnew⟩
        refine ⟨hnodup, fun other hin => ⟨?_, hnew other hin⟩⟩
        rintro rfl
        exact hnotin hin

theorem validatePolicyShape_iff {config : ModelRoutePolicyConfig} :
    validatePolicyShape config = .ok () ↔ config.targets.length ≤ maxRouteTargets ∧
      config.fallbackOn.Nodup ∧ (config.fallbacks ≠ [] → config.fallbackOn ≠ []) := by
  have hlength : config.targets.length = 1 + config.fallbacks.length := by
    rw [ModelRoutePolicyConfig.targets, List.length_cons]
    omega
  rw [validatePolicyShape]
  dsimp only
  rw [Result.guard_eq_ok, Result.check_eq_ok, validateTriggers_iff, hlength]
  have hpresent : (if (!config.fallbacks.isEmpty && config.fallbackOn.isEmpty) = true then
        throw (routingError "fallback_routes_without_triggers") else pure () : Result Unit) =
        .ok () ↔ (config.fallbacks ≠ [] → config.fallbackOn ≠ []) := by
    cases config.fallbacks with
    | nil => simp [pure, Except.pure]
    | cons target rest =>
      cases config.fallbackOn with
      | nil => simp [throw, throwThe, MonadExceptOf.throw]
      | cons trigger triggers => simp [pure, Except.pure]
  constructor
  · rintro ⟨hshort, ⟨hnodup, -⟩, hrest⟩
    exact ⟨by omega, hnodup, hpresent.mp hrest⟩
  · rintro ⟨hshort, hnodup, hrest⟩
    exact ⟨by omega, ⟨hnodup, fun _ _ => List.not_mem_nil⟩, hpresent.mpr hrest⟩

/-- The loop accepts valid targets with distinct ids, none of which it has seen. -/
theorem validateTargets_iff {targets : List ModelRouteTargetConfig} :
    ∀ {seen : List String}, validateTargets seen targets = .ok () ↔
      (∀ target ∈ targets, target.Valid) ∧
      (targets.map ModelRouteTargetConfig.modelId).Nodup ∧
      ∀ target ∈ targets, target.modelId ∉ seen := by
  induction targets with
  | nil =>
    intro seen
    simp [validateTargets]
  | cons target rest ih =>
    intro seen
    rw [validateTargets, Result.check_eq_ok, validateTarget_iff]
    dsimp only
    rw [Result.guard_eq_ok, ih]
    simp only [List.map_cons, List.nodup_cons, List.mem_cons, not_or, forall_eq_or_imp,
      List.mem_map, not_exists, not_and]
    constructor
    · rintro ⟨hvalid, hseen, hrest, hnodup, hnew⟩
      exact ⟨⟨hvalid, hrest⟩, ⟨fun other hin => (hnew other hin).1, hnodup⟩, hseen,
        fun other hin => (hnew other hin).2⟩
    · rintro ⟨⟨hvalid, hrest⟩, ⟨hdistinct, hnodup⟩, hseen, hnew⟩
      exact ⟨hvalid, hseen, hrest, hnodup,
        fun other hin => ⟨hdistinct other hin, hnew other hin⟩⟩

/-- **A valid configuration**: bounded identities, at most `maxRouteTargets` targets with distinct
    ids, distinct triggers, and some trigger when there is something to fall back to. -/
structure ModelRoutePolicyConfig.Valid (config : ModelRoutePolicyConfig) : Prop where
  identities : ∀ target ∈ config.targets, target.Valid
  bounded : config.targets.length ≤ maxRouteTargets
  distinct : (config.targets.map ModelRouteTargetConfig.modelId).Nodup
  triggersDistinct : config.fallbackOn.Nodup
  triggersPresent : config.fallbacks ≠ [] → config.fallbackOn ≠ []

theorem validate_iff {config : ModelRoutePolicyConfig} :
    config.validate = .ok () ↔ config.Valid := by
  rw [ModelRoutePolicyConfig.validate, Result.check_eq_ok, validatePolicyShape_iff,
    validateTargets_iff]
  constructor
  · rintro ⟨⟨hshort, htriggers, hpresent⟩, hvalid, hdistinct, -⟩
    exact ⟨hvalid, hshort, hdistinct, htriggers, hpresent⟩
  · rintro ⟨hvalid, hshort, hdistinct, htriggers, hpresent⟩
    exact ⟨⟨hshort, htriggers, hpresent⟩, hvalid, hdistinct, fun _ _ => List.not_mem_nil⟩

/-! ## Catalog -/

/-- A catalog entry whose identities are bounded. -/
structure ModelRef.Valid (model : ModelRef) : Prop where
  id : BoundedIdentity maxModelIdBytes model.id
  provider : ∀ provider ∈ model.provider, BoundedIdentity maxProviderBytes provider

/-- A catalog of valid entries with distinct ids. -/
structure ValidCatalog (catalog : List ModelRef) : Prop where
  entries : ∀ model ∈ catalog, model.Valid
  distinct : (catalog.map ModelRef.id).Nodup

/-- The loop accepts valid entries with distinct ids, none of which it has seen. -/
theorem indexCatalog_seen_iff {catalog : List ModelRef} :
    ∀ {seen : List String}, indexCatalog seen catalog = .ok () ↔
      (∀ model ∈ catalog, model.Valid) ∧ (catalog.map ModelRef.id).Nodup ∧
      ∀ model ∈ catalog, model.id ∉ seen := by
  induction catalog with
  | nil =>
    intro seen
    simp [indexCatalog]
  | cons model rest ih =>
    intro seen
    have hstep : indexCatalog seen (model :: rest) = .ok () ↔
        model.Valid ∧ model.id ∉ seen ∧ indexCatalog (model.id :: seen) rest = .ok () := by
      rw [indexCatalog, Result.check_eq_ok, validateBoundedIdentity_iff]
      dsimp only
      cases hp : model.provider with
      | none =>
        dsimp only
        rw [Result.guard_eq_ok]
        constructor
        · rintro ⟨hid, hseen, hrest⟩
          refine ⟨⟨hid, fun provider hmem => ?_⟩, hseen, hrest⟩
          rw [hp] at hmem
          cases hmem
        · rintro ⟨hvalid, hseen, hrest⟩
          exact ⟨hvalid.id, hseen, hrest⟩
      | some provider =>
        dsimp only
        rw [Result.check_eq_ok, validateBoundedIdentity_iff, Result.guard_eq_ok]
        constructor
        · rintro ⟨hid, hprovider, hseen, hrest⟩
          refine ⟨⟨hid, fun other hmem => ?_⟩, hseen, hrest⟩
          rw [hp] at hmem
          cases hmem
          exact hprovider
        · rintro ⟨hvalid, hseen, hrest⟩
          exact ⟨hvalid.id, hvalid.provider provider hp, hseen, hrest⟩
    rw [hstep, ih]
    simp only [List.map_cons, List.nodup_cons, List.mem_cons, not_or, forall_eq_or_imp,
      List.mem_map, not_exists, not_and]
    constructor
    · rintro ⟨hvalid, hseen, hrest, hnodup, hnew⟩
      exact ⟨⟨hvalid, hrest⟩, ⟨fun other hin => (hnew other hin).1, hnodup⟩, hseen,
        fun other hin => (hnew other hin).2⟩
    · rintro ⟨⟨hvalid, hrest⟩, ⟨hdistinct, hnodup⟩, hseen, hnew⟩
      exact ⟨hvalid, hseen, hrest, hnodup,
        fun other hin => ⟨hdistinct other hin, hnew other hin⟩⟩

theorem indexCatalog_iff {catalog : List ModelRef} :
    indexCatalog [] catalog = .ok () ↔ ValidCatalog catalog := by
  rw [indexCatalog_seen_iff]
  constructor
  · rintro ⟨hentries, hdistinct, -⟩
    exact ⟨hentries, hdistinct⟩
  · rintro ⟨hentries, hdistinct⟩
    exact ⟨hentries, hdistinct, fun _ _ => List.not_mem_nil⟩

/-! ## Lookup -/

/-- **The entry of a target**: it stands in the catalog under the target's id, with the target's
    provider if the target names one. -/
structure Serves (catalog : List ModelRef) (target : ModelRouteTargetConfig) (model : ModelRef) :
    Prop where
  listed : model ∈ catalog
  sameId : model.id = target.modelId
  sameProvider : ∀ provider ∈ target.provider, model.provider = some provider

/-- Where ids do not repeat, the first entry with an id is the entry with that id. -/
theorem catalogGet_eq_some {catalog : List ModelRef}
    (hdistinct : (catalog.map ModelRef.id).Nodup) {id : String} {model : ModelRef} :
    catalogGet catalog id = some model ↔ model ∈ catalog ∧ model.id = id := by
  rw [catalogGet]
  constructor
  · intro h
    have hid := List.find?_some h
    exact ⟨List.mem_of_find?_eq_some h, eq_of_beq hid⟩
  · rintro ⟨hmem, hid⟩
    cases hfound : catalog.find? (fun entry => entry.id == id) with
    | none =>
      rw [List.find?_eq_none] at hfound
      exact absurd (beq_iff_eq.mpr hid) (hfound model hmem)
    | some found =>
      have hsame : found.id = model.id := by
        have hfoundId := List.find?_some hfound
        rw [hid]
        exact eq_of_beq hfoundId
      rw [List.inj_on_of_nodup_map hdistinct (List.mem_of_find?_eq_some hfound) hmem hsame]

theorem resolveTarget_iff {catalog : List ModelRef}
    (hdistinct : (catalog.map ModelRef.id).Nodup) {target : ModelRouteTargetConfig}
    {model : ModelRef} :
    resolveTarget catalog target = .ok model ↔ Serves catalog target model := by
  rw [resolveTarget]
  cases hget : catalogGet catalog target.modelId with
  | none =>
    constructor
    · intro h
      cases h
    · rintro ⟨hmem, hid, -⟩
      rw [(catalogGet_eq_some hdistinct).mpr ⟨hmem, hid⟩] at hget
      cases hget
  | some found =>
    -- whatever serves the target is the entry that was found
    have hfound := (catalogGet_eq_some hdistinct).mp hget
    have honly : ∀ {other : ModelRef}, Serves catalog target other → other = found := by
      rintro other ⟨hmem, hid, -⟩
      have hother := (catalogGet_eq_some hdistinct).mpr ⟨hmem, hid⟩
      rw [hget] at hother
      exact (Option.some.inj hother).symm
    cases hp : target.provider with
    | none =>
      constructor
      · rintro ⟨⟩
        refine ⟨hfound.1, hfound.2, fun provider hmem => ?_⟩
        rw [hp] at hmem
        cases hmem
      · intro hserves
        rw [honly hserves]
    | some expected =>
      dsimp only
      split
      · rename_i hsame
        constructor
        · rintro ⟨⟩
          refine ⟨hfound.1, hfound.2, fun provider hmem => ?_⟩
          rw [hp] at hmem
          cases hmem
          exact hsame
        · intro hserves
          rw [honly hserves]
      · rename_i hdiffer
        constructor
        · intro h
          cases h
        · intro hserves
          refine absurd (hserves.sameProvider expected hp) ?_
          rw [honly hserves]
          exact hdiffer

/-- The loop answers the entries of the targets, in order. -/
theorem resolveRoutes_iff {catalog : List ModelRef}
    (hdistinct : (catalog.map ModelRef.id).Nodup) {targets : List ModelRouteTargetConfig} :
    ∀ {seen : List String} {routes : List ModelRef},
      resolveRoutes catalog seen targets = .ok routes ↔
        validateTargets seen targets = .ok () ∧
        List.Forall₂ (Serves catalog) targets routes := by
  induction targets with
  | nil =>
    intro seen routes
    rw [resolveRoutes, validateTargets, List.forall₂_nil_left_iff]
    constructor
    · rintro ⟨⟩
      exact ⟨rfl, rfl⟩
    · rintro ⟨-, rfl⟩
      rfl
  | cons target rest ih =>
    intro seen routes
    rw [resolveRoutes, validateTargets, Result.check_eq_ok, Result.check_eq_ok]
    dsimp only
    rw [Result.guard_eq_ok, Result.guard_eq_ok]
    simp only [Result.bind_eq_ok, resolveTarget_iff hdistinct, ih, List.forall₂_cons_left_iff]
    constructor
    · rintro ⟨hvalid, hseen, model, hserves, tail, ⟨hrest, htail⟩, ⟨⟩⟩
      exact ⟨⟨hvalid, hseen, hrest⟩, model, tail, hserves, htail, rfl⟩
    · rintro ⟨⟨hvalid, hseen, hrest⟩, model, tail, hserves, htail, rfl⟩
      exact ⟨hvalid, hseen, model, hserves, tail, ⟨hrest, htail⟩, rfl⟩

/-- Every target is served when some list of entries serves them one by one. -/
theorem exists_forall₂ {α β : Type*} {R : α → β → Prop} {as : List α} :
    (∃ bs, List.Forall₂ R as bs) ↔ ∀ a ∈ as, ∃ b, R a b := by
  induction as with
  | nil => exact ⟨fun _ _ hmem => absurd hmem List.not_mem_nil, fun _ => ⟨[], .nil⟩⟩
  | cons a as ih =>
    rw [List.forall_mem_cons, ← ih]
    constructor
    · rintro ⟨_, hab | ⟨hab, hrest⟩⟩
      exact ⟨⟨_, hab⟩, _, hrest⟩
    · rintro ⟨⟨b, hab⟩, bs, hrest⟩
      exact ⟨b :: bs, .cons hab hrest⟩

/-! ## Resolution -/

namespace ResolvedModelRoutePolicy

/-- What a resolution that succeeds went through. -/
theorem resolve_eq_ok {config : ModelRoutePolicyConfig} {catalog : List ModelRef}
    {policy : ResolvedModelRoutePolicy} (h : resolve config catalog = .ok policy) :
    config.Valid ∧ ValidCatalog catalog ∧
      List.Forall₂ (Serves catalog) config.targets policy.routes ∧
      policy.fallbackOn = config.fallbackOn ∧
      policy.fallbackBoundary = config.fallbackBoundary := by
  rw [resolve] at h
  split at h
  · cases h
  · rename_i hvalid
    split at h
    · cases h
    · rename_i hindex
      have hcatalog : ValidCatalog catalog := indexCatalog_iff.mp hindex
      split at h
      · cases h
      · rename_i routes hroutes
        cases h
        have hserved := (resolveRoutes_iff hcatalog.distinct).mp hroutes
        exact ⟨validate_iff.mp hvalid, hcatalog, hserved.2, rfl, rfl⟩

/-- The loop has an answer wherever the resolution gets to it and every target is served. -/
theorem resolve_of_served {config : ModelRoutePolicyConfig} {catalog : List ModelRef}
    (hvalid : config.Valid) (hcatalog : ValidCatalog catalog) {routes : List ModelRef}
    (hserved : List.Forall₂ (Serves catalog) config.targets routes) :
    ∃ policy, resolve config catalog = .ok policy := by
  have hconfig : config.validate = .ok () := validate_iff.mpr hvalid
  have hindex : indexCatalog [] catalog = .ok () := indexCatalog_iff.mpr hcatalog
  have htargets : validateTargets [] config.targets = .ok () :=
    validateTargets_iff.mpr ⟨hvalid.identities, hvalid.distinct, fun _ _ => List.not_mem_nil⟩
  have hroutes : resolveRoutes catalog [] config.targets = .ok routes :=
    (resolveRoutes_iff hcatalog.distinct).mpr ⟨htargets, hserved⟩
  rw [resolve]
  split
  · rename_i e he
    rw [hconfig] at he
    cases he
  · split
    · rename_i e he
      rw [hindex] at he
      cases he
    · split
      · rename_i e he
        rw [hroutes] at he
        cases he
      · exact ⟨_, rfl⟩

/-- **Route resolution.**  It succeeds exactly on a valid configuration and a valid catalog in
    which every configured target is present, with its provider where it names one; the routes are
    then the entries of the targets in configuration order. -/
theorem resolve_iff (config : ModelRoutePolicyConfig) (catalog : List ModelRef) :
    ((∃ policy, resolve config catalog = .ok policy) ↔
      config.Valid ∧ ValidCatalog catalog ∧
        ∀ target ∈ config.targets, ∃ model, Serves catalog target model) ∧
    ∀ policy, resolve config catalog = .ok policy →
      List.Forall₂ (Serves catalog) config.targets policy.routes ∧
      policy.fallbackOn = config.fallbackOn ∧
      policy.fallbackBoundary = config.fallbackBoundary := by
  refine ⟨⟨?_, ?_⟩, fun policy h => (resolve_eq_ok h).2.2⟩
  · rintro ⟨policy, h⟩
    obtain ⟨hvalid, hcatalog, hserved, -, -⟩ := resolve_eq_ok h
    exact ⟨hvalid, hcatalog, exists_forall₂.mp ⟨_, hserved⟩⟩
  · rintro ⟨hvalid, hcatalog, hpresent⟩
    obtain ⟨routes, hserved⟩ := exists_forall₂.mpr hpresent
    exact resolve_of_served hvalid hcatalog hserved

end ResolvedModelRoutePolicy

end VibeCoder
