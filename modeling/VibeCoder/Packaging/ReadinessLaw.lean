/-
  When a capability of the runtime is ready.

  1. **Specification** — a probe of a component has passed iff some record of the evidence says so
     (`Passed`); a component is complete iff it is pinned and every probe it requires has passed
     (`Complete`).  Evidence is accepted iff it has no two records for a component, and only records
     for components of the inventory (`Accepted`).

  2. **One component (`checkComponent_eq`)** — what is missing is added to the blockers, and the
     component is ready iff nothing is.

  3. **The loop (`evaluateComponents_spec`)** — by induction on the components, from any state.

  4. **The report (`evaluateReadiness_law`)** — and none for evidence that is not accepted, which is
     where the reading of every set of evidence as a set of facts ends
     (`evaluateReadiness_not_total`).
-/
import VibeCoder.Packaging.Readiness

namespace VibeCoder.Packaging

/-! ## Specification -/

/-- The probes, in the order the loop asks for them. -/
inductive Probe where
  | packagePresence
  | arm64Identity
  | execution
  | version
  | unixSocket
  | service
  | runtimeBinding
  | pageSize16k
  deriving DecidableEq, Repr

def Probe.all : List Probe :=
  [.packagePresence, .arm64Identity, .execution, .version, .unixSocket, .service, .runtimeBinding,
    .pageSize16k]

theorem Probe.mem_all (probe : Probe) : probe ∈ Probe.all := by
  cases probe <;> decide

/-- What a record says about a probe. -/
def RuntimeComponentEvidence.state (proof : RuntimeComponentEvidence) : Probe → ProbeState
  | .packagePresence => proof.packagePresence
  | .arm64Identity => proof.arm64Identity
  | .execution => proof.execution
  | .version => proof.version
  | .unixSocket => proof.unixSocketRoundTrip
  | .service => proof.serviceRoundTrip
  | .runtimeBinding => proof.runtimeBinding
  | .pageSize16k => proof.pageSize16kCompatibility

/-- The probes a component requires: that it is there, and what its kind and its flags ask for. -/
def RuntimeComponentSpec.requires (component : RuntimeComponentSpec) : Probe → Bool
  | .packagePresence => true
  | .arm64Identity => component.artifactKind.isNative
  | .execution => component.requiresExecProbe
  | .version => component.requiresVersionProbe
  | .unixSocket => component.requiresUnixSocketProbe
  | .service => component.requiresServiceProbe
  | .runtimeBinding => component.requiresRuntimeBindingProbe
  | .pageSize16k => component.requires16kPageCompatibility

/-- The code of the blocker. -/
def Probe.code : Probe → String
  | .packagePresence => "runtime_package_presence_unproven"
  | .arm64Identity => "runtime_arm64_identity_unproven"
  | .execution => "runtime_execution_unproven"
  | .version => "runtime_version_unproven"
  | .unixSocket => "runtime_unix_socket_unproven"
  | .service => "runtime_service_round_trip_unproven"
  | .runtimeBinding => "runtime_binding_unproven"
  | .pageSize16k => "runtime_16k_page_compatibility_unproven"

/-- The evidence records that the probe has passed. -/
def Passed (evidence : List RuntimeComponentEvidence) (componentId : String) (probe : Probe) :
    Prop :=
  ∃ proof ∈ evidence, proof.componentId = componentId ∧ proof.state probe = .passed

instance (evidence : List RuntimeComponentEvidence) (componentId : String) (probe : Probe) :
    Decidable (Passed evidence componentId probe) :=
  inferInstanceAs (Decidable (∃ proof ∈ evidence, _))

/-- The component is pinned, and each of its required probes has passed. -/
def Complete (evidence : List RuntimeComponentEvidence) (component : RuntimeComponentSpec) : Prop :=
  component.versionRequirementPinned = true ∧
    ∀ probe, component.requires probe = true → Passed evidence component.componentId probe

/-- The missing pin and the required probes that have not passed. -/
def missing (evidence : List RuntimeComponentEvidence) (component : RuntimeComponentSpec) :
    List ReadinessBlocker :=
  (if component.versionRequirementPinned then [] else [⟨component.componentId, unpinnedCode⟩]) ++
    Probe.all.flatMap (fun probe =>
      if component.requires probe = true ∧ ¬ Passed evidence component.componentId probe then
        [⟨component.componentId, probe.code⟩]
      else [])

/-- No component has two records, and every record is for a component of the inventory. -/
structure Accepted (inventory : AndroidArm64RuntimeInventory)
    (evidence : List RuntimeComponentEvidence) : Prop where
  distinct : (evidence.map (·.componentId)).Nodup
  known : ∀ proof ∈ evidence, ∃ component ∈ inventory.components,
    component.componentId = proof.componentId

/-- What has passed stays so. -/
def Extends (evidence more : List RuntimeComponentEvidence) : Prop :=
  ∀ componentId probe, Passed evidence componentId probe → Passed more componentId probe

theorem missing_eq_nil {evidence : List RuntimeComponentEvidence}
    {component : RuntimeComponentSpec} :
    missing evidence component = [] ↔ Complete evidence component := by
  unfold missing Complete
  rw [List.append_eq_nil_iff, List.flatMap_eq_nil_iff]
  refine and_congr ?_ ⟨fun h probe hrequired => ?_, fun h probe _ => ?_⟩
  · cases component.versionRequirementPinned with
    | true => exact iff_of_true rfl rfl
    | false => exact iff_of_false (List.cons_ne_nil _ _) Bool.false_ne_true
  · by_contra hopen
    have hnone := h probe (Probe.mem_all probe)
    rw [if_pos ⟨hrequired, hopen⟩] at hnone
    exact List.cons_ne_nil _ _ hnone
  · exact if_neg (fun hopen => hopen.2 (h probe hopen.1))

instance (evidence : List RuntimeComponentEvidence) (component : RuntimeComponentSpec) :
    Decidable (Complete evidence component) :=
  decidable_of_iff (missing evidence component = []) missing_eq_nil

theorem Complete.extends {evidence more : List RuntimeComponentEvidence}
    (hmore : Extends evidence more) {component : RuntimeComponentSpec}
    (h : Complete evidence component) : Complete more component :=
  ⟨h.1, fun probe hrequired => hmore _ _ (h.2 probe hrequired)⟩

/-! ## One component -/

/-- The blocker of a probe, if it is required and has not passed. -/
def blockerOf (required : Bool) (state : Option ProbeState) (componentId code : String) :
    List ReadinessBlocker :=
  if required = true ∧ state ≠ some .passed then [⟨componentId, code⟩] else []

/-- The shape of every state of `checkComponent`: ready as long as nothing was added. -/
def sofarOf (blockers added : List ReadinessBlocker) : Bool × List ReadinessBlocker :=
  (added.isEmpty, blockers ++ added)

theorem requireProbe_sofar (required : Bool) (state : Option ProbeState)
    (componentId code : String) (blockers added : List ReadinessBlocker) :
    (if required then requireProbe state componentId code (sofarOf blockers added)
      else sofarOf blockers added) =
      sofarOf blockers (added ++ blockerOf required state componentId code) := by
  unfold blockerOf
  cases required with
  | false => rw [if_neg Bool.false_ne_true, if_neg (fun h => Bool.false_ne_true h.1), List.append_nil]
  | true =>
    unfold requireProbe
    rw [if_pos rfl]
    by_cases hstate : state = some .passed
    · rw [if_neg (not_not_intro hstate), if_neg (fun h => h.2 hstate), List.append_nil]
    · rw [if_pos hstate, if_pos ⟨rfl, hstate⟩]
      unfold sofarOf
      rw [List.append_assoc, List.isEmpty_eq_false_iff.mpr (List.append_ne_nil_of_right_ne_nil _
        (List.cons_ne_nil _ _))]

/-- The record that is looked up is the only one that counts. -/
theorem find_passed {evidence : List RuntimeComponentEvidence}
    (hdistinct : (evidence.map (·.componentId)).Nodup) (componentId : String) (probe : Probe) :
    (evidence.find? (fun proof => proof.componentId == componentId)).map (·.state probe) =
      some .passed ↔ Passed evidence componentId probe := by
  rw [Option.map_eq_some_iff]
  constructor
  · rintro ⟨proof, hfind, hpassed⟩
    have hid := List.find?_some hfind
    exact ⟨proof, List.mem_of_find?_eq_some hfind, beq_iff_eq.mp hid, hpassed⟩
  · rintro ⟨proof, hproof, hid, hpassed⟩
    cases hfind : evidence.find? (fun proof => proof.componentId == componentId) with
    | none => exact absurd (beq_iff_eq.mpr hid) (List.find?_eq_none.mp hfind proof hproof)
    | some other =>
      have hid' := List.find?_some hfind
      have hother := beq_iff_eq.mp hid'
      have hsame := List.inj_on_of_nodup_map hdistinct (List.mem_of_find?_eq_some hfind) hproof
        (hother.trans hid.symm)
      exact ⟨other, rfl, hsame ▸ hpassed⟩

/-- **One component.**  What is missing is added, and it is ready iff nothing is. -/
theorem checkComponent_eq {evidence : List RuntimeComponentEvidence}
    (hdistinct : (evidence.map (·.componentId)).Nodup) (component : RuntimeComponentSpec)
    (blockers : List ReadinessBlocker) :
    checkComponent component
      (evidence.find? (fun proof => proof.componentId == component.componentId)) blockers =
      sofarOf blockers (missing evidence component) := by
  have hprobe : ∀ probe, blockerOf (component.requires probe)
      ((evidence.find? (fun proof => proof.componentId == component.componentId)).map
        (·.state probe)) component.componentId probe.code =
      if component.requires probe = true ∧ ¬ Passed evidence component.componentId probe then
        [⟨component.componentId, probe.code⟩] else [] := by
    intro probe
    unfold blockerOf
    exact if_congr (and_congr_right' (not_congr (find_passed hdistinct _ probe))) rfl rfl
  have hpin : (if ¬ component.versionRequirementPinned = true then
        (false, blockers ++ [⟨component.componentId, unpinnedCode⟩]) else (true, blockers)) =
      sofarOf blockers (if component.versionRequirementPinned then []
        else [⟨component.componentId, unpinnedCode⟩]) := by
    unfold sofarOf
    cases component.versionRequirementPinned with
    | true => rw [if_neg (not_not_intro rfl), if_pos rfl, List.append_nil, List.isEmpty_nil]
    | false => rw [if_pos Bool.false_ne_true, if_neg Bool.false_ne_true, List.isEmpty_cons]
  have hpresence := requireProbe_sofar true
    ((evidence.find? (fun proof => proof.componentId == component.componentId)).map
      (·.packagePresence)) component.componentId "runtime_package_presence_unproven" blockers
    (if component.versionRequirementPinned then [] else [⟨component.componentId, unpinnedCode⟩])
  rw [if_pos rfl] at hpresence
  unfold checkComponent
  simp only [hpin, hpresence, requireProbe_sofar]
  unfold missing
  simp only [← hprobe]
  unfold Probe.all
  simp only [List.flatMap_cons, List.flatMap_nil, List.append_nil, List.append_assoc]
  rfl

/-! ## The loop -/

theorem markCapabilities_spec (ready : Bool) (capabilities : List RuntimeCapability)
    (progress : Progress) :
    (capabilities.foldl (markCapability ready) progress).blockers = progress.blockers ∧
    ∀ capability,
      (capability ∈ (capabilities.foldl (markCapability ready) progress).capabilityPresent ↔
        capability ∈ progress.capabilityPresent ∨ capability ∈ capabilities) ∧
      ((capabilities.foldl (markCapability ready) progress).capabilityReady capability = true ↔
        progress.capabilityReady capability = true ∧ (capability ∈ capabilities → ready = true)) := by
  induction capabilities generalizing progress with
  | nil =>
    refine ⟨rfl, fun capability => ⟨⟨Or.inl, fun h => h.resolve_right List.not_mem_nil⟩, ?_⟩⟩
    exact ⟨fun h => ⟨h, fun hnone => absurd hnone List.not_mem_nil⟩, fun h => h.1⟩
  | cons head rest ih =>
    obtain ⟨hblockers, hcapabilities⟩ := ih (markCapability ready progress head)
    refine ⟨hblockers, fun capability => ?_⟩
    obtain ⟨hpresent, hready⟩ := hcapabilities capability
    rw [List.foldl_cons, hpresent, hready]
    constructor
    · show capability ∈ head :: progress.capabilityPresent ∨ _ ↔ _
      rw [List.mem_cons, List.mem_cons, or_assoc]
      exact or_left_comm
    · show (if ready = false ∧ capability = head then false
        else progress.capabilityReady capability) = true ∧ _ ↔ _
      rw [List.mem_cons]
      by_cases htaken : ready = false ∧ capability = head
      · rw [if_pos htaken]
        refine iff_of_false (fun h => Bool.false_ne_true h.1) (fun h => ?_)
        exact Bool.false_ne_true (htaken.1.symm.trans (h.2 (.inl htaken.2)))
      · rw [if_neg htaken]
        refine and_congr_right' ⟨fun h hmem => ?_, fun h hmem => h (.inr hmem)⟩
        rcases hmem with rfl | hmem
        · cases ready with
          | true => rfl
          | false => exact absurd ⟨rfl, rfl⟩ htaken
        · exact h hmem

/-- **The loop.**  A capability is ready as long as no component that it needs misses something. -/
theorem evaluateComponents_spec {evidence : List RuntimeComponentEvidence}
    (hdistinct : (evidence.map (·.componentId)).Nodup) (components : List RuntimeComponentSpec)
    (progress : Progress) :
    (evaluateComponents evidence components progress).blockers =
      progress.blockers ++ components.flatMap (missing evidence) ∧
    ∀ capability,
      (capability ∈ (evaluateComponents evidence components progress).capabilityPresent ↔
        capability ∈ progress.capabilityPresent ∨
          ∃ component ∈ components, capability ∈ component.requiredFor) ∧
      ((evaluateComponents evidence components progress).capabilityReady capability = true ↔
        progress.capabilityReady capability = true ∧
          ∀ component ∈ components, capability ∈ component.requiredFor →
            Complete evidence component) := by
  induction components generalizing progress with
  | nil =>
    refine ⟨(List.append_nil _).symm, fun capability => ⟨⟨Or.inl, ?_⟩, ?_⟩⟩
    · exact fun h => h.resolve_right (fun hnone => List.not_mem_nil hnone.choose_spec.1)
    · exact ⟨fun h => ⟨h, fun _ hnone => absurd hnone List.not_mem_nil⟩, fun h => h.1⟩
  | cons component rest ih =>
    obtain ⟨hblockers, hcapabilities⟩ := ih (evaluateComponent evidence progress component)
    obtain ⟨hadded, hmarked⟩ := markCapabilities_spec (missing evidence component).isEmpty
      component.requiredFor { progress with blockers := progress.blockers ++ missing evidence component }
    have hstep : evaluateComponent evidence progress component =
        component.requiredFor.foldl (markCapability (missing evidence component).isEmpty)
          { progress with blockers := progress.blockers ++ missing evidence component } := by
      unfold evaluateComponent
      rw [checkComponent_eq hdistinct]
      rfl
    have hrun : evaluateComponents evidence (component :: rest) progress =
        evaluateComponents evidence rest (evaluateComponent evidence progress component) := rfl
    rw [hrun]
    rw [hstep] at hblockers hcapabilities ⊢
    refine ⟨?_, fun capability => ?_⟩
    · rw [hblockers, hadded, List.flatMap_cons, List.append_assoc]
    obtain ⟨hpresent, hready⟩ := hcapabilities capability
    obtain ⟨hpresent', hready'⟩ := hmarked capability
    rw [hpresent, hready, hpresent', hready', List.isEmpty_iff, missing_eq_nil]
    constructor
    · rw [List.exists_mem_cons_iff, or_assoc]
    · rw [List.forall_mem_cons, and_assoc]

/-! ## What is refused -/

theorem indexEvidence_eq {evidence : List RuntimeComponentEvidence}
    (hids : ∀ proof ∈ evidence, validateComponentId proof.componentId = .ok ())
    (byId : List RuntimeComponentEvidence) :
    indexEvidence evidence byId =
      if (∀ proof ∈ evidence, proof.componentId ∉ byId.map (·.componentId)) ∧
          (evidence.map (·.componentId)).Nodup then .ok (byId ++ evidence)
      else .error (packagingError "runtime_evidence_component_duplicate") := by
  induction evidence generalizing byId with
  | nil =>
    rw [if_pos ⟨fun _ h => absurd h List.not_mem_nil, List.nodup_nil⟩, List.append_nil]
    rfl
  | cons proof rest ih =>
    have hrest := ih (fun p hp => hids p (List.mem_cons_of_mem _ hp)) (byId ++ [proof])
    have hknown : byId.any (fun known => known.componentId == proof.componentId) = true ↔
        proof.componentId ∈ byId.map (·.componentId) := by
      rw [List.any_eq_true, List.mem_map]
      exact exists_congr (fun known => and_congr_right' beq_iff_eq)
    rw [indexEvidence, hids proof List.mem_cons_self]
    simp only [bind, Except.bind]
    by_cases hrepeated : proof.componentId ∈ byId.map (·.componentId)
    · rw [if_pos (hknown.mpr hrepeated),
        if_neg (fun h => h.1 proof List.mem_cons_self hrepeated)]
    · rw [if_neg (fun h => hrepeated (hknown.mp h)), hrest, List.append_assoc, List.singleton_append]
      refine if_congr ?_ rfl rfl
      rw [List.map_append, List.map_singleton, List.map_cons, List.nodup_cons, List.forall_mem_cons]
      constructor
      · rintro ⟨hnew, hnodup⟩
        refine ⟨⟨hrepeated, fun p hp hmem => hnew p hp (List.mem_append_left _ hmem)⟩, ?_, hnodup⟩
        intro hmem
        obtain ⟨p, hp, hsame⟩ := List.mem_map.mp hmem
        exact hnew p hp (List.mem_append_right _ (hsame ▸ List.mem_singleton_self _))
      · rintro ⟨⟨-, hold⟩, hfresh, hnodup⟩
        refine ⟨fun p hp hmem => ?_, hnodup⟩
        rcases List.mem_append.mp hmem with hmem | hmem
        · exact hold p hp hmem
        · exact hfresh (List.mem_map.mpr ⟨p, hp, List.mem_singleton.mp hmem⟩)

/-- A record whose id is not well formed ends the evaluation. -/
theorem indexEvidence_bad_id {evidence : List RuntimeComponentEvidence}
    (h : ∃ proof ∈ evidence, validateComponentId proof.componentId ≠ .ok ())
    (byId : List RuntimeComponentEvidence) : ∃ e, indexEvidence evidence byId = .error e := by
  induction evidence generalizing byId with
  | nil => exact absurd h.choose_spec.1 List.not_mem_nil
  | cons proof rest ih =>
    rw [indexEvidence]
    cases hid : validateComponentId proof.componentId with
    | error e => exact ⟨e, rfl⟩
    | ok u =>
      simp only [bind, Except.bind]
      split
      · exact ⟨_, rfl⟩
      · refine ih ?_ _
        obtain ⟨bad, hbad, hne⟩ := h
        rcases List.mem_cons.mp hbad with rfl | hbad
        · exact absurd hid hne
        · exact ⟨bad, hbad, hne⟩

theorem validateComponents_ids {components : List RuntimeComponentSpec} {ids : List String}
    (h : validateComponents components ids = .ok ()) :
    ∀ component ∈ components, validateComponentId component.componentId = .ok () := by
  induction components generalizing ids with
  | nil => exact fun _ hnone => absurd hnone List.not_mem_nil
  | cons component rest ih =>
    rw [validateComponents] at h
    cases hcomponent : validateComponent component with
    | error e =>
      rw [hcomponent] at h
      cases h
    | ok u =>
      rw [hcomponent] at h
      have hid : validateComponentId component.componentId = .ok () := by
        cases hid : validateComponentId component.componentId with
        | ok u => rfl
        | error e =>
          unfold validateComponent at hcomponent
          rw [hid] at hcomponent
          cases hcomponent
      simp only [bind, Except.bind] at h
      split at h
      · cases h
      · exact List.forall_mem_cons.mpr ⟨hid, ih h⟩

theorem validate_components {inventory : AndroidArm64RuntimeInventory}
    (h : inventory.validate = .ok ()) : validateComponents inventory.components [] = .ok () := by
  unfold AndroidArm64RuntimeInventory.validate at h
  simp only [bind, Except.bind, throw, throwThe, MonadExceptOf.throw] at h
  split at h
  · cases h
  split at h
  · cases h
  split at h
  · cases h
  split at h
  · cases h
  exact h

/-- The evaluation up to its loop. -/
theorem evaluateReadiness_eq {inventory : AndroidArm64RuntimeInventory}
    (hvalid : inventory.validate = .ok ()) {evidence : List RuntimeComponentEvidence}
    (haccepted : Accepted inventory evidence) :
    ∃ report, evaluateReadiness inventory evidence = .ok report ∧
      report.blockers = inventory.components.flatMap (missing evidence) ∧
      ∀ capability, report.ready capability = true ↔
        (∃ component ∈ inventory.components, capability ∈ component.requiredFor) ∧
        ∀ component ∈ inventory.components, capability ∈ component.requiredFor →
          Complete evidence component := by
  have hids : ∀ proof ∈ evidence, validateComponentId proof.componentId = .ok () := by
    intro proof hproof
    obtain ⟨component, hcomponent, hid⟩ := haccepted.known proof hproof
    rw [← hid]
    exact validateComponents_ids (validate_components hvalid) component hcomponent
  have hindex : indexEvidence evidence [] = .ok evidence := by
    rw [indexEvidence_eq hids, if_pos ⟨fun _ _ => List.not_mem_nil, haccepted.distinct⟩]
    rfl
  have hknown : ¬ evidence.any (fun proof => !inventory.components.any
      (fun component => component.componentId == proof.componentId)) = true := by
    rw [List.any_eq_true]
    rintro ⟨proof, hproof, hunknown⟩
    obtain ⟨component, hcomponent, hid⟩ := haccepted.known proof hproof
    rw [Bool.not_eq_true', List.any_eq_false] at hunknown
    exact hunknown component hcomponent (beq_iff_eq.mpr hid)
  obtain ⟨hblockers, hcapabilities⟩ :=
    evaluateComponents_spec haccepted.distinct inventory.components ⟨fun _ => true, [], []⟩
  unfold evaluateReadiness
  simp only [hvalid, hindex, bind, Except.bind, if_neg hknown]
  refine ⟨_, rfl, hblockers, fun capability => ?_⟩
  obtain ⟨hpresent, hready⟩ := hcapabilities capability
  have hreport : ∀ progress : Progress,
      (progress.capabilityPresent.contains capability && progress.capabilityReady capability) =
        true ↔ capability ∈ progress.capabilityPresent ∧
          progress.capabilityReady capability = true := by
    intro progress
    rw [Bool.and_eq_true, List.contains_iff_mem]
  have hcases := (hreport (evaluateComponents evidence inventory.components
    ⟨fun _ => true, [], []⟩)).trans (and_congr hpresent hready)
  rw [or_iff_right List.not_mem_nil, and_iff_right rfl] at hcases
  cases capability <;> exact hcases

/-- Evidence that is not accepted has no report. -/
theorem evaluateReadiness_refuses {inventory : AndroidArm64RuntimeInventory}
    {evidence : List RuntimeComponentEvidence} (h : ¬ Accepted inventory evidence) :
    ∃ e, evaluateReadiness inventory evidence = .error e := by
  unfold evaluateReadiness
  simp only [bind, Except.bind, throw, throwThe, MonadExceptOf.throw]
  split
  · exact ⟨_, rfl⟩
  by_cases hids : ∀ proof ∈ evidence, validateComponentId proof.componentId = .ok ()
  · rw [indexEvidence_eq hids]
    by_cases hdistinct : (evidence.map (·.componentId)).Nodup
    · rw [if_pos ⟨fun _ _ => List.not_mem_nil, hdistinct⟩]
      dsimp only
      rw [if_pos]
      · exact ⟨_, rfl⟩
      · by_contra hknown
        refine h ⟨hdistinct, fun proof hproof => ?_⟩
        rw [List.nil_append, List.any_eq_true] at hknown
        by_contra hnone
        refine hknown ⟨proof, hproof, ?_⟩
        rw [Bool.not_eq_true', List.any_eq_false]
        exact fun component hcomponent hid => hnone ⟨component, hcomponent, beq_iff_eq.mp hid⟩
    · rw [if_neg (fun h => hdistinct h.2)]
      exact ⟨_, rfl⟩
  · obtain ⟨proof, hproof, hid⟩ : ∃ proof ∈ evidence,
        validateComponentId proof.componentId ≠ .ok () := by
      by_contra hnone
      refine hids (fun proof hproof => ?_)
      by_contra hid
      exact hnone ⟨proof, hproof, hid⟩
    obtain ⟨e, he⟩ := indexEvidence_bad_id ⟨proof, hproof, hid⟩ []
    rw [he]
    exact ⟨e, rfl⟩

/-! ## The report -/

/-- The capability is reported ready. -/
def ReportedReady (inventory : AndroidArm64RuntimeInventory)
    (evidence : List RuntimeComponentEvidence) (capability : RuntimeCapability) : Prop :=
  ∃ report, evaluateReadiness inventory evidence = .ok report ∧ report.ready capability = true

/-- Some component requires the capability, and each that does is complete. -/
def Backed (inventory : AndroidArm64RuntimeInventory) (evidence : List RuntimeComponentEvidence)
    (capability : RuntimeCapability) : Prop :=
  (∃ component ∈ inventory.components, capability ∈ component.requiredFor) ∧
    ∀ component ∈ inventory.components, capability ∈ component.requiredFor →
      Complete evidence component

/-- **The report.**  For accepted evidence, what is ready, what blocks, and that more evidence takes
    nothing back; for any other, none. -/
theorem evaluateReadiness_law {inventory : AndroidArm64RuntimeInventory}
    (hvalid : inventory.validate = .ok ()) (evidence : List RuntimeComponentEvidence) :
    (Accepted inventory evidence →
      (∀ capability, ReportedReady inventory evidence capability ↔
        Backed inventory evidence capability) ∧
      (∃ report, evaluateReadiness inventory evidence = .ok report ∧
        report.blockers = inventory.components.flatMap (missing evidence)) ∧
      ∀ more, Accepted inventory more → Extends evidence more →
        ∀ capability, ReportedReady inventory evidence capability →
          ReportedReady inventory more capability) ∧
    (¬ Accepted inventory evidence → ∃ e, evaluateReadiness inventory evidence = .error e) := by
  have hready : ∀ {evidence : List RuntimeComponentEvidence}, Accepted inventory evidence →
      ∀ capability, ReportedReady inventory evidence capability ↔
        Backed inventory evidence capability := by
    intro evidence haccepted capability
    obtain ⟨report, hreport, -, hready⟩ := evaluateReadiness_eq hvalid haccepted
    constructor
    · rintro ⟨other, hother, hcapability⟩
      cases hreport.symm.trans hother
      exact (hready capability).mp hcapability
    · exact fun h => ⟨report, hreport, (hready capability).mpr h⟩
  refine ⟨fun haccepted => ⟨hready haccepted, ?_, ?_⟩, evaluateReadiness_refuses⟩
  · obtain ⟨report, hreport, hblockers, -⟩ := evaluateReadiness_eq hvalid haccepted
    exact ⟨report, hreport, hblockers⟩
  · intro more hmore hextends capability hcapability
    obtain ⟨hneeded, hcomplete⟩ := (hready haccepted capability).mp hcapability
    refine (hready hmore capability).mpr ⟨hneeded, fun component hcomponent hrequired => ?_⟩
    exact (hcomplete component hcomponent hrequired).extends hextends

/-- A component that is data and needs only to be there. -/
def dataComponent : RuntimeComponentSpec where
  componentId := "data"
  versionRequirement := "1"
  versionRequirementPinned := true
  artifactKind := .dataBundle
  placement := .apkAsset
  deliveryModule := none
  bundledInBase := none
  relativePath := some "data/files"
  requiredFor := [.core]
  requiresExecProbe := false
  requiresVersionProbe := false
  requiresUnixSocketProbe := false
  requiresServiceProbe := false
  requiresRuntimeBindingProbe := false
  requires16kPageCompatibility := false

/-- An inventory of that component alone. -/
def dataInventory : AndroidArm64RuntimeInventory where
  schema := 1
  targetOs := "android"
  abi := "arm64-v8a"
  rustTarget := "aarch64-linux-android"
  writableAppHomeExecForbiddenFromTargetApi := 29
  components := [dataComponent]

/-- The component is there. -/
def dataPresent : RuntimeComponentEvidence where
  componentId := "data"
  packagePresence := .passed

/-- The core is ready once its data is there. -/
theorem evaluateReadiness_law_data :
    ReportedReady dataInventory [dataPresent] .core :=
  (((evaluateReadiness_law (show dataInventory.validate = .ok () by decide) [dataPresent]).1
    ⟨by decide, by decide⟩).1 .core).mpr ⟨by decide, by decide⟩

/-- A passed probe of something else takes the report away. -/
theorem evaluateReadiness_not_total :
    ¬ ∀ inventory : AndroidArm64RuntimeInventory, inventory.validate = .ok () →
      ∀ (evidence : List RuntimeComponentEvidence) (capability : RuntimeCapability),
        ReportedReady inventory evidence capability ↔ Backed inventory evidence capability := by
  intro h
  have hbacked : Backed dataInventory [dataPresent, { dataPresent with componentId := "other" }]
      .core := ⟨by decide, by decide⟩
  obtain ⟨report, hreport, -⟩ := (h dataInventory (by decide) _ .core).mpr hbacked
  have hrefused : evaluateReadiness dataInventory
      [dataPresent, { dataPresent with componentId := "other" }] =
      .error (packagingError "runtime_evidence_unknown_component") := by decide
  rw [hrefused] at hreport
  cases hreport

end VibeCoder.Packaging
