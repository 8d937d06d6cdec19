/-
  Which capabilities of the Android runtime are ready (`vibecoder-runtime-packaging`).

  1. **The inventory** — runtime components with what has to be probed of each, and the validator of
     the inventory.

  2. **The evidence** — one record for a component, in which every probe has passed, failed or not
     been run.

  3. **The evaluation** — one pass over the components: it collects blockers, notes which
     capabilities are required at all, and takes readiness away from the capabilities of a component
     that is not ready.

  A path is text here: the inventory is read from JSON, so that a path is UTF-8.  The maps and sets
  of the source are only looked up, never listed, but for the keys of `by_id` in one test.
-/
import VibeCoder.Packaging.VersionRequirement
import VibeCoder.CommandPolicy
import VibeCoder.Workspace.Paths

namespace VibeCoder.Packaging

open Workspace (Component components isAbsolute)
open NativeProbe (versionRequirementIsSupported)

def inventorySchema : Nat := 1
def androidArm64Abi : String := "arm64-v8a"
def androidArm64RustTarget : String := "aarch64-linux-android"
def androidWxTargetApi : Nat := 29
def maxComponents : Nat := 64
def maxComponentIdBytes : Nat := 64
def maxVersionRequirementBytes : Nat := 128
def maxRelativePathBytes : Nat := 4096
def maxPathComponentBytes : Nat := 255

/-- `packaging_error`. -/
def packagingError (code : String) : VibeCoderError := .config code

/-! ## The inventory -/

/-- `RuntimeCapability`. -/
inductive RuntimeCapability where
  | core
  | agent
  | gateway
  | websiteBuild
  | androidBuild
  deriving DecidableEq, Repr

/-- `RuntimeArtifactKind`. -/
inductive RuntimeArtifactKind where
  | inProcessNative
  | nativeExecutable
  | nativeLibrary
  | dataBundle
  | javaArchive
  deriving DecidableEq, Repr

/-- `RuntimePlacement`. -/
inductive RuntimePlacement where
  | apkNativeLibrary
  | apkNativeExecutable
  | downloadedPackageSplitNativeExecutable
  | apkAsset
  | writableAppData
  deriving DecidableEq, Repr

/-- `RuntimeComponentSpec`. -/
structure RuntimeComponentSpec where
  componentId : String
  versionRequirement : String
  versionRequirementPinned : Bool
  artifactKind : RuntimeArtifactKind
  placement : RuntimePlacement
  deliveryModule : Option String
  bundledInBase : Option Bool
  relativePath : Option String
  requiredFor : List RuntimeCapability
  requiresExecProbe : Bool
  requiresVersionProbe : Bool
  requiresUnixSocketProbe : Bool
  requiresServiceProbe : Bool
  requiresRuntimeBindingProbe : Bool
  requires16kPageCompatibility : Bool
  deriving DecidableEq, Repr

/-- `AndroidArm64RuntimeInventory`. -/
structure AndroidArm64RuntimeInventory where
  schema : Nat
  targetOs : String
  abi : String
  rustTarget : String
  writableAppHomeExecForbiddenFromTargetApi : Nat
  components : List RuntimeComponentSpec
  deriving DecidableEq, Repr

/-- The loop of `validate_relative_path`. -/
def validatePathComponents : List Component → Result Unit
  | [] => .ok ()
  | .normal value :: rest =>
    if value.isEmpty ∨ len value > maxPathComponentBytes then
      .error (packagingError "runtime_component_path_invalid")
    else validatePathComponents rest
  | .curDir :: _ | .parentDir :: _ | .rootDir :: _ =>
    .error (packagingError "runtime_component_path_invalid")

/-- `validate_relative_path`. -/
def validateRelativePath (path : String) : Result Unit :=
  if isAbsolute path then .error (packagingError "runtime_component_path_absolute")
  else if path.isEmpty ∨ len path > maxRelativePathBytes ∨ path.toList.contains '\\' ∨
      hasForbiddenDisplayChar path then
    .error (packagingError "runtime_component_path_invalid")
  else validatePathComponents (components path)

/-- The bytes of a component id. -/
def isIdChar (c : Char) : Bool := c.isAlphanum || c == '.' || c == '_' || c == '-'

/-- `validate_component_id`. -/
def validateComponentId (value : String) : Result Unit :=
  if value.isEmpty ∨ len value > maxComponentIdBytes ∨ ¬ value.toList.all isIdChar then
    .error (packagingError "runtime_component_id_invalid")
  else .ok ()

/-- Whether `insert` into the set refuses one of the capabilities. -/
def repeatsCapability : List RuntimeCapability → List RuntimeCapability → Bool
  | [], _ => false
  | capability :: rest, capabilities =>
    capabilities.contains capability || repeatsCapability rest (capability :: capabilities)

/-- What `validate_component` asks of the placement, by the kind of artifact. -/
def validatePlacement (component : RuntimeComponentSpec) : Result Unit :=
  match component.artifactKind with
  | .inProcessNative | .nativeLibrary =>
    if component.placement ≠ .apkNativeLibrary ∨ component.requiresExecProbe ∨
        ¬ component.requires16kPageCompatibility then
      .error (packagingError "runtime_native_library_placement_invalid")
    else .ok ()
  | .nativeExecutable =>
    if ¬ (component.placement = .apkNativeExecutable ∨
          component.placement = .downloadedPackageSplitNativeExecutable) ∨
        component.relativePath.isNone ∨ ¬ component.requiresExecProbe ∨
        ¬ component.requires16kPageCompatibility then
      .error (packagingError "runtime_native_executable_placement_invalid")
    else if component.placement = .downloadedPackageSplitNativeExecutable ∧
        ((component.deliveryModule.getD "").isEmpty ∨
          len (component.deliveryModule.getD "") > 128 ∨ component.bundledInBase ≠ some false) then
      .error (packagingError "runtime_package_split_delivery_invalid")
    else .ok ()
  | .dataBundle | .javaArchive =>
    if ¬ (component.placement = .apkAsset ∨ component.placement = .writableAppData) ∨
        component.requiresExecProbe ∨ component.requires16kPageCompatibility then
      .error (packagingError "runtime_data_placement_invalid")
    else .ok ()

/-- The kinds that can have a service or be bound to a runtime. -/
def RuntimeArtifactKind.runs (kind : RuntimeArtifactKind) : Bool :=
  kind == .nativeExecutable || kind == .dataBundle || kind == .javaArchive

/-- `validate_component`. -/
def validateComponent (component : RuntimeComponentSpec) : Result Unit := do
  validateComponentId component.componentId
  let version := String.ofList (trimChars component.versionRequirement.toList)
  if version.isEmpty ∨ len version > maxVersionRequirementBytes then
    throw (packagingError "runtime_component_version_invalid")
  if component.requiredFor.isEmpty then
    throw (packagingError "runtime_component_capability_empty")
  if repeatsCapability component.requiredFor [] then
    throw (packagingError "runtime_component_capability_duplicate")
  match component.relativePath with
  | some path => validateRelativePath path
  | none => pure ()
  validatePlacement component
  if component.requiresUnixSocketProbe ∧ component.artifactKind ≠ .nativeExecutable then
    throw (packagingError "runtime_socket_probe_kind_invalid")
  if component.requiresServiceProbe ∧ ¬ component.artifactKind.runs then
    throw (packagingError "runtime_service_probe_kind_invalid")
  if component.requiresRuntimeBindingProbe ∧ ¬ component.artifactKind.runs then
    throw (packagingError "runtime_binding_probe_kind_invalid")
  if component.versionRequirementPinned ∧ component.requiresVersionProbe ∧
      ¬ versionRequirementIsSupported component.versionRequirement.toList then
    throw (packagingError "runtime_component_version_requirement_unsupported")

/-- The loop of `validate`; `ids` are those of the components before. -/
def validateComponents : List RuntimeComponentSpec → List String → Result Unit
  | [], _ => .ok ()
  | component :: rest, ids => do
    validateComponent component
    if ids.contains component.componentId then
      .error (packagingError "runtime_inventory_component_duplicate")
    else validateComponents rest (component.componentId :: ids)

/-- `validate`. -/
def AndroidArm64RuntimeInventory.validate (inventory : AndroidArm64RuntimeInventory) :
    Result Unit := do
  if inventory.schema ≠ inventorySchema then
    throw (packagingError "runtime_inventory_schema_unsupported")
  if inventory.targetOs ≠ "android" ∨ inventory.abi ≠ androidArm64Abi ∨
      inventory.rustTarget ≠ androidArm64RustTarget then
    throw (packagingError "runtime_inventory_target_mismatch")
  if inventory.writableAppHomeExecForbiddenFromTargetApi ≠ androidWxTargetApi then
    throw (packagingError "runtime_inventory_wx_policy_mismatch")
  if inventory.components.isEmpty ∨ inventory.components.length > maxComponents then
    throw (packagingError "runtime_inventory_component_count_invalid")
  validateComponents inventory.components []

/-! ## The evaluation -/

/-- `ProbeState`. -/
inductive ProbeState where
  | passed
  | failed
  | notRun
  deriving DecidableEq, Repr

/-- `RuntimeComponentEvidence`; `NotRun` is the default of every probe. -/
structure RuntimeComponentEvidence where
  componentId : String
  packagePresence : ProbeState := .notRun
  arm64Identity : ProbeState := .notRun
  execution : ProbeState := .notRun
  version : ProbeState := .notRun
  unixSocketRoundTrip : ProbeState := .notRun
  serviceRoundTrip : ProbeState := .notRun
  runtimeBinding : ProbeState := .notRun
  pageSize16kCompatibility : ProbeState := .notRun
  deriving DecidableEq, Repr

/-- `ReadinessBlocker`. -/
structure ReadinessBlocker where
  componentId : String
  code : String
  deriving DecidableEq, Repr

/-- `AndroidRuntimeReadinessReport`. -/
structure AndroidRuntimeReadinessReport where
  coreReady : Bool
  agentReady : Bool
  gatewayReady : Bool
  websiteBuildReady : Bool
  androidBuildReady : Bool
  blockers : List ReadinessBlocker
  deriving DecidableEq, Repr

/-- `backend_ready`. -/
def AndroidRuntimeReadinessReport.backendReady (report : AndroidRuntimeReadinessReport) : Bool :=
  report.coreReady && report.agentReady && report.gatewayReady

/-- `fully_ready`. -/
def AndroidRuntimeReadinessReport.fullyReady (report : AndroidRuntimeReadinessReport) : Bool :=
  report.backendReady && report.websiteBuildReady && report.androidBuildReady

/-- What a report says about a capability. -/
def AndroidRuntimeReadinessReport.ready (report : AndroidRuntimeReadinessReport) :
    RuntimeCapability → Bool
  | .core => report.coreReady
  | .agent => report.agentReady
  | .gateway => report.gatewayReady
  | .websiteBuild => report.websiteBuildReady
  | .androidBuild => report.androidBuildReady

/-- The loop that fills `by_id`. -/
def indexEvidence : List RuntimeComponentEvidence → List RuntimeComponentEvidence →
    Result (List RuntimeComponentEvidence)
  | [], byId => .ok byId
  | proof :: rest, byId => do
    validateComponentId proof.componentId
    if byId.any (fun known => known.componentId == proof.componentId) then
      .error (packagingError "runtime_evidence_component_duplicate")
    else indexEvidence rest (byId ++ [proof])

/-- `require_probe`, with `ready` and the blockers so far. -/
def requireProbe (state : Option ProbeState) (componentId code : String)
    (sofar : Bool × List ReadinessBlocker) : Bool × List ReadinessBlocker :=
  if state ≠ some .passed then (false, sofar.2 ++ [⟨componentId, code⟩]) else sofar

/-- The kinds whose machine code is looked at. -/
def RuntimeArtifactKind.isNative (kind : RuntimeArtifactKind) : Bool :=
  kind == .inProcessNative || kind == .nativeExecutable || kind == .nativeLibrary

def unpinnedCode : String := "runtime_version_requirement_unpinned"

/-- What the loop asks of one component: whether it is ready, and the blockers. -/
def checkComponent (component : RuntimeComponentSpec) (proof : Option RuntimeComponentEvidence)
    (blockers : List ReadinessBlocker) : Bool × List ReadinessBlocker :=
  let id := component.componentId
  let sofar := if ¬ component.versionRequirementPinned then (false, blockers ++ [⟨id, unpinnedCode⟩])
    else (true, blockers)
  let sofar := requireProbe (proof.map (·.packagePresence)) id "runtime_package_presence_unproven"
    sofar
  let sofar := if component.artifactKind.isNative then
      requireProbe (proof.map (·.arm64Identity)) id "runtime_arm64_identity_unproven" sofar
    else sofar
  let sofar := if component.requiresExecProbe then
      requireProbe (proof.map (·.execution)) id "runtime_execution_unproven" sofar
    else sofar
  let sofar := if component.requiresVersionProbe then
      requireProbe (proof.map (·.version)) id "runtime_version_unproven" sofar
    else sofar
  let sofar := if component.requiresUnixSocketProbe then
      requireProbe (proof.map (·.unixSocketRoundTrip)) id "runtime_unix_socket_unproven" sofar
    else sofar
  let sofar := if component.requiresServiceProbe then
      requireProbe (proof.map (·.serviceRoundTrip)) id "runtime_service_round_trip_unproven" sofar
    else sofar
  let sofar := if component.requiresRuntimeBindingProbe then
      requireProbe (proof.map (·.runtimeBinding)) id "runtime_binding_unproven" sofar
    else sofar
  if component.requires16kPageCompatibility then
    requireProbe (proof.map (·.pageSize16kCompatibility)) id
      "runtime_16k_page_compatibility_unproven" sofar
  else sofar

/-- The state of the loop over the components. -/
structure Progress where
  capabilityReady : RuntimeCapability → Bool
  capabilityPresent : List RuntimeCapability
  blockers : List ReadinessBlocker

/-- One capability of a component. -/
def markCapability (ready : Bool) (progress : Progress) (capability : RuntimeCapability) :
    Progress :=
  { progress with
    capabilityPresent := capability :: progress.capabilityPresent
    capabilityReady := fun other =>
      if ready = false ∧ other = capability then false else progress.capabilityReady other }

/-- One round of the loop over the components. -/
def evaluateComponent (byId : List RuntimeComponentEvidence) (progress : Progress)
    (component : RuntimeComponentSpec) : Progress :=
  let checked := checkComponent component
    (byId.find? (fun proof => proof.componentId == component.componentId)) progress.blockers
  component.requiredFor.foldl (markCapability checked.1) { progress with blockers := checked.2 }

/-- The loop over the components. -/
def evaluateComponents (byId : List RuntimeComponentEvidence)
    (components : List RuntimeComponentSpec) (progress : Progress) : Progress :=
  components.foldl (evaluateComponent byId) progress

/-- `evaluate_android_arm64_readiness`. -/
def evaluateReadiness (inventory : AndroidArm64RuntimeInventory)
    (evidence : List RuntimeComponentEvidence) : Result AndroidRuntimeReadinessReport := do
  inventory.validate
  let byId ← indexEvidence evidence []
  if byId.any (fun proof => !inventory.components.any
      (fun component => component.componentId == proof.componentId)) then
    throw (packagingError "runtime_evidence_unknown_component")
  let progress := evaluateComponents byId inventory.components ⟨fun _ => true, [], []⟩
  let capabilityReady (capability : RuntimeCapability) : Bool :=
    progress.capabilityPresent.contains capability && progress.capabilityReady capability
  return {
    coreReady := capabilityReady .core
    agentReady := capabilityReady .agent
    gatewayReady := capabilityReady .gateway
    websiteBuildReady := capabilityReady .websiteBuild
    androidBuildReady := capabilityReady .androidBuild
    blockers := progress.blockers }

end VibeCoder.Packaging
