/-
  The website build pipeline (`vibecoder-web-build-pipeline`): the stages a project goes through, the
  command each stage may run, and what a build result does to the pipeline.

  The pipeline is move-only in the source: `into_running` and `wait` consume what they are called
  on, and an error leaves nothing behind.  Here they return the next value or an error.

    * **report** — the toolchain report is taken as it is, with all its fields: the pipeline is
      compared with a fresh one before every stage (`verify_toolchain_unchanged`);
    * **job** — a running job is its descriptor and its process; how it ends is an argument of
      `wait`.

  Left out: the events of a running stage, which only pass through.
-/
import VibeCoder.Build.Loop

namespace VibeCoder.Build

open Process

/-! ## The toolchain report -/

/-- `PackageManager`. -/
inductive PackageManager where
  | npm
  | pnpm
  | yarn
  | bun
  deriving DecidableEq, Repr

/-- `PackageManager::runtime_tool_id`. -/
def PackageManager.runtimeToolId : PackageManager → String
  | .npm => "npm"
  | .pnpm => "pnpm"
  | .yarn => "yarn"
  | .bun => "bun"

/-- `WebFramework`. -/
inductive WebFramework where
  | static
  | vite
  | react
  | vue
  | nextJs
  | angular
  | genericNode
  deriving DecidableEq, Repr

/-- `NodeRuntimeRequirement`. -/
structure NodeRuntimeRequirement where
  enginesNode : Option String
  deriving DecidableEq, Repr

/-- `DependencyInstallIntent`. -/
inductive DependencyInstallIntent where
  | locked
  | unlocked
  | notRequired
  deriving DecidableEq, Repr

/-- `WebsiteBuildIntent`. -/
structure WebsiteBuildIntent where
  packageManager : Option PackageManager
  install : DependencyInstallIntent
  buildScriptName : Option String
  deriving DecidableEq, Repr

/-- `WebsiteToolchainReport`. -/
structure WebsiteToolchainReport where
  framework : WebFramework
  packageManager : Option PackageManager
  packageManagerDeclaration : Option String
  nodeRequirement : Option NodeRuntimeRequirement
  packageName : Option String
  hasBuildScript : Bool
  buildIntent : WebsiteBuildIntent
  manifestSha256Hex : String
  lockfileRelativePath : Option String
  lockfileSha256Hex : Option String
  deriving DecidableEq, Repr

/-! ## The pipeline -/

/-- `WebsitePipelineId(Uuid)`. -/
structure WebsitePipelineId where
  uuid : BitVec 128
  deriving DecidableEq, Repr

/-- `WebsiteBuildPipelineState::is_terminal`. -/
def WebsiteBuildPipelineState.isTerminal : WebsiteBuildPipelineState → Bool
  | .noBuildRequired | .succeeded | .failed | .cancelled | .timedOut => true
  | .awaitingApproval _ | .running _ => false

/-- `WebsiteBuildPolicy`. -/
structure WebsiteBuildPolicy where
  installDependencies : Bool
  allowDependencyInstallScripts : Bool
  deriving DecidableEq, Repr

/-- `WebsiteBuildPolicy::default()`. -/
def WebsiteBuildPolicy.default : WebsiteBuildPolicy where
  installDependencies := true
  allowDependencyInstallScripts := false

/-- `WebsiteBuildPipeline`. -/
structure WebsiteBuildPipeline where
  pipelineId : WebsitePipelineId
  projectId : ProjectId
  report : WebsiteToolchainReport
  policy : WebsiteBuildPolicy
  state : WebsiteBuildPipelineState
  deriving DecidableEq, Repr

/-- `RunningBuildJob`. -/
structure RunningBuildJob where
  descriptor : BuildJobDescriptor
  processId : ProcessId

/-- `RunningWebsiteBuildStage`. -/
structure RunningWebsiteBuildStage where
  pipeline : WebsiteBuildPipeline
  stage : WebsiteBuildStage
  running : RunningBuildJob

namespace WebsiteBuildPipeline

/-- The state a new pipeline starts in. -/
def initialState (report : WebsiteToolchainReport) (policy : WebsiteBuildPolicy) :
    Result WebsiteBuildPipelineState :=
  match report.packageManager with
  | none =>
    if report.hasBuildScript then .error (buildError "web_build_static_script_inconsistent")
    else .ok .noBuildRequired
  | some _ =>
    if !report.hasBuildScript ∨ report.buildIntent.buildScriptName ≠ some "build" then
      .error (buildError "web_build_script_missing")
    else if policy.installDependencies then
      match report.buildIntent.install with
      | .locked => .ok (.awaitingApproval .dependencyInstall)
      | .unlocked => .error (buildError "web_build_unlocked_install_disallowed")
      | .notRequired => .error (buildError "web_build_install_intent_inconsistent")
    else .ok (.awaitingApproval .buildScript)

/-- `WebsiteBuildPipeline::new`; `uuid` is the fresh `Uuid::new_v4()`. -/
def new (uuid : BitVec 128) (projectId : ProjectId) (report : WebsiteToolchainReport)
    (policy : WebsiteBuildPolicy) : Result WebsiteBuildPipeline :=
  match initialState report policy with
  | .error e => .error e
  | .ok state => .ok {
      pipelineId := ⟨uuid⟩
      projectId := projectId
      report := report
      policy := policy
      state := state }

/-- `verify_toolchain_unchanged`. -/
def verifyToolchainUnchanged (p : WebsiteBuildPipeline) (current : WebsiteToolchainReport) :
    Result Unit :=
  if p.report ≠ current then .error (buildError "web_build_toolchain_changed") else .ok ()

/-- `current_stage`. -/
def currentStage (p : WebsiteBuildPipeline) : Option WebsiteBuildStage :=
  match p.state with
  | .awaitingApproval stage | .running stage => some stage
  | _ => none

/-! ### Commands -/

/-- `str::parse::<u32>` of a text of digits. -/
def parseU32 (digits : List Char) : Option Nat :=
  if digits.isEmpty then none
  else if Nat.ofDigitChars 10 digits 0 < 2 ^ 32 then some (Nat.ofDigitChars 10 digits 0)
  else none

/-- `yarn_locked_install_args`. -/
def yarnLockedInstallArgs (p : WebsiteBuildPipeline) : Result (List String) :=
  if p.policy.allowDependencyInstallScripts then .ok ["install", "--frozen-lockfile"]
  else
    match p.report.packageManagerDeclaration with
    | none => .error (buildError "web_build_yarn_version_required_for_safe_install")
    | some declaration =>
      if !("yarn@".toList.isPrefixOf declaration.toList) then
        .error (buildError "web_build_yarn_version_invalid")
      else
        match parseU32 ((declaration.toList.drop 5).takeWhile Char.isDigit) with
        | none => .error (buildError "web_build_yarn_version_invalid")
        | some 0 => .error (buildError "web_build_yarn_version_invalid")
        | some 1 => .ok ["install", "--frozen-lockfile", "--ignore-scripts"]
        | some _ => .ok ["install", "--immutable", "--mode=skip-build"]

/-- The arguments of a locked install, before the flag that disables scripts. -/
def lockedArgs (p : WebsiteBuildPipeline) : PackageManager → Result (List String)
  | .npm => .ok ["ci"]
  | .pnpm => .ok ["install", "--frozen-lockfile"]
  | .yarn => p.yarnLockedInstallArgs
  | .bun => .ok ["install", "--frozen-lockfile"]

/-- `install_args`.  An install that is not locked has been refused before the source's match on the
    manager, whose `false` arms say so once more. -/
def installArgs (p : WebsiteBuildPipeline) (manager : PackageManager) : Result (List String) :=
  match p.report.buildIntent.install with
  | .unlocked => .error (buildError "web_build_unlocked_install_disallowed")
  | .notRequired => .error (buildError "web_build_install_intent_inconsistent")
  | .locked =>
    match p.lockedArgs manager with
    | .error e => .error e
    | .ok args =>
      if !p.policy.allowDependencyInstallScripts ∧ manager ≠ .yarn then
        .ok (args ++ ["--ignore-scripts"])
      else .ok args

/-- The arguments of a stage. -/
def stageArgs (p : WebsiteBuildPipeline) (manager : PackageManager) :
    WebsiteBuildStage → Result (List String)
  | .dependencyInstall => p.installArgs manager
  | .buildScript => .ok ["run", "build"]

/-- `command_for_stage`. -/
def commandForStage (p : WebsiteBuildPipeline) (stage : WebsiteBuildStage) : Result CommandSpec :=
  match p.report.packageManager with
  | none => .error (buildError "web_build_package_manager_missing")
  | some manager =>
    match p.stageArgs manager stage with
    | .error e => .error e
    | .ok args => .ok {
        program := .runtimeTool manager.runtimeToolId
        args := args
        workingDir := "." }

/-- `current_command`. -/
def currentCommand (p : WebsiteBuildPipeline) : Result CommandSpec :=
  match p.state with
  | .awaitingApproval stage => p.commandForStage stage
  | _ => .error (buildError "web_build_stage_not_awaiting_approval")

/-- `command_matches_current_stage`. -/
def commandMatchesCurrentStage (p : WebsiteBuildPipeline) (command : CommandSpec) : Result Unit :=
  match p.currentCommand with
  | .error e => .error e
  | .ok current =>
    if current ≠ command then .error (buildError "web_build_authorized_command_mismatch")
    else .ok ()

/-! ### Stages -/

/-- `into_running`. -/
def intoRunning (p : WebsiteBuildPipeline) (running : RunningBuildJob) :
    Result RunningWebsiteBuildStage :=
  match p.state with
  | .awaitingApproval stage =>
    if running.descriptor.projectId ≠ p.projectId ∨ running.descriptor.target ≠ .website then
      .error (buildError "web_build_running_job_scope_mismatch")
    else .ok {
      pipeline := { p with state := .running stage }
      stage := stage
      running := running }
  | _ => .error (buildError "web_build_stage_not_awaiting_approval")

/-- The state after a result of a running stage. -/
def stateAfter (stage : WebsiteBuildStage) (result : BuildState) :
    Result WebsiteBuildPipelineState :=
  match result with
  | .succeeded =>
    match stage with
    | .dependencyInstall => .ok (.awaitingApproval .buildScript)
    | .buildScript => .ok .succeeded
  | .failed => .ok .failed
  | .cancelled => .ok .cancelled
  | .timedOut => .ok .timedOut
  | .queued | .running => .error (buildError "web_build_nonterminal_stage_result")

/-- `finish_stage`. -/
def finishStage (p : WebsiteBuildPipeline) (stage : WebsiteBuildStage) (result : BuildResult) :
    Result WebsiteBuildPipeline :=
  if result.projectId ≠ p.projectId ∨ result.target ≠ .website then
    .error (buildError "web_build_result_scope_mismatch")
  else if p.state ≠ .running stage then .error (buildError "web_build_result_stage_mismatch")
  else
    match stateAfter stage result.state with
    | .error e => .error e
    | .ok state => .ok { p with state := state }

end WebsiteBuildPipeline

/-- `RunningWebsiteBuildStage::wait`; `answer` is what the job's own `wait` returned. -/
def RunningWebsiteBuildStage.wait (r : RunningWebsiteBuildStage) (answer : Result BuildResult) :
    Result (WebsiteBuildPipeline × BuildResult) :=
  match answer with
  | .error e => .error e
  | .ok result =>
    match r.pipeline.finishStage r.stage result with
    | .error e => .error e
    | .ok pipeline => .ok (pipeline, result)

/-! ## The Core's part -/

/-- What the rest of the core answers while a stage is started: the lifecycle gate, the workspace,
    the agent, a fresh inspection, and the process that was started. -/
structure StageAnswers where
  lifecycle : Result Unit
  verify : Result Unit
  quiescent : Result Unit
  inspection : Result WebsiteToolchainReport
  start : Result ProcessId

/-- `start_authorized_website_build_stage`; `buildId` is the fresh id of the job. -/
def startAuthorizedWebsiteBuildStage (answers : StageAnswers) (project : ProjectId)
    (pipeline : WebsiteBuildPipeline) (envelope : CommandExecutionEnvelope) (buildId : BuildId) :
    Result RunningWebsiteBuildStage := do
  answers.lifecycle
  if pipeline.projectId ≠ project then throw (buildError "web_build_project_scope_mismatch")
  answers.verify
  answers.quiescent
  let current ← answers.inspection
  pipeline.verifyToolchainUnchanged current
  pipeline.commandMatchesCurrentStage envelope.command
  let process ← answers.start
  pipeline.intoRunning {
    descriptor := { buildId := buildId, projectId := project, target := .website }
    processId := process }

end VibeCoder.Build
