/-
  What a website pipeline can do in any run: jobs are handed to it and results come back, whether
  they belong to it or not.

    * **the way to success** — a pipeline is `Succeeded` after exactly the stages its policy requires,
      in order, each with a result that succeeded (`History`);
    * **finality** — a pipeline that has succeeded, failed, was cancelled or timed out is never left;
    * **commands** — whatever version of whatever manager the manifest declares, an install command
      is a locked install, and disables the install scripts unless the policy allows them;
    * **scope** — jobs and results of another project, target or stage are refused.  A job does not
      say which stage it was started for; the core compares its command with that of the current
      stage before it starts one (`start_refuses`).

  A run holds one pipeline, as a pipeline or inside a running stage, until an error drops it.  Beside
  it stands the list of the results it has taken.
-/
import VibeCoder.Build.WebsitePipeline
import VibeCoder.Lib.Run

namespace VibeCoder.Build

open WebsiteBuildPipeline

/-! ## Install commands -/

/-- The version of Yarn that a manifest declares: `yarn@`, and the digits up to what is no digit. -/
structure DeclaresYarn (declaration : String) (major : Nat) : Prop where
  named : "yarn@".toList <+: declaration.toList
  digits : (declaration.toList.drop 5).takeWhile Char.isDigit ≠ []
  major : Nat.ofDigitChars 10 ((declaration.toList.drop 5).takeWhile Char.isDigit) 0 = major

/-- The arguments make the manager install what the lockfile says, or fail. -/
def LockedInstall (manager : PackageManager) (args : List String) : Prop :=
  match manager with
  | .npm => args.head? = some "ci"
  | .pnpm | .bun => args.head? = some "install" ∧ "--frozen-lockfile" ∈ args
  | .yarn => args.head? = some "install" ∧ ("--frozen-lockfile" ∈ args ∨ "--immutable" ∈ args)

/-- The arguments keep the manager from running install scripts.  The two generations of Yarn have
    two sets of flags, so that the declared version must be known. -/
def ScriptsDisabled (manager : PackageManager) (declaration : Option String) (args : List String) :
    Prop :=
  match manager with
  | .npm | .pnpm | .bun => "--ignore-scripts" ∈ args
  | .yarn => ∃ text major, declaration = some text ∧ DeclaresYarn text major ∧
      ((major = 1 ∧ "--frozen-lockfile" ∈ args ∧ "--ignore-scripts" ∈ args) ∨
        (2 ≤ major ∧ "--immutable" ∈ args ∧ "--mode=skip-build" ∈ args))

theorem parseU32_some {digits : List Char} {n : Nat} (h : parseU32 digits = some n) :
    digits ≠ [] ∧ Nat.ofDigitChars 10 digits 0 = n := by
  rw [parseU32] at h
  split at h
  · cases h
  rename_i hempty
  split at h
  · cases h
    refine ⟨?_, rfl⟩
    intro hnil
    rw [hnil] at hempty
    exact hempty rfl
  · cases h

/-- What Yarn is told. -/
theorem yarnLockedInstallArgs_ok {p : WebsiteBuildPipeline} {args : List String}
    (h : p.yarnLockedInstallArgs = .ok args) :
    LockedInstall .yarn args ∧ (p.policy.allowDependencyInstallScripts = false →
      ScriptsDisabled .yarn p.report.packageManagerDeclaration args) := by
  rw [yarnLockedInstallArgs] at h
  split at h
  · rename_i hallowed
    cases h
    refine ⟨⟨rfl, .inl (by simp)⟩, fun hforbidden => ?_⟩
    rw [hallowed] at hforbidden
    cases hforbidden
  split at h
  · cases h
  rename_i declaration hdeclared
  split at h
  · cases h
  rename_i hnamed
  have hnames : "yarn@".toList <+: declaration.toList := by
    rw [← List.isPrefixOf_iff_prefix]
    simpa using hnamed
  split at h
  · cases h
  · cases h
  · rename_i hone
    obtain ⟨hdigits, hmajor⟩ := parseU32_some hone
    cases h
    refine ⟨⟨rfl, .inl (by simp)⟩, fun _ => ?_⟩
    exact ⟨declaration, 1, hdeclared, ⟨hnames, hdigits, hmajor⟩, .inl ⟨rfl, by simp, by simp⟩⟩
  · rename_i major hzero hone hparsed
    obtain ⟨hdigits, hmajor⟩ := parseU32_some hparsed
    cases h
    have htwo : 2 ≤ major := by
      have h0 : major ≠ 0 := fun h => hzero (h ▸ rfl)
      have h1 : major ≠ 1 := fun h => hone (h ▸ rfl)
      omega
    refine ⟨⟨rfl, .inr (by simp)⟩, fun _ => ?_⟩
    exact ⟨declaration, major, hdeclared, ⟨hnames, hdigits, hmajor⟩,
      .inr ⟨htwo, by simp, by simp⟩⟩

/-- **Every install is locked, and runs no scripts unless the policy allows them.** -/
theorem installArgs_ok {p : WebsiteBuildPipeline} {manager : PackageManager} {args : List String}
    (h : p.installArgs manager = .ok args) :
    LockedInstall manager args ∧ (p.policy.allowDependencyInstallScripts = false →
      ScriptsDisabled manager p.report.packageManagerDeclaration args) := by
  rw [installArgs] at h
  split at h
  · cases h
  · cases h
  split at h
  · cases h
  rename_i locked hlocked
  by_cases hyarn : manager = .yarn
  · subst hyarn
    rw [if_neg (fun hflag => hflag.2 rfl)] at h
    cases h
    exact yarnLockedInstallArgs_ok hlocked
  · -- the three others take the same flag, at the end
    have hlock : LockedInstall manager locked ∧ LockedInstall manager (locked ++ ["--ignore-scripts"])
        ∧ (manager ≠ .yarn → ScriptsDisabled manager p.report.packageManagerDeclaration
          (locked ++ ["--ignore-scripts"])) := by
      cases manager with
      | npm =>
        cases hlocked
        exact ⟨rfl, rfl, fun _ => by simp [ScriptsDisabled]⟩
      | pnpm =>
        cases hlocked
        exact ⟨⟨rfl, by simp⟩, ⟨rfl, by simp⟩, fun _ => by simp [ScriptsDisabled]⟩
      | yarn => exact absurd rfl hyarn
      | bun =>
        cases hlocked
        exact ⟨⟨rfl, by simp⟩, ⟨rfl, by simp⟩, fun _ => by simp [ScriptsDisabled]⟩
    split at h
    · cases h
      exact ⟨hlock.2.1, fun _ => hlock.2.2 hyarn⟩
    · rename_i hflag
      cases h
      refine ⟨hlock.1, fun hforbidden => absurd ⟨?_, hyarn⟩ hflag⟩
      rw [hforbidden]
      rfl

/-- The install command of a pipeline is one of its manager, with such arguments. -/
theorem installCommand_ok {p : WebsiteBuildPipeline} {command : CommandSpec}
    (h : p.commandForStage .dependencyInstall = .ok command) :
    ∃ manager, p.report.packageManager = some manager ∧
      command.program = .runtimeTool manager.runtimeToolId ∧
      LockedInstall manager command.args ∧
      (p.policy.allowDependencyInstallScripts = false →
        ScriptsDisabled manager p.report.packageManagerDeclaration command.args) := by
  rw [commandForStage] at h
  split at h
  · cases h
  rename_i manager hmanager
  split at h
  · cases h
  rename_i args hargs
  cases h
  obtain ⟨hlocked, hscripts⟩ := installArgs_ok hargs
  exact ⟨manager, hmanager, rfl, hlocked, hscripts⟩

theorem LockedInstall.head {manager : PackageManager} {args : List String}
    (h : LockedInstall manager args) : args.head? = some "ci" ∨ args.head? = some "install" := by
  cases manager with
  | npm => exact .inl h
  | pnpm => exact .inr h.1
  | yarn => exact .inr h.1
  | bun => exact .inr h.1

/-- The commands of the two stages are never the same. -/
theorem commandForStage_ne {p : WebsiteBuildPipeline} {install build : CommandSpec}
    (hinstall : p.commandForStage .dependencyInstall = .ok install)
    (hbuild : p.commandForStage .buildScript = .ok build) : install ≠ build := by
  obtain ⟨manager, hmanager, -, hlocked, -⟩ := installCommand_ok hinstall
  have hargs : build.args = ["run", "build"] := by
    rw [commandForStage, hmanager] at hbuild
    cases hbuild
    rfl
  rintro rfl
  rw [hargs] at hlocked
  rcases hlocked.head with hhead | hhead
  · exact absurd hhead (by decide)
  · exact absurd hhead (by decide)

/-! ## Scope -/

theorem intoRunning_ok {p : WebsiteBuildPipeline} {job : RunningBuildJob}
    {r : RunningWebsiteBuildStage} (h : p.intoRunning job = .ok r) :
    p.state = .awaitingApproval r.stage ∧ job.descriptor.projectId = p.projectId ∧
      job.descriptor.target = .website ∧
      r = { pipeline := { p with state := .running r.stage }, stage := r.stage, running := job } := by
  rw [intoRunning] at h
  split at h
  · rename_i stage hstate
    split at h
    · cases h
    · rename_i hscope
      cases h
      rw [not_or, not_not, not_not] at hscope
      exact ⟨hstate, hscope.1, hscope.2, rfl⟩
  · cases h

theorem finishStage_ok {p q : WebsiteBuildPipeline} {stage : WebsiteBuildStage}
    {result : BuildResult} (h : p.finishStage stage result = .ok q) :
    result.projectId = p.projectId ∧ result.target = .website ∧ p.state = .running stage ∧
      ∃ state, stateAfter stage result.state = .ok state ∧ q = { p with state := state } := by
  rw [finishStage] at h
  split at h
  · cases h
  rename_i hscope
  split at h
  · cases h
  rename_i hstage
  split at h
  · cases h
  rename_i state hafter
  cases h
  rw [not_or, not_not, not_not] at hscope
  exact ⟨hscope.1, hscope.2, not_not.mp hstage, state, hafter, rfl⟩

theorem wait_ok {r : RunningWebsiteBuildStage} {answer : Result BuildResult}
    {p : WebsiteBuildPipeline} {result : BuildResult} (h : r.wait answer = .ok (p, result)) :
    r.pipeline.finishStage r.stage result = .ok p := by
  unfold RunningWebsiteBuildStage.wait at h
  split at h
  · cases h
  split at h
  · cases h
  rename_i hfinish
  cases h
  exact hfinish

/-- A stage that the core starts runs the command of that stage, on an unchanged project. -/
theorem startAuthorizedWebsiteBuildStage_ok {answers : StageAnswers} {project : ProjectId}
    {p : WebsiteBuildPipeline} {envelope : CommandExecutionEnvelope} {buildId : BuildId}
    {r : RunningWebsiteBuildStage}
    (h : startAuthorizedWebsiteBuildStage answers project p envelope buildId = .ok r) :
    p.projectId = project ∧ answers.inspection = .ok p.report ∧
      p.commandForStage r.stage = .ok envelope.command ∧ p.state = .awaitingApproval r.stage := by
  rw [startAuthorizedWebsiteBuildStage] at h
  simp only [bind, Except.bind, throw, throwThe, MonadExceptOf.throw] at h
  split at h
  · cases h
  split at h
  · cases h
  rename_i hproject
  rw [not_not] at hproject
  split at h
  · cases h
  split at h
  · cases h
  split at h
  · cases h
  rename_i current hinspected
  split at h
  · cases h
  rename_i hunchanged
  split at h
  · cases h
  rename_i hmatches
  split at h
  · cases h
  obtain ⟨hstate, -, -, -⟩ := intoRunning_ok h
  have hreport : p.report = current := by
    rw [verifyToolchainUnchanged] at hunchanged
    split at hunchanged
    · cases hunchanged
    · rename_i hsame
      exact not_not.mp hsame
  have hcommand : p.commandForStage r.stage = .ok envelope.command := by
    rw [commandMatchesCurrentStage, currentCommand, hstate] at hmatches
    simp only at hmatches
    split at hmatches
    · cases hmatches
    · rename_i command hcommand
      split at hmatches
      · cases hmatches
      · rename_i hsame
        rw [hcommand, not_not.mp hsame]
  refine ⟨hproject, ?_, hcommand, hstate⟩
  rw [hinspected, hreport]

/-! ## Runs -/

/-- What a caller holds of a pipeline. -/
inductive Holding where
  | pipeline (p : WebsiteBuildPipeline)
  | stage (r : RunningWebsiteBuildStage)
  | dropped

/-- A run, and the results it has taken so far, in order. -/
structure PipelineRun where
  holding : Holding
  taken : List (WebsiteBuildStage × BuildResult)

/-- What may happen to it: a job is handed to `into_running`, or `wait` gets an answer. -/
inductive PipelineEvent where
  | job (running : RunningBuildJob)
  | answer (result : Result BuildResult)

namespace PipelineRun

/-- The run of a new pipeline. -/
def start (p : WebsiteBuildPipeline) : PipelineRun := { holding := .pipeline p, taken := [] }

/-- One call.  The two other combinations cannot be written in the source. -/
def step (s : PipelineRun) (event : PipelineEvent) : PipelineRun :=
  match s.holding, event with
  | .pipeline p, .job running =>
    match p.intoRunning running with
    | .error _ => { s with holding := .dropped }
    | .ok r => { s with holding := .stage r }
  | .stage r, .answer result =>
    match r.wait result with
    | .error _ => { s with holding := .dropped }
    | .ok (p, result) => { holding := .pipeline p, taken := s.taken ++ [(r.stage, result)] }
  | _, _ => s

theorem step_job (p : WebsiteBuildPipeline) (taken : List (WebsiteBuildStage × BuildResult))
    (running : RunningBuildJob) :
    ({ holding := .pipeline p, taken := taken } : PipelineRun).step (.job running) =
      match p.intoRunning running with
      | .error _ => { holding := .dropped, taken := taken }
      | .ok r => { holding := .stage r, taken := taken } := rfl

theorem step_answer (r : RunningWebsiteBuildStage)
    (taken : List (WebsiteBuildStage × BuildResult)) (result : Result BuildResult) :
    ({ holding := .stage r, taken := taken } : PipelineRun).step (.answer result) =
      match r.wait result with
      | .error _ => { holding := .dropped, taken := taken }
      | .ok (p, result) =>
        { holding := .pipeline p, taken := taken ++ [(r.stage, result)] } := rfl

end PipelineRun

/-! ## The way to success -/

/-- The stages a policy requires, in order. -/
def requiredStages (policy : WebsiteBuildPolicy) : List WebsiteBuildStage :=
  if policy.installDependencies then [.dependencyInstall, .buildScript] else [.buildScript]

/-- The required stages before this one. -/
def stagesBefore (policy : WebsiteBuildPolicy) : WebsiteBuildStage → List WebsiteBuildStage
  | .dependencyInstall => []
  | .buildScript => if policy.installDependencies then [.dependencyInstall] else []

/-- A result of the project's own website build. -/
def InScope (project : ProjectId) (result : BuildResult) : Prop :=
  result.projectId = project ∧ result.target = .website

/-- These stages were passed, each with a result that succeeded. -/
structure Passed (project : ProjectId) (stages : List WebsiteBuildStage)
    (taken : List (WebsiteBuildStage × BuildResult)) : Prop where
  stages : taken.map Prod.fst = stages
  succeeded : ∀ entry ∈ taken, InScope project entry.2 ∧ entry.2.state = .succeeded

/-- The stages before some required one were passed, and that one ended so. -/
def EndedBy (project : ProjectId) (policy : WebsiteBuildPolicy) (ended : BuildState)
    (taken : List (WebsiteBuildStage × BuildResult)) : Prop :=
  ∃ before stage result, taken = before ++ [(stage, result)] ∧ stage ∈ requiredStages policy ∧
    Passed project (stagesBefore policy stage) before ∧ InScope project result ∧
    result.state = ended

/-- What has been taken when a pipeline is in a state. -/
def History (project : ProjectId) (policy : WebsiteBuildPolicy)
    (taken : List (WebsiteBuildStage × BuildResult)) : WebsiteBuildPipelineState → Prop
  | .noBuildRequired => taken = []
  | .awaitingApproval stage | .running stage =>
    stage ∈ requiredStages policy ∧ Passed project (stagesBefore policy stage) taken
  | .succeeded => Passed project (requiredStages policy) taken
  | .failed => EndedBy project policy .failed taken
  | .cancelled => EndedBy project policy .cancelled taken
  | .timedOut => EndedBy project policy .timedOut taken

/-- What holds of every state of a run. -/
def RunLaw (project : ProjectId) (report : WebsiteToolchainReport) (policy : WebsiteBuildPolicy)
    (s : PipelineRun) : Prop :=
  match s.holding with
  | .pipeline p =>
    p.projectId = project ∧ p.report = report ∧ p.policy = policy ∧
      (∀ stage, p.state ≠ .running stage) ∧ History project policy s.taken p.state
  | .stage r =>
    r.pipeline.projectId = project ∧ r.pipeline.report = report ∧ r.pipeline.policy = policy ∧
      r.pipeline.state = .running r.stage ∧
      (r.running.descriptor.projectId = project ∧ r.running.descriptor.target = .website) ∧
      History project policy s.taken (.running r.stage)
  | .dropped => True

variable {project : ProjectId} {report : WebsiteToolchainReport} {policy : WebsiteBuildPolicy}

theorem Passed.append {stages : List WebsiteBuildStage}
    {taken : List (WebsiteBuildStage × BuildResult)} (h : Passed project stages taken)
    {stage : WebsiteBuildStage} {result : BuildResult} (hscope : InScope project result)
    (hstate : result.state = .succeeded) :
    Passed project (stages ++ [stage]) (taken ++ [(stage, result)]) := by
  refine ⟨?_, fun entry hentry => ?_⟩
  · rw [List.map_append, h.stages]
    rfl
  · rcases List.mem_append.mp hentry with hold | hnew
    · exact h.succeeded entry hold
    · rw [List.mem_singleton.mp hnew]
      exact ⟨hscope, hstate⟩

/-- A new pipeline has taken nothing. -/
theorem runLaw_start {uuid : BitVec 128} {p : WebsiteBuildPipeline}
    (h : WebsiteBuildPipeline.new uuid project report policy = .ok p) :
    RunLaw project report policy (PipelineRun.start p) := by
  rw [WebsiteBuildPipeline.new] at h
  split at h
  · cases h
  rename_i state hstate
  cases h
  have hnone : Passed project [] [] := ⟨rfl, fun entry hentry => absurd hentry List.not_mem_nil⟩
  refine ⟨rfl, rfl, rfl, ?_, ?_⟩
  · intro stage hrunning
    change state = .running stage at hrunning
    subst hrunning
    rw [initialState] at hstate
    repeat' split at hstate
    all_goals cases hstate
  · show History project policy [] state
    rw [initialState] at hstate
    split at hstate
    · split at hstate
      · cases hstate
      · cases hstate
        rfl
    split at hstate
    · cases hstate
    split at hstate
    · rename_i hinstall
      split at hstate
      · cases hstate
        refine ⟨?_, hnone⟩
        rw [requiredStages, if_pos hinstall]
        exact List.mem_cons_self
      · cases hstate
      · cases hstate
    · rename_i hinstall
      cases hstate
      refine ⟨?_, ?_⟩
      · rw [requiredStages, if_neg hinstall]
        exact List.mem_singleton_self _
      · rw [stagesBefore, if_neg hinstall]
        exact hnone

/-- A result of the running stage moves the history on. -/
theorem history_after {taken : List (WebsiteBuildStage × BuildResult)} {stage : WebsiteBuildStage}
    {result : BuildResult} {state : WebsiteBuildPipelineState}
    (h : History project policy taken (.running stage)) (hscope : InScope project result)
    (hafter : stateAfter stage result.state = .ok state) :
    History project policy (taken ++ [(stage, result)]) state ∧ ∀ s, state ≠ .running s := by
  obtain ⟨hrequired, hpassed⟩ := h
  have hended : ∀ ended, result.state = ended →
      EndedBy project policy ended (taken ++ [(stage, result)]) := by
    intro ended hstate
    exact ⟨taken, stage, result, rfl, hrequired, hpassed, hscope, hstate⟩
  cases hresult : result.state with
  | queued => rw [hresult] at hafter; cases hafter
  | running => rw [hresult] at hafter; cases hafter
  | failed =>
    rw [hresult] at hafter
    cases hafter
    exact ⟨hended _ hresult, fun s => by simp⟩
  | cancelled =>
    rw [hresult] at hafter
    cases hafter
    exact ⟨hended _ hresult, fun s => by simp⟩
  | timedOut =>
    rw [hresult] at hafter
    cases hafter
    exact ⟨hended _ hresult, fun s => by simp⟩
  | succeeded =>
    rw [hresult] at hafter
    have hlonger : Passed project (stagesBefore policy stage ++ [stage])
        (taken ++ [(stage, result)]) := hpassed.append hscope hresult
    cases stage with
    | dependencyInstall =>
      -- the install was required, so the build stage comes after it
      cases hafter
      have hinstall : policy.installDependencies = true := by
        by_contra hno
        rw [requiredStages, if_neg hno] at hrequired
        exact absurd (List.mem_singleton.mp hrequired) (by decide)
      refine ⟨⟨?_, ?_⟩, fun s => by simp⟩
      · rw [requiredStages, if_pos hinstall]
        exact List.mem_cons_of_mem _ List.mem_cons_self
      · rw [stagesBefore, if_pos hinstall]
        exact hlonger
    | buildScript =>
      cases hafter
      refine ⟨?_, fun s => by simp⟩
      show Passed project (requiredStages policy) _
      have hall : stagesBefore policy .buildScript ++ [.buildScript] = requiredStages policy := by
        rw [stagesBefore, requiredStages]
        split
        · rfl
        · rfl
      rw [← hall]
      exact hlonger

/-- **Step lemma.** -/
theorem runLaw_step (s : PipelineRun) (event : PipelineEvent)
    (h : RunLaw project report policy s) : RunLaw project report policy (s.step event) := by
  obtain ⟨holding, taken⟩ := s
  cases holding with
  | dropped =>
    cases event with
    | job running => exact trivial
    | answer result => exact trivial
  | pipeline p =>
    cases event with
    | answer result => exact h
    | job running =>
      obtain ⟨hproject, hreport, hpolicy, -, hhistory⟩ := h
      rw [PipelineRun.step_job]
      split
      · exact trivial
      · rename_i r hr
        obtain ⟨hstate, hjob, htarget, heq⟩ := intoRunning_ok hr
        have hawaiting : History project policy taken (.awaitingApproval r.stage) := by
          rw [← hstate]
          exact hhistory
        rw [heq]
        exact ⟨hproject, hreport, hpolicy, rfl, ⟨hjob.trans hproject, htarget⟩, hawaiting⟩
  | stage r =>
    cases event with
    | job running => exact h
    | answer result =>
      obtain ⟨hproject, hreport, hpolicy, hstate, -, hhistory⟩ := h
      rw [PipelineRun.step_answer]
      split
      · exact trivial
      · rename_i p result hwait
        obtain ⟨hscope, htarget, -, state, hafter, rfl⟩ := finishStage_ok (wait_ok hwait)
        obtain ⟨hmoved, hsettled⟩ := history_after hhistory ⟨hscope.trans hproject, htarget⟩ hafter
        exact ⟨hproject, hreport, hpolicy, hsettled, hmoved⟩

/-! ## Finality -/

theorem isTerminal_not_awaiting {state : WebsiteBuildPipelineState} (h : state.isTerminal = true)
    (stage : WebsiteBuildStage) : state ≠ .awaitingApproval stage := by
  rintro rfl
  cases h

/-- Nothing can be done with a pipeline that has ended but to drop it. -/
theorem final_step {q : WebsiteBuildPipeline} {taken : List (WebsiteBuildStage × BuildResult)}
    (hfinal : q.state.isTerminal = true) (s : PipelineRun) (event : PipelineEvent)
    (h : (s.holding = .pipeline q ∨ s.holding = .dropped) ∧ s.taken = taken) :
    ((s.step event).holding = .pipeline q ∨ (s.step event).holding = .dropped) ∧
      (s.step event).taken = taken := by
  obtain ⟨holding, before⟩ := s
  obtain ⟨hheld, rfl⟩ := h
  rcases hheld with rfl | rfl
  · cases event with
    | answer result => exact ⟨.inl rfl, rfl⟩
    | job running =>
      rw [PipelineRun.step_job]
      split
      · exact ⟨.inr rfl, rfl⟩
      · rename_i r hr
        exact absurd (intoRunning_ok hr).1 (isTerminal_not_awaiting hfinal r.stage)
  · cases event with
    | job running => exact ⟨.inr rfl, rfl⟩
    | answer result => exact ⟨.inr rfl, rfl⟩

/-- A command that is not the one of the current stage starts nothing. -/
theorem start_refuses {answers : StageAnswers} {p : WebsiteBuildPipeline}
    {envelope : CommandExecutionEnvelope} {buildId : BuildId} {stage : WebsiteBuildStage}
    (hstate : p.state = .awaitingApproval stage)
    (h : p.commandForStage stage ≠ .ok envelope.command) :
    ∃ e, startAuthorizedWebsiteBuildStage answers project p envelope buildId = .error e := by
  cases hstart : startAuthorizedWebsiteBuildStage answers project p envelope buildId with
  | error e => exact ⟨e, rfl⟩
  | ok r =>
    obtain ⟨-, -, hcommand, hcurrent⟩ := startAuthorizedWebsiteBuildStage_ok hstart
    rw [hstate] at hcurrent
    cases hcurrent
    exact absurd hcommand h

theorem intoRunning_refuses {p : WebsiteBuildPipeline} {job : RunningBuildJob}
    (h : job.descriptor.projectId ≠ p.projectId ∨ job.descriptor.target ≠ .website) :
    ∃ e, p.intoRunning job = .error e := by
  cases hrun : p.intoRunning job with
  | error e => exact ⟨e, rfl⟩
  | ok r =>
    obtain ⟨-, hproject, htarget, -⟩ := intoRunning_ok hrun
    rcases h with h | h
    · exact absurd hproject h
    · exact absurd htarget h

theorem finishStage_refuses {p : WebsiteBuildPipeline} {stage : WebsiteBuildStage}
    {result : BuildResult}
    (h : result.projectId ≠ p.projectId ∨ result.target ≠ .website ∨ p.state ≠ .running stage) :
    ∃ e, p.finishStage stage result = .error e := by
  cases hfinish : p.finishStage stage result with
  | error e => exact ⟨e, rfl⟩
  | ok q =>
    obtain ⟨hproject, htarget, hstage, -⟩ := finishStage_ok hfinish
    rcases h with h | h | h
    · exact absurd hproject h
    · exact absurd htarget h
    · exact absurd hstage h

/-- **What a website pipeline does in any run.**  Every state of every run has the history its
    pipeline's state tells; a pipeline that has ended stays as it is until it is dropped; every
    install command is locked and runs no scripts against the policy; and a job or result of another
    project or target, a result of another stage, and a command of another stage are refused. -/
theorem website_pipeline_law (uuid : BitVec 128) (project : ProjectId)
    (report : WebsiteToolchainReport) (policy : WebsiteBuildPolicy) {p : WebsiteBuildPipeline}
    (h : WebsiteBuildPipeline.new uuid project report policy = .ok p) :
    (∀ events, Runs.Always PipelineRun.step (RunLaw project report policy) (.start p) events) ∧
    (∀ events later q,
      (Runs.play PipelineRun.step (.start p) events).holding = .pipeline q →
      q.state.isTerminal = true →
      let after := Runs.play PipelineRun.step (.start p) (events ++ later)
      (after.holding = .pipeline q ∨ after.holding = .dropped) ∧
        after.taken = (Runs.play PipelineRun.step (.start p) events).taken) ∧
    (∀ (q : WebsiteBuildPipeline) command, q.state = .awaitingApproval .dependencyInstall →
      q.currentCommand = .ok command →
      ∃ manager, q.report.packageManager = some manager ∧
        command.program = .runtimeTool manager.runtimeToolId ∧
        LockedInstall manager command.args ∧
        (q.policy.allowDependencyInstallScripts = false →
          ScriptsDisabled manager q.report.packageManagerDeclaration command.args)) ∧
    (∀ (q : WebsiteBuildPipeline) (job : RunningBuildJob),
      job.descriptor.projectId ≠ q.projectId ∨ job.descriptor.target ≠ .website →
      ∃ e, q.intoRunning job = .error e) ∧
    (∀ (q : WebsiteBuildPipeline) stage (result : BuildResult),
      result.projectId ≠ q.projectId ∨ result.target ≠ .website ∨ q.state ≠ .running stage →
      ∃ e, q.finishStage stage result = .error e) ∧
    (∀ (q : WebsiteBuildPipeline) stage answers caller (envelope : CommandExecutionEnvelope) buildId,
      q.state = .awaitingApproval stage → q.commandForStage stage ≠ .ok envelope.command →
      ∃ e, startAuthorizedWebsiteBuildStage answers caller q envelope buildId = .error e) ∧
    (∀ (q : WebsiteBuildPipeline) install build,
      q.commandForStage .dependencyInstall = .ok install →
      q.commandForStage .buildScript = .ok build → install ≠ build) := by
  refine ⟨?_, ?_, ?_, ?_, ?_, ?_, ?_⟩
  · intro events
    exact Runs.always_invariant _ runLaw_step (fun _ hlaw => hlaw) (runLaw_start h) events
  · intro events later q hheld hfinal
    simp only [Runs.play_append]
    exact Runs.play_invariant _ (final_step hfinal) ⟨.inl hheld, rfl⟩ later
  · intro q command hstate hcommand
    rw [currentCommand, hstate] at hcommand
    exact installCommand_ok hcommand
  · intro q job hother
    exact intoRunning_refuses hother
  · intro q stage result hother
    exact finishStage_refuses hother
  · intro q stage answers caller envelope buildId hstate hother
    exact start_refuses hstate hother
  · intro q install build hinstall hbuild
    exact commandForStage_ne hinstall hbuild

/-- A project built with Yarn 4, and a run that installs and builds. -/
def yarnReport : WebsiteToolchainReport where
  framework := .vite
  packageManager := some .yarn
  packageManagerDeclaration := some "yarn@4.1.0"
  nodeRequirement := some { enginesNode := none }
  packageName := some "site"
  hasBuildScript := true
  buildIntent := {
    packageManager := some .yarn
    install := .locked
    buildScriptName := some "build" }
  manifestSha256Hex := ""
  lockfileRelativePath := some "yarn.lock"
  lockfileSha256Hex := some ""

def yarnJob : RunningBuildJob where
  descriptor := { buildId := ⟨2⟩, projectId := ⟨1⟩, target := .website }
  processId := ⟨3⟩

def yarnSuccess : BuildResult where
  buildId := ⟨2⟩
  projectId := ⟨1⟩
  target := .website
  state := .succeeded
  exitCode := some 0
  output := {
    stdout := []
    stderr := []
    stdoutTruncated := false
    stderrTruncated := false
    liveEventQueueOverflowed := false }
  diagnostics := []

def yarnEvents : List PipelineEvent :=
  [.job yarnJob, .answer (.ok yarnSuccess), .job yarnJob, .answer (.ok yarnSuccess)]

theorem website_pipeline_law_yarn :
    ∃ p, WebsiteBuildPipeline.new 0 ⟨1⟩ yarnReport .default = .ok p ∧
      p.currentCommand = .ok {
        program := .runtimeTool "yarn"
        args := ["install", "--immutable", "--mode=skip-build"]
        workingDir := "." } ∧
      (∃ q, (Runs.play PipelineRun.step (.start p) yarnEvents).holding = .pipeline q ∧
        q.state = .succeeded) ∧
      Runs.Always PipelineRun.step (RunLaw ⟨1⟩ yarnReport .default) (.start p) yarnEvents :=
  ⟨_, rfl, by decide, ⟨_, rfl, rfl⟩,
    (website_pipeline_law 0 ⟨1⟩ yarnReport .default rfl).1 yarnEvents⟩

end VibeCoder.Build
