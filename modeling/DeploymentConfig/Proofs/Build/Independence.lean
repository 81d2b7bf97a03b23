import DeploymentConfig.Proofs.Build.Conversion

/-!
# Independent axes

A step of editing a configuration is on one of the two axes (`Step.axis`). It
leaves the other as it is, and what it makes of its own depends on that one only;
so an axis comes out of a run as it would if the steps on the other had been left
out (`run_deploy`, `run_build`), whatever their order among each other. Selecting
the type that an axis has changes nothing (`selectDeploy_type`,
`selectBuild_type`).

* `axes_independent`: what this says of runs, of the configuration that is sent
  afterwards, and of a configuration that was loaded and only looked at.
-/

namespace DeploymentConfig

/-! ## Runs seen in part -/

/-- What is seen of a run depends only on the steps that are seen, if the others change nothing that
is seen, and these depend on nothing else. -/
theorem view_foldl_filter {σ α β : Type} (step : σ → α → σ) (view : σ → β) (seen : α → Bool)
    (hskip : ∀ s a, seen a = false → view (step s a) = view s)
    (hcongr : ∀ s t a, view s = view t → view (step s a) = view (step t a)) {s t : σ}
    (h : view s = view t) (steps : List α) :
    view (steps.foldl step s) = view ((steps.filter seen).foldl step t) := by
  induction steps generalizing s t with
  | nil => exact h
  | cons a steps ih =>
    by_cases ha : seen a = true
    · rw [List.filter_cons_of_pos ha]
      exact ih (hcongr s t a h)
    · rw [List.filter_cons_of_neg ha]
      exact ih ((hskip s a (Bool.not_eq_true _ ▸ ha)).trans h)

namespace ConfigForm

variable {f g : ConfigForm} {deploy : DeployConfig} {build : BuildConfig}

/-! ## Selections -/

theorem selectDeploy_deploy (t : DeployType) (f : ConfigForm) : (f.selectDeploy t).deploy =
    if f.deploy.any (·.type = t) then f.deploy else some (.ofType t) := by
  rw [selectDeploy, apply_ite ConfigForm.deploy]

theorem selectDeploy_build (t : DeployType) (f : ConfigForm) :
    (f.selectDeploy t).build = f.build := by
  rw [selectDeploy, apply_ite ConfigForm.build, ite_self]

theorem selectBuild_build (t : BuildType) (f : ConfigForm) : (f.selectBuild t).build =
    if f.build.any (·.type = t) then f.build else some (.ofType t) := by
  rw [selectBuild, apply_ite ConfigForm.build]

theorem selectBuild_deploy (t : BuildType) (f : ConfigForm) :
    (f.selectBuild t).deploy = f.deploy := by
  rw [selectBuild, apply_ite ConfigForm.deploy, ite_self]

theorem selectDeploy_type (h : f.deploy = some deploy) : f.selectDeploy deploy.type = f :=
  if_pos (by simp [h])

theorem selectBuild_type (h : f.build = some build) : f.selectBuild build.type = f :=
  if_pos (by simp [h])

/-! ## Steps -/

inductive Axis where
  | deploy
  | build
  deriving DecidableEq

/-- What can happen to a form while it is edited. -/
inductive Step where
  | selectDeploy (t : DeployType)
  | setDeploy (deploy : Option DeployConfig)
  | selectBuild (t : BuildType)
  | setBuild (build : Option BuildConfig)

def Step.axis : Step → Axis
  | selectDeploy _ | setDeploy _ => .deploy
  | selectBuild _ | setBuild _ => .build

def step (f : ConfigForm) : Step → ConfigForm
  | .selectDeploy t => f.selectDeploy t
  | .setDeploy deploy => { f with deploy }
  | .selectBuild t => f.selectBuild t
  | .setBuild build => { f with build }

/-- The form after a run of steps. -/
def run (f : ConfigForm) (steps : List Step) : ConfigForm :=
  steps.foldl step f

/-- The steps of a run that are on an axis. -/
def stepsOn (axis : Axis) (steps : List Step) : List Step :=
  steps.filter (·.axis = axis)

theorem step_deploy_of_ne {step : Step} (h : step.axis ≠ .deploy) :
    (f.step step).deploy = f.deploy := by
  cases step with
  | selectDeploy | setDeploy => exact absurd rfl h
  | selectBuild t => exact selectBuild_deploy t f
  | setBuild => rfl

theorem step_build_of_ne {step : Step} (h : step.axis ≠ .build) :
    (f.step step).build = f.build := by
  cases step with
  | selectDeploy t => exact selectDeploy_build t f
  | setDeploy => rfl
  | selectBuild | setBuild => exact absurd rfl h

theorem step_deploy_congr (h : f.deploy = g.deploy) (step : Step) :
    (f.step step).deploy = (g.step step).deploy := by
  cases step with
  | selectDeploy t => simp only [ConfigForm.step, selectDeploy_deploy, h]
  | setDeploy => rfl
  | selectBuild t => simp only [ConfigForm.step, selectBuild_deploy, h]
  | setBuild => exact h

theorem step_build_congr (h : f.build = g.build) (step : Step) :
    (f.step step).build = (g.step step).build := by
  cases step with
  | selectDeploy t => simp only [ConfigForm.step, selectDeploy_build, h]
  | setDeploy => exact h
  | selectBuild t => simp only [ConfigForm.step, selectBuild_build, h]
  | setBuild => rfl

/-! ## Runs -/

theorem run_deploy (f : ConfigForm) (steps : List Step) :
    (f.run steps).deploy = (f.run (stepsOn .deploy steps)).deploy :=
  view_foldl_filter step (·.deploy) (·.axis = .deploy)
    (fun _ _ ha => step_deploy_of_ne (of_decide_eq_false ha))
    (fun _ _ a h => step_deploy_congr h a) rfl steps

theorem run_build (f : ConfigForm) (steps : List Step) :
    (f.run steps).build = (f.run (stepsOn .build steps)).build :=
  view_foldl_filter step (·.build) (·.axis = .build)
    (fun _ _ ha => step_build_of_ne (of_decide_eq_false ha))
    (fun _ _ a h => step_build_congr h a) rfl steps

/-- Runs with the same steps on each axis lead to the same form. -/
theorem run_congr {steps more : List Step} (h : ∀ axis, stepsOn axis steps = stepsOn axis more)
    (f : ConfigForm) : f.run steps = f.run more := by
  have hd : (f.run steps).deploy = (f.run more).deploy := by
    rw [run_deploy f steps, run_deploy f more, h .deploy]
  have hb : (f.run steps).build = (f.run more).build := by
    rw [run_build f steps, run_build f more, h .build]
  calc
    f.run steps = ⟨(f.run steps).deploy, (f.run steps).build⟩ := rfl
    _ = ⟨(f.run more).deploy, (f.run more).build⟩ := by rw [hd, hb]

theorem run_eq_self {steps : List Step} (h : ∀ step ∈ steps, f.step step = f) :
    f.run steps = f :=
  List.foldlRecOn steps step (motive := (· = f)) rfl fun _ hg step hm => hg ▸ h step hm

/-- An axis stays as it is filled in while no type but its own is selected on it. -/
theorem run_deploy_of_reselected (h : f.deploy = some deploy) {steps : List Step}
    (hs : ∀ step ∈ stepsOn .deploy steps, step = .selectDeploy deploy.type) :
    (f.run steps).deploy = some deploy := by
  rw [run_deploy, run_eq_self fun step hm => hs step hm ▸ selectDeploy_type h, h]

theorem run_build_of_reselected (h : f.build = some build) {steps : List Step}
    (hs : ∀ step ∈ stepsOn .build steps, step = .selectBuild build.type) :
    (f.run steps).build = some build := by
  rw [run_build, run_eq_self fun step hm => hs step hm ▸ selectBuild_type h, h]

end ConfigForm

/-! ## Configurations that are loaded -/

namespace BuildMessage

/-- The deploy type that a kind of message is for. -/
def deployType : BuildMessage → DeployType
  | runtimeBuildpack .. | runtimeCmd .. | runtimeDockerfile .. => .runtime
  | staticBuildpack .. | staticCmd .. | staticDockerfile .. => .static

/-- The build type that a kind of message is for. -/
def buildType : BuildMessage → BuildType
  | runtimeBuildpack .. | staticBuildpack .. => .buildpack
  | runtimeCmd .. | staticCmd .. => .cmd
  | runtimeDockerfile .. | staticDockerfile .. => .dockerfile

theorem type_axes (m : BuildMessage) :
    m.axes.1.type = m.deployType ∧ m.axes.2.type = m.buildType := by
  cases m <;> exact ⟨rfl, rfl⟩

/-- Selecting the types of a message changes nothing in its form. -/
theorem run_axes (m : BuildMessage) {steps : List ConfigForm.Step}
    (h : ∀ step ∈ steps, step = .selectDeploy m.deployType ∨ step = .selectBuild m.buildType) :
    ConfigForm.run ⟨some m.axes.1, some m.axes.2⟩ steps = ⟨some m.axes.1, some m.axes.2⟩ := by
  refine ConfigForm.run_eq_self fun step hm => ?_
  rcases h step hm with rfl | rfl
  · rw [← m.type_axes.1]
    exact ConfigForm.selectDeploy_type rfl
  · rw [← m.type_axes.2]
    exact ConfigForm.selectBuild_type rfl

end BuildMessage

namespace ConfigForm

/-- Each axis comes out of a run as if the steps on the other were left out, so that the order of
steps on different axes does not matter, to the form or to what it submits. An axis on which its own
type is selected keeps what is filled in; a form that is loaded, and then only has the types of its
message selected, submits what it would have submitted at once. -/
theorem axes_independent (f : ConfigForm) (steps : List Step) :
    ((f.run steps).deploy = (f.run (stepsOn .deploy steps)).deploy ∧
      (f.run steps).build = (f.run (stepsOn .build steps)).build) ∧
    (∀ more, (∀ axis, stepsOn axis more = stepsOn axis steps) →
      f.run more = f.run steps ∧ (f.run more).config = (f.run steps).config) ∧
    (∀ deploy, f.deploy = some deploy →
      (∀ step ∈ stepsOn .deploy steps, step = .selectDeploy deploy.type) →
        (f.run steps).deploy = some deploy) ∧
    (∀ build, f.build = some build →
      (∀ step ∈ stepsOn .build steps, step = .selectBuild build.type) →
        (f.run steps).build = some build) ∧
    ∀ m : BuildMessage,
      (∀ step ∈ steps, step = .selectDeploy m.deployType ∨ step = .selectBuild m.buildType) →
        ∃ form, ApplicationConfig.form ⟨some (.known m)⟩ = .ok form ∧
          (form.run steps).config = form.config ∧
          (m.issues = [] → (form.run steps).config = .ok ⟨some (.known m)⟩) ∧
          (m.issues ≠ [] → (form.run steps).config = .error (.invalid ⟨m.issues⟩)) := by
  refine ⟨⟨run_deploy f steps, run_build f steps⟩, fun more h => ?_,
    fun deploy h hs => run_deploy_of_reselected h hs,
    fun build h hs => run_build_of_reselected h hs, fun m hs => ?_⟩
  · rw [run_congr h]
    exact ⟨rfl, rfl⟩
  · refine ⟨⟨some m.axes.1, some m.axes.2⟩, rfl, ?_⟩
    rw [m.run_axes hs]
    exact ⟨rfl, (ApplicationConfig.config_axes_eq_ok_iff m).mpr,
      ApplicationConfig.config_axes_eq_error⟩

/-- A website that is served from files, and built with a Dockerfile. -/
def servedFiles : BuildMessage :=
  .staticDockerfile "dist" true "Dockerfile" "."

/-- Its own types are selected again, the build type twice. -/
def reselected : List Step :=
  [.selectBuild .dockerfile, .selectDeploy .static, .selectBuild .dockerfile]

theorem axes_independent_reselected :
    (∀ step ∈ reselected,
        step = .selectDeploy servedFiles.deployType ∨ step = .selectBuild servedFiles.buildType) ∧
      (∃ form, ApplicationConfig.form ⟨some (.known servedFiles)⟩ = .ok form ∧
        (form.run reselected).config = .ok ⟨some (.known servedFiles)⟩) ∧
      run ⟨none, some (.cmd "node" "make")⟩ [.selectBuild .dockerfile, .selectBuild .dockerfile,
          .selectDeploy .static] =
        run ⟨none, some (.cmd "node" "make")⟩ reselected := by
  have hs : ∀ step ∈ reselected,
      step = .selectDeploy servedFiles.deployType ∨ step = .selectBuild servedFiles.buildType := by
    simp only [reselected, List.forall_mem_cons]
    exact ⟨.inr rfl, .inl rfl, .inr rfl, List.forall_mem_nil _⟩
  have hi := axes_independent ⟨none, some (.cmd "node" "make")⟩ reselected
  obtain ⟨form, hf, -, hc, -⟩ := hi.2.2.2.2 servedFiles hs
  refine ⟨hs, ⟨form, hf, hc (by decide)⟩, (hi.2.1 _ fun axis => ?_).1⟩
  cases axis <;> rfl

end ConfigForm

end DeploymentConfig
