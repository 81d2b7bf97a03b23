import DeploymentConfig.Proofs.Host.Serving
import DeploymentConfig.Website.Check

/-!
# Where a form that passes stands

A form is checked against the first entry that is spelled like its domain, which
need not be the entry that serves its name:

* `check_eq_ok_iff`: a form passes if it fits on that entry, and its path and port are valid;
* `respects_serving_iff`: a form that passes respects the entry that serves its
  name if and only if it respects the entry that diverts the name, if one does;
* `bypass_of_shadowed_wildcard`: under a wildcard, a form can so take the name of
  a bound entry, and ask for authentication where there is none.
-/

namespace DeploymentConfig.WebsiteForm

variable {f : WebsiteForm} {domains : List AvailableDomain} {baseline : Option WebsiteSettings}
  {d : AvailableDomain}

/-- What an entry asks of a website that it serves: to do without authentication if it offers none,
and to be there already if the entry is no wildcard and bound. -/
structure Respects (f : WebsiteForm) (baseline : Option WebsiteSettings) (d : AvailableDomain) :
    Prop where
  authentication : f.authentication.isRequired = true → d.authAvailable = true
  binding : d.isWildcard = false → d.alreadyBound = true →
    ∃ w, baseline = some w ∧ w.fqdn = f.settings.fqdn

/-- What an entry asks of a website that is placed on it. -/
structure Fits (f : WebsiteForm) (baseline : Option WebsiteSettings) (d : AvailableDomain) : Prop
    extends f.Respects baseline d where
  subdomain : d.isWildcard = true → Text.isBlank f.subdomain = false

theorem settings_fqdn (f : WebsiteForm) : f.settings.fqdn = f.host.fqdn := rfl

theorem authenticationIssues_eq_nil_iff :
    f.authenticationIssues d = [] ↔
      (f.authentication.isRequired = true → d.authAvailable = true) := by
  cases ha : f.authentication.isRequired <;> cases hd : d.authAvailable <;>
    simp [authenticationIssues, ha, hd]

theorem placeIssues_eq_nil_iff :
    f.placeIssues d baseline = [] ↔ (d.isWildcard = true → Text.isBlank f.subdomain = false) ∧
      (d.isWildcard = false → d.alreadyBound = true →
        ∃ w, baseline = some w ∧ w.fqdn = f.settings.fqdn) := by
  rw [placeIssues, settings_fqdn]
  cases hw : d.isWildcard with
  | true => cases hb : Text.isBlank f.subdomain <;> simp
  | false =>
    cases hb : d.alreadyBound with
    | false => simp
    | true => cases baseline <;> simp

theorem domainIssues_eq_nil_iff :
    f.domainIssues domains baseline = [] ↔
      Text.isBlank f.domain = false ∧
        ∃ d, listed? domains f.domain = some d ∧ f.Fits baseline d := by
  rw [domainIssues]
  cases hb : Text.isBlank f.domain with
  | true => simp
  | false =>
    cases hd : listed? domains f.domain with
    | none => simp
    | some d =>
      simp only [Bool.false_eq_true, ite_false, List.append_eq_nil_iff, placeIssues_eq_nil_iff,
        authenticationIssues_eq_nil_iff, Option.some.injEq, true_and, exists_eq_left']
      exact ⟨fun ⟨⟨hs, hb⟩, ha⟩ => ⟨⟨ha, hb⟩, hs⟩,
        fun h => ⟨⟨h.subdomain, h.binding⟩, h.authentication⟩⟩

theorem pathIssues_eq_nil_iff : f.pathIssues = [] ↔ f.pathPrefix.toList.head? = some '/' := by
  simp [pathIssues]

theorem issues_eq_nil_iff :
    f.issues domains baseline = [] ↔
      (Text.isBlank f.domain = false ∧ ∃ d, listed? domains f.domain = some d ∧ f.Fits baseline d) ∧
        f.pathPrefix.toList.head? = some '/' ∧ Port.isValid f.httpPort = true := by
  rw [issues, List.append_eq_nil_iff, List.append_eq_nil_iff, domainIssues_eq_nil_iff,
    pathIssues_eq_nil_iff, and_assoc]
  cases hp : Port.isValid f.httpPort <;> simp [Port.issues, hp]

theorem check_eq_ok_iff :
    f.check domains baseline = .ok () ↔
      (Text.isBlank f.domain = false ∧ ∃ d, listed? domains f.domain = some d ∧ f.Fits baseline d) ∧
        f.pathPrefix.toList.head? = some '/' ∧ Port.isValid f.httpPort = true := by
  rw [check, Report.verdict_eq_ok_iff, issues_eq_nil_iff]

/-! ## The entry that serves a form that passes -/

/-- A form that passes has a name that is served, and respects the entry that serves it exactly
when it respects the entry that diverts its name, if one does. -/
theorem respects_serving_iff (h : f.check domains baseline = .ok ()) :
    ∃ e, serving? domains f.settings.fqdn = some e ∧
      (f.Respects baseline e ↔
        ∀ x, diverting? domains f.host = some x → f.Respects baseline x) := by
  obtain ⟨⟨-, d, hd, hf⟩, -⟩ := check_eq_ok_iff.mp h
  refine ⟨_, serving?_fqdn hd, ?_⟩
  cases hx : diverting? domains f.host with
  | none => exact ⟨fun _ _ h => (by cases h), fun _ => hf.toRespects⟩
  | some x => simp

/-- A wildcard with authentication, and below it a bound entry without. -/
def shadowed : List AvailableDomain :=
  [⟨"*.trap.show", true, false⟩, ⟨"shop.trap.show", false, true⟩]

/-- A new website under the wildcard of `shadowed`, with authentication. -/
def behindLogin (subdomain : String) : WebsiteForm :=
  { new "*.trap.show" with subdomain, authentication := .hard }

theorem respects_serving_iff_app :
    (behindLogin "app").check shadowed none = .ok () ∧
      ∃ e, serving? shadowed (behindLogin "app").settings.fqdn = some e ∧
        (behindLogin "app").Respects none e := by
  have h : (behindLogin "app").check shadowed none = .ok () := by rfl
  obtain ⟨e, he, hr⟩ := respects_serving_iff h
  have hx : diverting? shadowed (behindLogin "app").host = none := by decide
  exact ⟨h, e, he, hr.mpr fun x h => (by rw [hx] at h; cases h)⟩

theorem bypass_of_shadowed_wildcard :
    (behindLogin "shop").check shadowed none = .ok () ∧
      ∃ e, serving? shadowed (behindLogin "shop").settings.fqdn = some e ∧
        (behindLogin "shop").authentication.isRequired = true ∧ e.authAvailable = false ∧
        e.isWildcard = false ∧ e.alreadyBound = true ∧ ¬ (behindLogin "shop").Respects none e := by
  refine ⟨by rfl, ⟨"shop.trap.show", false, true⟩, by decide, rfl, rfl, by decide, rfl, fun h => ?_⟩
  exact Bool.false_ne_true (h.authentication rfl)

end DeploymentConfig.WebsiteForm
