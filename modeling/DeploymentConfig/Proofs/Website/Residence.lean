import DeploymentConfig.Proofs.Website.Placement

/-!
# Settings at home in a catalog

Loading gives settings a form on the entry that serves their name
(`form_eq_ok_of_serving?`). What the form submits is what was loaded, unless
authentication had to be turned off; settings to which that does not happen are
at home in the catalog (`AtHome`):

* `atHome_iff`: settings are at home if loading them gives a form that submits them;
* `atHome_settings`: in a catalog where entries of different spelling share no
  name, a form that passes submits settings that are at home.
-/

namespace DeploymentConfig

theorem Routing.onDomain_eq_self_iff {r : Routing} {d : AvailableDomain} :
    r.onDomain d = r ↔ (r.authentication.isRequired = true → d.authAvailable = true) := by
  obtain ⟨pathPrefix, stripPrefix, https, h2c, httpPort, authentication⟩ := r
  cases hd : d.authAvailable <;> cases authentication <;>
    simp [onDomain, hd, Authentication.isRequired]

namespace WebsiteSettings

variable {w : WebsiteSettings} {domains : List AvailableDomain} {d : AvailableDomain}

/-- Settings whose name an entry serves are loaded as they are, but for authentication that the
entry does not offer. -/
theorem form_eq_ok_of_serving? (policy : UnmatchedPolicy) (h : serving? domains w.fqdn = some d) :
    ∃ f, w.form policy domains = .ok f ∧
      f.settings = { w with toRouting := w.toRouting.onDomain d } := by
  obtain ⟨s, hs⟩ := Option.isSome_iff_exists.mp (serves_of_serving? h).2
  have hf : Host.fqdn ⟨s, d.domain⟩ = w.fqdn := AvailableDomain.fqdn_of_subdomainOf? hs
  have hw : w.form policy domains = .ok (.ofHost domains ⟨s, d.domain⟩ w.toRouting) := by
    simp only [form, Host.resolve, Host.resolve?, h, hs, Option.map_some, Option.getD_some,
      Except.map]
  refine ⟨_, hw, ?_⟩
  simp only [WebsiteForm.ofHost, listed?_of_serving? h, WebsiteForm.selectDomain,
    WebsiteForm.settings, WebsiteForm.host, hf]

theorem exists_serving?_of_form {f : WebsiteForm} (h : w.form .reject domains = .ok f) :
    ∃ d, serving? domains w.fqdn = some d := by
  cases hd : serving? domains w.fqdn with
  | some d => exact ⟨d, rfl⟩
  | none =>
    simp only [form, Host.resolve, Host.resolve?, hd, Option.map_none, Except.map] at h
    cases h

/-- An entry serves the name of the settings, and offers the authentication that they ask for. -/
def AtHome (domains : List AvailableDomain) (w : WebsiteSettings) : Prop :=
  ∃ d, serving? domains w.fqdn = some d ∧
    (w.authentication.isRequired = true → d.authAvailable = true)

theorem atHome_iff :
    w.AtHome domains ↔ ∃ f, w.form .reject domains = .ok f ∧ f.settings = w := by
  constructor
  · rintro ⟨d, hd, ha⟩
    obtain ⟨f, hf, hs⟩ := form_eq_ok_of_serving? .reject hd
    exact ⟨f, hf, by rw [hs, Routing.onDomain_eq_self_iff.mpr ha]⟩
  · rintro ⟨f, hf, hs⟩
    obtain ⟨d, hd⟩ := exists_serving?_of_form hf
    obtain ⟨g, hg, hgs⟩ := form_eq_ok_of_serving? .reject hd
    rw [hf, Except.ok.injEq] at hg
    rw [← hg, hs] at hgs
    exact ⟨d, hd, Routing.onDomain_eq_self_iff.mp (congrArg toRouting hgs).symm⟩

end WebsiteSettings

theorem WebsiteForm.atHome_settings {f : WebsiteForm} {domains : List AvailableDomain}
    {baseline : Option WebsiteSettings} (hu : Unambiguous domains)
    (h : f.issues domains baseline = []) : f.settings.AtHome domains := by
  obtain ⟨⟨-, d, hd, hf⟩, -⟩ := issues_eq_nil_iff.mp h
  exact ⟨d, serving?_fqdn_of_unambiguous (h := f.host) hu hd, hf.authentication⟩

end DeploymentConfig
