import DeploymentConfig.Document
import DeploymentConfig.Proofs.Build.Conversion
import DeploymentConfig.Proofs.Website.Routes
import Mathlib.Data.List.Forall2

/-!
# The sections of a document

A document passes if each of its sections does (`Passes`), and what is reported
of one that does not is what the sections report, one after the other
(`sectionReports`). The two go together (`sectionReports_eq_nil_iff`).

Its websites are checked as records, each with the baseline that `IsCheckedAs`
says: the first stored website of the same name and path, whatever others there
are. There is one such record for every form (`forall₂_isCheckedAs_iff`).

* `submit_of_passes`: a document that passes submits the configuration that its
  form is merged into, and no other;
* `submit_iff_passes`: any other is refused with the reports of all sections.
-/

namespace DeploymentConfig

/-- What a check has reported. -/
def reported {α : Type} : Except Report α → List Issue
  | .ok _ => []
  | .error report => report.issues

@[simp] theorem reported_verdict (issues : List Issue) :
    reported (Report.verdict issues) = issues := by
  cases issues <;> rfl

theorem reported_verdict_eq_nil_iff {issues : List Issue} :
    reported (Report.verdict issues) = [] ↔ Report.verdict issues = .ok () := by
  rw [reported_verdict, Report.verdict_eq_ok_iff]

namespace Document

variable {d : Document} {system : SystemInfo} {form : WebsiteForm} {r : WebsiteRecord}
  {records : List WebsiteRecord}

/-- Whether a stored website has the name that a form composes, and its path. -/
def IsStoredFor (w : Website) (form : WebsiteForm) : Prop :=
  w.fqdn = form.settings.fqdn ∧ w.pathPrefix = form.settings.pathPrefix

/-- Whether a form is checked as a record: that of the first website that is stored for it, as an
untouched one, or that of a new website if none is. -/
inductive IsCheckedAs (stored : List Website) (form : WebsiteForm) : WebsiteRecord → Prop
  | stored (before : List Website) (w : Website) (after : List Website) :
      stored = before ++ w :: after → IsStoredFor w form → (∀ v ∈ before, ¬ IsStoredFor v form) →
      IsCheckedAs stored form ⟨.noChange, form, some w.toWebsiteSettings, some w.id⟩
  | added : (∀ w ∈ stored, ¬ IsStoredFor w form) →
      IsCheckedAs stored form ⟨.added, form, none, none⟩

/-- Whether every section of a document passes its check, its websites as the given records. -/
structure Passes (d : Document) (system : SystemInfo) (records : List WebsiteRecord) : Prop where
  name : ∃ c ∈ d.name.toList, Text.isSpace c = false
  repository : ∀ r, d.repository = some r → r.check = .ok ()
  config : d.config.check = .ok ()
  websites : WebsiteRecord.check system.domains records = .ok ()
  envVars : EnvRows.check d.envVars = .ok ()
  publications : ∀ p ∈ d.publications, p.check system.ports = .ok ()

/-- What the sections of a document report, each under its path if its report is not. -/
def sectionReports (d : Document) (system : SystemInfo) (records : List WebsiteRecord) :
    List Issue :=
  (if d.name.toList.all Text.isSpace then [⟨"name", .missingRequired, "Name is required"⟩] else [])
    ++ d.repository.toList.flatMap (fun r =>
      (reported r.check).map fun x => { x with field := "repository." ++ x.field })
    ++ (reported d.config.check).map (fun x => { x with field := "config." ++ x.field })
    ++ reported (WebsiteRecord.check system.domains records)
    ++ reported (EnvRows.check d.envVars)
    ++ d.publications.zipIdx.flatMap fun (p, index) =>
      (reported (p.check system.ports)).map fun x =>
        { x with field := s!"portPublications[{index}]." ++ x.field }

/-- What a document that passes submits. -/
structure Submits (d : Document) (records : List WebsiteRecord) (p : Payload) : Prop where
  name : p.name = d.name
  config : d.config.config = .ok p.config
  known : ∃ m, p.config.build = some (.known m)
  websites : p.websites = d.websites.map (·.settings)
  submitted : p.websites = records.filterMap (·.submitted?)
  envVars : EnvRows.prepare d.envVars = .ok p.envVars
  publications : p.publications = d.publications

/-! ## Records that are checked -/

theorem isStoredFor_iff {w : Website} : IsStoredFor w form ↔ w.route = form.settings.route := by
  rw [WebsiteSettings.route, WebsiteSettings.route, Prod.mk.injEq]
  rfl

theorem isCheckedAs_iff : IsCheckedAs d.storedWebsites form r ↔ d.websiteRecord form = r := by
  constructor
  · rintro (⟨before, w, after, hs, hw, hb⟩ | hn)
    · simp only [isStoredFor_iff] at hw hb
      have hf : d.storedWebsites.find? (·.route = form.settings.route) = some w :=
        List.find?_eq_some_iff_append.mpr
          ⟨decide_eq_true hw, before, after, hs, by simpa using hb⟩
      rw [websiteRecord, hf]
      rfl
    · simp only [isStoredFor_iff] at hn
      have hf : d.storedWebsites.find? (·.route = form.settings.route) = none :=
        List.find?_eq_none.mpr (by simpa using hn)
      rw [websiteRecord, hf]
      rfl
  · rintro rfl
    rw [websiteRecord]
    cases hf : d.storedWebsites.find? (·.route = form.settings.route) with
    | none =>
      have hn := List.find?_eq_none.mp hf
      exact .added (by simpa [isStoredFor_iff] using hn)
    | some w =>
      obtain ⟨hw, before, after, hs, hb⟩ := List.find?_eq_some_iff_append.mp hf
      exact .stored before w after hs (isStoredFor_iff.mpr (of_decide_eq_true hw))
        (by simpa [isStoredFor_iff] using hb)

/-- The records that the websites of a document are checked as are those it makes of them. -/
theorem forall₂_isCheckedAs_iff :
    List.Forall₂ (IsCheckedAs d.storedWebsites) d.websites records ↔
      records = d.websiteRecords := by
  have hr : IsCheckedAs d.storedWebsites = fun form r => d.websiteRecord form = r :=
    funext fun form => funext fun r => propext isCheckedAs_iff
  rw [hr, websiteRecords, eq_comm, ← List.forall₂_eq_eq_eq, List.forall₂_map_left_iff]

/-! ## What is reported -/

theorem sectionReports_eq_nil_iff :
    d.sectionReports system records = [] ↔ d.Passes system records := by
  have hname : (if d.name.toList.all Text.isSpace then
      [(⟨"name", .missingRequired, "Name is required"⟩ : Issue)] else []) = [] ↔
        ∃ c ∈ d.name.toList, Text.isSpace c = false := by
    simp
  have hpublications : (∀ x ∈ d.publications.zipIdx, x.1.check system.ports = .ok ()) ↔
      ∀ p ∈ d.publications, p.check system.ports = .ok () :=
    forall_mem_zipIdx_iff (p := fun p : PortPublication => p.check system.ports = .ok ())
  simp only [sectionReports, List.append_eq_nil_iff, hname, List.flatMap_eq_nil_iff,
    List.map_eq_nil_iff, Option.mem_toList, RepositoryForm.check, ConfigForm.check,
    WebsiteRecord.check, EnvRows.check, PortPublication.check, reported_verdict_eq_nil_iff]
  constructor
  · rintro ⟨⟨⟨⟨⟨hn, hr⟩, hc⟩, hw⟩, he⟩, hp⟩
    exact ⟨hn, hr, hc, hw, he, hpublications.mp hp⟩
  · rintro ⟨hn, hr, hc, hw, he, hp⟩
    exact ⟨⟨⟨⟨⟨hn, hr⟩, hc⟩, hw⟩, he⟩, hpublications.mpr hp⟩

theorem issues_eq_sectionReports (d : Document) (system : SystemInfo) :
    d.issues system ((reported d.config.check).map (·.under "config")) =
      d.sectionReports system d.websiteRecords := by
  have hrepository : d.repositoryIssues = d.repository.toList.flatMap fun r =>
      (reported r.check).map (·.under "repository") := by
    rw [repositoryIssues]
    cases d.repository with
    | none => rfl
    | some r => simp [RepositoryForm.check]
  have henv : d.envSection.1 = reported (EnvRows.check d.envVars) := by
    rw [envSection, EnvRows.prepare]
    cases EnvRows.check d.envVars <;> rfl
  simp only [issues, sectionReports, hrepository, henv, publicationIssues,
    WebsiteRecord.check, PortPublication.check, reported_verdict, Issue.under_itemPath]
  rfl

/-- Merging a form fails with a report only, which joins those of the other sections. -/
theorem exists_configSection (d : Document) : ∃ config, d.configSection =
    .ok ((reported d.config.check).map (·.under "config"), config) := by
  cases hc : d.config.check with
  | ok u =>
    obtain ⟨c, hk⟩ := ConfigForm.exists_config_iff.mpr hc
    exact ⟨some c, by simp only [configSection, hk, reported, List.map_nil]⟩
  | error report =>
    have hk := ConfigForm.config_of_check_eq_error hc
    exact ⟨none, by simp only [configSection, hk, reported]⟩

theorem submit_of_not_passes (h : ¬ d.Passes system d.websiteRecords) :
    d.submit system = .error (.invalid ⟨d.sectionReports system d.websiteRecords⟩) := by
  have hn : d.sectionReports system d.websiteRecords ≠ [] :=
    fun hi => h (sectionReports_eq_nil_iff.mp hi)
  have hv := Report.verdict_eq_error_iff.mpr ⟨hn, rfl⟩
  -- The section may have passed, with a configuration that is dropped now.
  obtain ⟨config, hs⟩ := d.exists_configSection
  simp only [submit, hs, issues_eq_sectionReports, hv]

/-! ## What is submitted -/

theorem submit_of_passes (h : d.Passes system d.websiteRecords) :
    ∃ c, d.config.config = .ok c ∧ d.submit system = .ok (d.payload c) := by
  obtain ⟨c, hc⟩ := ConfigForm.exists_config_iff.mpr h.config
  have hs : d.configSection = .ok ([], some c) := by simp only [configSection, hc]
  have hi : d.issues system [] = [] := by
    have hi := issues_eq_sectionReports d system
    rwa [sectionReports_eq_nil_iff.mpr h, h.config] at hi
  refine ⟨c, hc, ?_⟩
  simp only [submit, hs, hi, Report.verdict_eq_ok_iff.mpr, Option.getD_some]

/-- A document is refused with its issues, of which there is one, and in no other way. -/
theorem fault_of_submit_eq_error {fault : Fault} (h : d.submit system = .error fault) :
    fault = .invalid ⟨d.sectionReports system d.websiteRecords⟩ ∧
      d.sectionReports system d.websiteRecords ≠ [] := by
  by_cases hp : d.Passes system d.websiteRecords
  · obtain ⟨c, -, hs⟩ := submit_of_passes hp
    rw [hs] at h
    cases h
  · rw [submit_of_not_passes hp, Except.error.injEq] at h
    exact ⟨h.symm, fun hi => hp (sectionReports_eq_nil_iff.mp hi)⟩

theorem submitted?_websiteRecord (d : Document) (form : WebsiteForm) :
    (d.websiteRecord form).submitted? = some form.settings := by
  rw [websiteRecord]
  split <;> rw [WebsiteRecord.submitted?_eq] <;> rfl

theorem submits_payload (h : d.Passes system d.websiteRecords) {c : ApplicationConfig}
    (hc : d.config.config = .ok c) : d.Submits d.websiteRecords (d.payload c) where
  name := rfl
  config := hc
  known := by
    obtain ⟨-, deploy, build, -, rfl⟩ := ConfigForm.config_eq_ok_iff.mp hc
    exact ⟨_, rfl⟩
  websites := rfl
  submitted := by
    have hs : (·.submitted?) ∘ d.websiteRecord = some ∘ (·.settings) :=
      funext d.submitted?_websiteRecord
    rw [websiteRecords, List.filterMap_map, hs, List.filterMap_eq_map]
    rfl
  envVars := by
    have hp : EnvRows.prepare d.envVars = .ok (EnvRows.submitted d.envVars) := by
      rw [EnvRows.prepare, h.envVars]; rfl
    simp only [payload, envSection, hp]
  publications := rfl

/-- A document is submitted if and only if every section passes, its websites as the records that
they are checked as; otherwise it is refused with what the sections report, and nothing else goes
wrong. -/
theorem submit_iff_passes (d : Document) (system : SystemInfo) :
    ∃ records, (∀ rs, List.Forall₂ (IsCheckedAs d.storedWebsites) d.websites rs ↔ rs = records) ∧
      ((∃ p, d.submit system = .ok p) ↔ d.Passes system records) ∧
      (¬ d.Passes system records →
        d.submit system = .error (.invalid ⟨d.sectionReports system records⟩) ∧
          d.sectionReports system records ≠ []) ∧
      ∀ p, d.submit system = .ok p → d.Submits records p := by
  have hp : ∀ p, d.submit system = .ok p → d.Passes system d.websiteRecords := by
    intro p hp
    by_contra h
    rw [submit_of_not_passes h] at hp
    cases hp
  refine ⟨d.websiteRecords, fun rs => forall₂_isCheckedAs_iff, ⟨fun ⟨p, h⟩ => hp p h, fun h => ?_⟩,
    fun h => ⟨submit_of_not_passes h, ?_⟩, fun p h => ?_⟩
  · obtain ⟨c, -, hc⟩ := submit_of_passes h
    exact ⟨_, hc⟩
  · exact fun hi => h (sectionReports_eq_nil_iff.mp hi)
  · obtain ⟨c, hc, hs⟩ := submit_of_passes (hp p h)
    rw [h, Except.ok.injEq] at hs
    rw [hs]
    exact submits_payload (hp p h) hc

def shopSystem : SystemInfo :=
  ⟨[⟨"*.trap.show", true, false⟩, ⟨"shop.trap.show", false, true⟩], [⟨8000, 8010, .tcp⟩]⟩

/-- A website on an entry that is bound. -/
def shopForm (httpPort : Int32) : WebsiteForm :=
  { WebsiteForm.new "shop.trap.show" with httpPort }

def shopStored (id pathPrefix : String) (httpPort : Int32) : Website :=
  { (shopForm httpPort).settings with id, pathPrefix }

/-- A document in which every section fails. Of the websites that are stored, one has another path,
the next is the one that the form changes, and the last is what the form submits. -/
def brokenShop : Document where
  name := " "
  repository := some ⟨"shop", "", .none⟩
  config := .empty
  websites := [shopForm 0]
  storedWebsites := [shopStored "w0" "/old" 80, shopStored "w1" "/" 80, shopStored "w2" "/" 0]
  envVars := [⟨"1", "", false⟩]
  publications := [⟨8000, 80, .tcp⟩, ⟨8000, 0, .tcp⟩]

/-- The same document, mended. -/
def mendedShop : Document :=
  { brokenShop with
    name := "shop"
    repository := none
    config := ⟨some (.static ⟨"dist", true⟩), some (.buildpack "")⟩
    websites := [shopForm 8080]
    envVars := []
    publications := [⟨8000, 80, .tcp⟩] }

/-- The second website is the first that is stored for the form, whatever port it asks for. -/
theorem isCheckedAs_shop (httpPort : Int32) :
    IsCheckedAs brokenShop.storedWebsites (shopForm httpPort)
      ⟨.noChange, shopForm httpPort, some (shopForm 80).settings, some "w1"⟩ := by
  have hhost : (shopForm 80).host = (shopForm httpPort).host := rfl
  refine .stored [shopStored "w0" "/old" 80] (shopStored "w1" "/" 80) [shopStored "w2" "/" 0] rfl
    ⟨congrArg Host.fqdn hhost, rfl⟩ (List.forall_mem_singleton.mpr fun h => ?_)
  exact absurd h.2 (by decide : "/old" ≠ "/")

theorem submit_iff_passes_shop :
    brokenShop.submit shopSystem = .error (.invalid ⟨[
        ⟨"name", .missingRequired, "Name is required"⟩,
        ⟨"repository.url", .missingRequired, "URL is required"⟩,
        ⟨"config.deployConfig", .unresolvedVariant, "Select deploy type"⟩,
        ⟨"config.buildConfig", .unresolvedVariant, "Select build type"⟩,
        ⟨"websites[0].httpPort", .outOfRange, "Port must be between 1 and 65535"⟩,
        ⟨"envVars[0].key", .invalidFormat,
          "Key must contain only letters, digits and underscores, and not start with a digit"⟩,
        ⟨"portPublications[1].applicationPort", .outOfRange,
          "Port must be between 1 and 65535"⟩]⟩) ∧
      ∃ p, mendedShop.submit shopSystem = .ok p ∧ p.websites = [(shopForm 8080).settings] := by
  constructor
  · obtain ⟨records, hr, -, he, -⟩ := submit_iff_passes brokenShop shopSystem
    obtain rfl := (hr _).mp (.cons (isCheckedAs_shop 0) .nil)
    refine (he fun hp => ?_).1.trans ?_
    · exact absurd hp.config (by decide)
    · decide
  · obtain ⟨records, hr, hp, -, hs⟩ := submit_iff_passes mendedShop shopSystem
    obtain rfl := (hr _).mp (.cons (isCheckedAs_shop 8080) .nil)
    have hname : ∃ c ∈ mendedShop.name.toList, Text.isSpace c = false := ⟨'s', by decide, rfl⟩
    obtain ⟨p, h⟩ := hp.mpr ⟨hname, nofun, by decide, by decide, by decide, by decide⟩
    exact ⟨p, h, (hs p h).websites⟩

end Document

end DeploymentConfig
