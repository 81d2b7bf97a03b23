import DeploymentConfig.Proofs.Host.Composition
import DeploymentConfig.Proofs.WorkingSet.Reload

/-!
# What loading changes

A stored website whose name some entry serves is loaded as it is, but for
authentication that this entry does not offer. A website whose name no entry
serves is refused, or placed on the first entry of the catalog (`AdjustsTo`).
That entry matches the name that it gives, so the name is then another one, and
loading changes exactly the websites that need it (`AdjustsTo.ne_iff`).

* `ofWebsites_exact`: when loading succeeds, what it answers otherwise, and what
  is loaded.
-/

namespace DeploymentConfig

variable {domains : List AvailableDomain} {d : AvailableDomain} {fqdn : String}
  {policy : UnmatchedPolicy} {fault : Fault}

/-- Whether a catalog has an entry that matches a name. -/
def IsMatched (domains : List AvailableDomain) (fqdn : String) : Prop :=
  ∃ d ∈ domains, d.Matches fqdn

theorem isMatched_iff : IsMatched domains fqdn ↔ ∃ d, serving? domains fqdn = some d :=
  exists_serving?_iff.symm

theorem not_isMatched_iff : ¬ IsMatched domains fqdn ↔ serving? domains fqdn = none := by
  rw [isMatched_iff, ← Option.isSome_iff_exists, Option.not_isSome_iff_eq_none]

theorem Routing.onDomain_eq (r : Routing) (d : AvailableDomain) : r.onDomain d =
    { r with authentication := if d.authAvailable = true then r.authentication else .off } := by
  cases hd : d.authAvailable <;> simp [onDomain, hd]

namespace WebsiteSettings

variable {w v : WebsiteSettings} {f : WebsiteForm}

/-! ## Names without an entry -/

theorem form_reject_of_serving?_eq_none (h : serving? domains w.fqdn = none) :
    w.form .reject domains = .error (.domainNotFound w.fqdn) := by
  simp only [form, Host.resolve, Host.resolve?, h, Option.map_none, Except.map]

theorem form_firstAvailable_nil : w.form .firstAvailable [] = .error .noDomains := rfl

theorem form_firstAvailable_cons_of_serving?_eq_none {ds : List AvailableDomain}
    (h : serving? (d :: ds) w.fqdn = none) :
    w.form .firstAvailable (d :: ds) = .ok (.ofHost (d :: ds) ⟨"", d.domain⟩ w.toRouting) := by
  simp only [form, Host.resolve, Host.resolve?, h, Option.map_none, Host.first?, List.head?_cons,
    Option.map_some, Except.map]

/-- The entry that stands first is the first of its spelling. -/
theorem settings_ofHost_head {ds : List AvailableDomain} (r : Routing) :
    (WebsiteForm.ofHost (d :: ds) ⟨"", d.domain⟩ r).settings =
      { toRouting := r.onDomain d, fqdn := Host.fqdn ⟨"", d.domain⟩ } := by
  have hl : listed? (d :: ds) d.domain = some d := by simp [listed?]
  simp only [WebsiteForm.ofHost, hl]
  rfl

theorem form_eq_error_iff : w.form policy domains = .error fault ↔ ¬ IsMatched domains w.fqdn ∧
    ((policy = .reject ∧ fault = .domainNotFound w.fqdn) ∨
      (policy = .firstAvailable ∧ domains = [] ∧ fault = .noDomains)) := by
  rw [not_isMatched_iff]
  cases hd : serving? domains w.fqdn with
  | some d =>
    obtain ⟨f, hf, -⟩ := form_eq_ok_of_serving? policy hd
    simp [hf]
  | none =>
    cases policy with
    | reject => simp [form_reject_of_serving?_eq_none hd, eq_comm]
    | firstAvailable =>
      cases domains with
      | nil => simp [form_firstAvailable_nil, eq_comm]
      | cons d ds => simp [form_firstAvailable_cons_of_serving?_eq_none hd]

theorem exists_form_reject_iff :
    (∃ f, w.form .reject domains = .ok f) ↔ IsMatched domains w.fqdn := by
  rw [isMatched_iff]
  constructor
  · rintro ⟨f, hf⟩
    exact exists_serving?_of_form hf
  · rintro ⟨d, hd⟩
    obtain ⟨f, hf, -⟩ := form_eq_ok_of_serving? .reject hd
    exact ⟨f, hf⟩

/-! ## What becomes of a website -/

/-- What loading makes of the settings of a website: it turns off authentication that the entry
which serves their name does not offer, and places them on the first entry if no entry does. -/
inductive AdjustsTo (domains : List AvailableDomain) (w : WebsiteSettings) :
    WebsiteSettings → Prop
  | served (d : AvailableDomain) : serving? domains w.fqdn = some d →
      AdjustsTo domains w
        { w with authentication := if d.authAvailable = true then w.authentication else .off }
  | unserved (d : AvailableDomain) : ¬ IsMatched domains w.fqdn → domains.head? = some d →
      AdjustsTo domains w
        { w with
          authentication := if d.authAvailable = true then w.authentication else .off
          fqdn := Host.fqdn ⟨"", d.domain⟩ }

theorem adjustsTo_settings (h : w.form policy domains = .ok f) :
    w.AdjustsTo domains f.settings := by
  cases hd : serving? domains w.fqdn with
  | some d =>
    obtain ⟨g, hg, hs⟩ := form_eq_ok_of_serving? policy hd
    obtain rfl := Except.ok.inj (hg.symm.trans h)
    rw [hs, Routing.onDomain_eq]
    exact .served d hd
  | none =>
    cases policy with
    | reject => rw [form_reject_of_serving?_eq_none hd] at h; cases h
    | firstAvailable =>
      cases domains with
      | nil => cases h
      | cons d ds =>
        obtain rfl := Except.ok.inj ((form_firstAvailable_cons_of_serving?_eq_none hd).symm.trans h)
        rw [settings_ofHost_head, Routing.onDomain_eq]
        exact .unserved d (not_isMatched_iff.mpr hd) rfl

/-- Whether loading has to change a website: no entry serves its name, or the one that does offers
no authentication, which the website asks for. -/
def NeedsAdjustment (domains : List AvailableDomain) (w : WebsiteSettings) : Prop :=
  ¬ IsMatched domains w.fqdn ∨ ∃ d, serving? domains w.fqdn = some d ∧
    w.authentication.isRequired = true ∧ d.authAvailable = false

theorem toRouting_onDomain_eq_self_iff : { w with toRouting := w.toRouting.onDomain d } = w ↔
    (w.authentication.isRequired = true → d.authAvailable = true) := by
  rw [← Routing.onDomain_eq_self_iff]
  exact ⟨congrArg toRouting, fun h => by rw [h]⟩

theorem AdjustsTo.ne_iff (h : w.AdjustsTo domains v) : v ≠ w ↔ w.NeedsAdjustment domains := by
  cases h with
  | served d hd =>
    have hm : IsMatched domains w.fqdn := isMatched_iff.mpr ⟨d, hd⟩
    rw [← Routing.onDomain_eq, Ne, toRouting_onDomain_eq_self_iff, NeedsAdjustment, hd]
    simp [hm]
  -- The first entry matches the name that it gives, so that was not the name before.
  | unserved d hm hd =>
    refine iff_of_true (fun he => hm ⟨d, List.mem_of_head? hd, ?_⟩) (.inl hm)
    rw [← congrArg fqdn he]
    exact Host.matches_fqdn rfl

end WebsiteSettings

namespace WorkingSet

variable {ws : List Website} {s : WorkingSet} {w : Website} {r : WebsiteRecord}

/-! ## What is loaded -/

theorem ofWebsites_eq_error_iff : ofWebsites policy domains ws = .error fault ↔
    ∃ before w after, ws = before ++ w :: after ∧
      (∀ v ∈ before, ∃ f, v.form policy domains = .ok f) ∧
      w.form policy domains = .error fault := by
  have hset : ∀ x : Except Fault (List WebsiteRecord),
      x.map mk = .error fault ↔ x = .error fault := by
    intro x
    cases x <;> simp [Except.map]
  have hok : ∀ v : Website, (∃ r, (v.form policy domains).map (WebsiteRecord.stored v) = .ok r) ↔
      ∃ f, v.form policy domains = .ok f := by
    intro v
    cases v.form policy domains <;> simp [Except.map]
  have herror : ∀ v : Website, (v.form policy domains).map (WebsiteRecord.stored v) = .error fault ↔
      v.form policy domains = .error fault := by
    intro v
    cases v.form policy domains <;> simp [Except.map]
  rw [ofWebsites, hset, mapM_eq_error_iff]
  simp only [hok, herror]

theorem exists_ofWebsites_iff : (∃ s, ofWebsites policy domains ws = .ok s) ↔
    ∀ w ∈ ws, ∃ f, w.form policy domains = .ok f := by
  have hr : (∃ s, ofWebsites policy domains ws = .ok s) ↔ ∃ rs, List.Forall₂
      (fun (w : Website) r => ∃ f, w.form policy domains = .ok f ∧ r = WebsiteRecord.stored w f)
      ws rs :=
    ⟨fun ⟨s, h⟩ => ⟨s.records, ofWebsites_eq_ok_iff.mp h⟩,
      fun ⟨rs, h⟩ => ⟨⟨rs⟩, ofWebsites_eq_ok_iff.mpr h⟩⟩
  rw [hr, exists_forall₂_iff]
  refine forall₂_congr fun w _ => ?_
  rw [exists_comm]
  simp only [exists_and_left, exists_eq, and_true]

theorem ofWebsites_reject_eq_error_iff : ofWebsites .reject domains ws = .error fault ↔
    ∃ before w after, ws = before ++ w :: after ∧ (∀ v ∈ before, IsMatched domains v.fqdn) ∧
      ¬ IsMatched domains w.fqdn ∧ fault = .domainNotFound w.fqdn := by
  rw [ofWebsites_eq_error_iff]
  simp [WebsiteSettings.exists_form_reject_iff, WebsiteSettings.form_eq_error_iff]

theorem ofWebsites_firstAvailable_eq_error_iff :
    ofWebsites .firstAvailable domains ws = .error fault ↔
      domains = [] ∧ ws ≠ [] ∧ fault = .noDomains := by
  rw [ofWebsites_eq_error_iff]
  constructor
  · rintro ⟨before, w, after, rfl, -, he⟩
    obtain ⟨-, h | ⟨-, hd, hf⟩⟩ := WebsiteSettings.form_eq_error_iff.mp he
    · cases h.1
    · exact ⟨hd, by simp, hf⟩
  · rintro ⟨rfl, hw, rfl⟩
    obtain ⟨w, after, rfl⟩ := List.exists_cons_of_ne_nil hw
    exact ⟨[], w, after, rfl, nofun, WebsiteSettings.form_firstAvailable_nil⟩

/-- How a website is loaded: under its identity, with the stored value as the baseline, and a form
that submits the adjusted one. -/
structure LoadedFrom (domains : List AvailableDomain) (w : Website) (r : WebsiteRecord) : Prop where
  id : r.id = some w.id
  baseline : r.baseline = some w.toWebsiteSettings
  submitted : ∃ v, r.submitted? = some v ∧ w.AdjustsTo domains v

theorem loadedFrom_stored {form : WebsiteForm} (h : w.form policy domains = .ok form) :
    LoadedFrom domains w (.stored w form) :=
  ⟨rfl, rfl, form.settings, WebsiteRecord.submitted?_eq _, WebsiteSettings.adjustsTo_settings h⟩

/-- A set that is loaded has changes if the form of one of its websites submits another value. -/
theorem hasChanges_ofWebsites_iff (h : ofWebsites policy domains ws = .ok s) :
    s.hasChanges = true ↔ ∃ w ∈ ws, w.NeedsAdjustment domains := by
  have hc : s.hasChanges = true ↔ ∃ r ∈ s.records, r.effectiveState ≠ .noChange := by
    simp [hasChanges]
  rw [hc]
  refine (exists_mem_iff_of_forall₂ (ofWebsites_eq_ok_iff.mp h) ?_).symm
  rintro w _ ⟨form, hf, rfl⟩
  rw [Ne, effectiveState_stored_iff]
  exact (WebsiteSettings.adjustsTo_settings hf).ne_iff.symm

/-- Loading fails on a name that no entry serves, and only where it may not or cannot be moved to
the first entry. Otherwise there is a record of each website, in order, and the set has changes
exactly if one of the websites had to be adjusted. -/
theorem ofWebsites_exact (domains : List AvailableDomain) (ws : List Website) :
    ((∃ s, ofWebsites .reject domains ws = .ok s) ↔ ∀ w ∈ ws, IsMatched domains w.fqdn) ∧
      (∀ fault, ofWebsites .reject domains ws = .error fault ↔ ∃ before w after,
        ws = before ++ w :: after ∧ (∀ v ∈ before, IsMatched domains v.fqdn) ∧
          ¬ IsMatched domains w.fqdn ∧ fault = .domainNotFound w.fqdn) ∧
      (∀ fault, ofWebsites .firstAvailable domains ws = .error fault ↔
        domains = [] ∧ ws ≠ [] ∧ fault = .noDomains) ∧
      ∀ policy s, ofWebsites policy domains ws = .ok s →
        List.Forall₂ (LoadedFrom domains) ws s.records ∧
          (s.hasChanges = true ↔ ∃ w ∈ ws, w.NeedsAdjustment domains) := by
  refine ⟨?_, fun _ => ofWebsites_reject_eq_error_iff,
    fun _ => ofWebsites_firstAvailable_eq_error_iff, fun policy s h => ⟨?_, ?_⟩⟩
  · rw [exists_ofWebsites_iff]
    exact forall₂_congr fun w _ => WebsiteSettings.exists_form_reject_iff
  · exact (ofWebsites_eq_ok_iff.mp h).imp fun w r ⟨form, hf, hr⟩ => hr ▸ loadedFrom_stored hf
  · exact hasChanges_ofWebsites_iff h

/-- A stored website that asks for authentication. -/
def guarded (id fqdn : String) : Website :=
  { WebsiteForm.new fqdn with fqdn, id, authentication := .hard }

/-- One website stays as it is, one loses its authentication, and one moves to the first entry. -/
theorem ofWebsites_exact_guarded :
    ofWebsites .reject trapShow
        [guarded "w1" "a.trap.show", guarded "w2" "example.com", guarded "w3" "b.org"] =
          .error (.domainNotFound "b.org") ∧
      ∃ s, ofWebsites .firstAvailable trapShow
          [guarded "w1" "a.trap.show", guarded "w2" "example.com", guarded "w3" "b.org"] = .ok s ∧
        s.payload = [(guarded "w1" "a.trap.show").toWebsiteSettings,
          { (guarded "w2" "example.com").toWebsiteSettings with authentication := .off },
          { (guarded "w3" "b.org").toWebsiteSettings with fqdn := ".trap.show" }] ∧
        s.hasChanges = true := by
  have hs := ofWebsites_exact trapShow
    [guarded "w1" "a.trap.show", guarded "w2" "example.com", guarded "w3" "b.org"]
  refine ⟨by rfl, _, rfl, by rfl, ((hs.2.2.2 .firstAvailable _ rfl).2).mpr ?_⟩
  refine ⟨guarded "w2" "example.com", by simp, .inr ⟨⟨"example.com", false, true⟩, ?_⟩⟩
  decide

end WorkingSet

end DeploymentConfig
