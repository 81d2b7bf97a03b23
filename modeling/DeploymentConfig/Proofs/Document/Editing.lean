import DeploymentConfig.Proofs.Document.Sections
import DeploymentConfig.Proofs.WorkingSet.Ledger

/-!
# A document and a working set

A document does not carry baselines: it looks for the stored website of a form by
its route. A run that keeps every stored website (`RetainsAll`) leaves each baseline
with a record that is not to be removed (`Retained`), and as long as the forms keep
their routes (`RoutesKept`), the search finds the website that the record was
loaded from (`baseline_websiteRecord`). Then the two check and submit the same
(`agrees_of_mirrors_run`).
-/

namespace DeploymentConfig

/-! ## Records of the same form and baseline -/

namespace WebsiteRecord

variable {r r' : WebsiteRecord}

/-- The check sees of a sound record that is kept its form and baseline only. -/
theorem formIssues_congr (h : r.Sound) (h' : r'.Sound) (hk : r.state ≠ .readyToDelete)
    (hk' : r'.state ≠ .readyToDelete) (hf : r.form = r'.form) (hb : r.baseline = r'.baseline)
    (domains : List AvailableDomain) : r.formIssues domains = r'.formIssues domains := by
  have hs : r.isSubmittedFromForm = r'.isSubmittedFromForm := by
    rw [Bool.eq_iff_iff, ← not_iff_not, Bool.not_eq_true, Bool.not_eq_true,
      isSubmittedFromForm_eq_false_iff h, isSubmittedFromForm_eq_false_iff h', or_iff_right hk,
      or_iff_right hk', hb, hf]
  funext index
  rw [formIssues, formIssues, hs, hf, hb]

end WebsiteRecord

/-! ## Runs that keep the stored websites -/

namespace WorkingSet

variable {s : WorkingSet} {stored : List WebsiteSettings} {known : List String}

/-- Whether a step keeps every stored website: nothing is accepted, and nothing removed but new
records. -/
def Retains (s : WorkingSet) : Step → Prop
  | .submitSucceeded => False
  | .delete index => ∀ r, s.records[index]? = some r → r.state = .added
  | _ => True

/-- Whether every step of a run keeps every stored website. -/
def RetainsAll (s : WorkingSet) : List Step → Prop
  | [] => True
  | step :: steps => s.Retains step ∧ (s.step step).2.RetainsAll steps

/-- The records account for what is stored, and none is to be removed. -/
structure Retained (stored : List WebsiteSettings) (known : List String) (s : WorkingSet) : Prop
    extends Ledger stored known s where
  state_ne : ∀ r ∈ s.records, r.state ≠ .readyToDelete

theorem Retains.state_ne {step : Step} (hk : s.Retains step)
    (h : ∀ r ∈ s.records, r.state ≠ .readyToDelete) :
    ∀ r ∈ (s.step step).2.records, r.state ≠ .readyToDelete := by
  have hadd : ∀ form, ∀ r ∈ (s.add form).records, r.state ≠ .readyToDelete := fun form =>
    List.forall_mem_append.mpr ⟨h, List.forall_mem_singleton.mpr nofun⟩
  cases step with
  | add form => exact hadd form
  | addDefault domains =>
    simp only [WorkingSet.step, addDefault]
    split
    · exact hadd _
    · exact h
  | edit index change =>
    cases hi : s.records[index]? with
    | none =>
      rw [step_edit_of_eq_none hi]
      exact h
    | some r₀ =>
      rw [step_edit_of_eq_some hi]
      intro r hr
      rcases List.mem_or_eq_of_mem_set hr with hr | rfl
      · exact h r hr
      · have hn := h r₀ (List.mem_of_getElem? hi)
        simp only [WebsiteRecord.edited]
        cases hs : r₀.state <;> simp_all [EditState.next?]
  | delete index =>
    cases hi : s.records[index]? with
    | none =>
      rw [step_delete_of_eq_none hi]
      exact h
    | some r₀ =>
      rw [step_delete_of_eq_some hi, if_pos (hk r₀ hi)]
      exact fun r hr => h r (List.mem_of_mem_eraseIdx hr)
  | submitSucceeded => exact hk.elim
  | submitFailed =>
    rw [WorkingSet.step, submitFailed_records]
    exact List.forall_mem_map.mpr fun r hr =>
      mt WebsiteRecord.rested_state_eq_readyToDelete_iff.mp (h r hr)

theorem Retained.step (h : Retained stored known s) {step : Step} (hk : s.Retains step) :
    Retained stored known (s.step step).2 where
  toLedger := h.toLedger.turn (by rintro rfl; exact hk)
  state_ne := hk.state_ne h.state_ne

theorem Retained.run (h : Retained stored known s) {steps : List Step} (hk : s.RetainsAll steps) :
    Retained stored known (s.run steps) := by
  induction steps generalizing s with
  | nil => exact h
  | cons step steps ih =>
    rw [run_cons]
    exact ih (h.step hk.1) hk.2

theorem StartsFrom.retained {ws : List Website} (h : StartsFrom ws s) :
    Retained (ws.map (·.toWebsiteSettings)) (ws.map (·.id)) s where
  toLedger := h.ledger
  state_ne := forall_mem_of_forall₂ h.records fun _ _ ⟨_, hr⟩ => hr ▸ nofun

/-- A set that keeps everything submits every form. -/
theorem Retained.payload_eq (h : Retained stored known s) :
    s.payload = s.records.map (·.form.settings) := by
  have hk : s.kept = s.records :=
    List.filter_eq_self.mpr fun r hr => decide_eq_true (h.state_ne r hr)
  rw [WorkingSet.payload_eq, hk]

/-- Whether the forms keep the routes of the websites they were loaded from, and new ones keep off
them. -/
structure RoutesKept (ws : List Website) (s : WorkingSet) : Prop where
  stored : ∀ r ∈ s.records, ∀ b, r.baseline = some b → r.form.settings.route = b.route
  added : ∀ r ∈ s.records, r.state = .added → ∀ w ∈ ws, w.route ≠ r.form.settings.route

end WorkingSet

/-! ## The document of a working set -/

/-- Stored websites are told apart by their routes. -/
theorem find?_route_eq_some {ws : List Website} (hd : ws.Pairwise fun v w => v.route ≠ w.route)
    {w : Website} (hw : w ∈ ws) {route : String × String} (hr : w.route = route) :
    ws.find? (·.route = route) = some w := by
  induction hd with
  | nil => exact absurd hw List.not_mem_nil
  | @cons v ws hv _ ih =>
    rcases List.mem_cons.mp hw with rfl | hw
    · exact List.find?_cons_of_pos (decide_eq_true hr)
    · have hne : decide (v.route = route) = false := by simpa [hr] using hv w hw
      simp only [List.find?_cons, hne]
      exact ih hw

namespace Document

variable {d : Document} {ws : List Website} {s : WorkingSet} {known : List String}

/-- Whether a document holds the forms of a working set, and the websites that it was loaded
from. -/
structure Mirrors (d : Document) (ws : List Website) (s : WorkingSet) : Prop where
  websites : d.websites = s.records.map (·.form)
  storedWebsites : d.storedWebsites = ws

@[simp] theorem form_websiteRecord (d : Document) (form : WebsiteForm) :
    (d.websiteRecord form).form = form := by
  rw [websiteRecord]
  split <;> rfl

theorem sound_websiteRecord (d : Document) (form : WebsiteForm) :
    (d.websiteRecord form).Sound := by
  rw [websiteRecord]
  split
  · exact WebsiteRecord.sound_stored _ form
  · exact WebsiteRecord.sound_added form

theorem state_websiteRecord (d : Document) (form : WebsiteForm) :
    (d.websiteRecord form).state ≠ .readyToDelete := by
  rw [websiteRecord]
  split
  · simp [WebsiteRecord.stored]
  · simp [WebsiteRecord.added]

theorem baseline_websiteRecord (hm : d.Mirrors ws s)
    (hd : ws.Pairwise fun v w => v.route ≠ w.route)
    (hk : s.Retained (ws.map (·.toWebsiteSettings)) known) (hr : s.RoutesKept ws)
    {r : WebsiteRecord} (hmem : r ∈ s.records) :
    (d.websiteRecord r.form).baseline = r.baseline := by
  rw [websiteRecord, hm.storedWebsites]
  cases hb : r.baseline with
  | none =>
    have ha := (hk.sound r hmem).baseline_eq_none_iff.mp hb
    have hn : ws.find? (·.route = r.form.settings.route) = none :=
      List.find?_eq_none.mpr fun w hw => by simpa using hr.added r hmem ha w hw
    rw [hn]
    rfl
  | some b =>
    have hmb : b ∈ s.baselines := List.mem_filterMap.mpr ⟨r, hmem, hb⟩
    rw [hk.baselines_eq] at hmb
    obtain ⟨w, hw, rfl⟩ := List.mem_map.mp hmb
    rw [find?_route_eq_some hd hw (hr.stored r hmem _ hb).symm]
    rfl

theorem issues_websiteRecords (domains : List AvailableDomain) (hm : d.Mirrors ws s)
    (hd : ws.Pairwise fun v w => v.route ≠ w.route)
    (hk : s.Retained (ws.map (·.toWebsiteSettings)) known) (hr : s.RoutesKept ws) :
    WebsiteRecord.issues domains d.websiteRecords = WebsiteRecord.issues domains s.records := by
  rw [websiteRecords, hm.websites, List.map_map]
  refine WebsiteRecord.issues_congr ?_ ?_
  · rw [List.map_map]
    refine List.map_congr_left fun r hmem => ?_
    simp only [Function.comp_apply, WebsiteRecord.route?, submitted?_websiteRecord]
    rw [WebsiteRecord.submitted?_eq, if_neg (hk.state_ne r hmem)]
  · rw [List.map_map]
    refine List.map_congr_left fun r hmem => ?_
    exact WebsiteRecord.formIssues_congr (d.sound_websiteRecord _) (hk.sound r hmem)
      (d.state_websiteRecord _) (hk.state_ne r hmem) (d.form_websiteRecord _)
      (baseline_websiteRecord hm hd hk hr hmem) domains

/-- A document with the forms of a working set that has kept its stored websites, each under its
route: its section on websites reports what the check of the set does, and what it submits of them
is the payload of the set, which the set prepares as well. -/
theorem agrees_of_mirrors_run (system : SystemInfo) {policy : UnmatchedPolicy}
    {steps : List WorkingSet.Step} (hd : ws.Pairwise fun v w => v.route ≠ w.route)
    (ho : WorkingSet.ofWebsites policy system.domains ws = .ok s) (hk : s.RetainsAll steps)
    (hr : (s.run steps).RoutesKept ws) (hm : d.Mirrors ws (s.run steps)) :
    WebsiteRecord.check system.domains d.websiteRecords =
        WebsiteRecord.check system.domains (s.run steps).records ∧
      (∀ configIssues, d.issues system configIssues =
        requireText "name" d.name "Name" ++ d.repositoryIssues ++ configIssues ++
          WebsiteRecord.issues system.domains (s.run steps).records ++ d.envSection.1 ++
          d.publicationIssues system.ports) ∧
      ∀ p, d.submit system = .ok p → p.websites = (s.run steps).payload ∧
        (s.run steps).prepare system.domains = .ok p.websites := by
  have hret := (WorkingSet.StartsFrom.loaded ho).retained.run hk
  have hi := issues_websiteRecords system.domains hm hd hret hr
  refine ⟨by rw [WebsiteRecord.check, hi, WebsiteRecord.check], fun configIssues => ?_,
    fun p hp => ?_⟩
  · rw [issues, hi]
  · have hpass : d.Passes system d.websiteRecords := by
      by_contra hn
      rw [submit_of_not_passes hn] at hp
      cases hp
    obtain ⟨c, hc, hsub⟩ := submit_of_passes hpass
    obtain rfl := Except.ok.inj (hp.symm.trans hsub)
    have hw : (d.payload c).websites = (s.run steps).payload := by
      rw [hret.payload_eq, (submits_payload hpass hc).websites, hm.websites, List.map_map]
      rfl
    have hv : WebsiteRecord.issues system.domains (s.run steps).records = [] := by
      rw [← hi]
      exact Report.verdict_eq_ok_iff.mp hpass.websites
    exact ⟨hw, WorkingSet.prepare_eq_ok_iff.mpr ⟨hv, hw.symm⟩⟩

/-- A stored website is edited, one of two new ones withdrawn, and a submission refused. -/
def refusedEdits : List WorkingSet.Step :=
  [.edit 0 fun f => { f with httpPort := 8080 }, .add (WorkingSet.under "c"), .submitFailed,
    .add (WorkingSet.under "d"), .delete 3]

def ofTwoWebsites : Document where
  name := "app"
  repository := none
  config := ⟨some (.static ⟨"dist", true⟩), some (.buildpack "")⟩
  websites := (WorkingSet.twoWebsites.run refusedEdits).records.map (·.form)
  storedWebsites := [WorkingSet.storedUnder "w1" "a", WorkingSet.storedUnder "w2" "b"]
  envVars := []
  publications := []

theorem agrees_of_mirrors_run_twoWebsites :
    WorkingSet.ofWebsites .reject WorkingSet.trapShow
        [WorkingSet.storedUnder "w1" "a", WorkingSet.storedUnder "w2" "b"] =
          .ok WorkingSet.twoWebsites ∧
      ∃ p, ofTwoWebsites.submit ⟨WorkingSet.trapShow, []⟩ = .ok p ∧
        (WorkingSet.twoWebsites.run refusedEdits).prepare WorkingSet.trapShow = .ok p.websites ∧
        p.websites = [{ (WorkingSet.under "a").settings with httpPort := 8080 },
          (WorkingSet.under "b").settings, (WorkingSet.under "c").settings] := by
  have ho := WorkingSet.ofWebsites_trapShow
  have hk : WorkingSet.twoWebsites.RetainsAll refusedEdits :=
    ⟨trivial, trivial, trivial, trivial, fun _ hr => by cases hr; rfl, trivial⟩
  have hr : (WorkingSet.twoWebsites.run refusedEdits).RoutesKept
      [WorkingSet.storedUnder "w1" "a", WorkingSet.storedUnder "w2" "b"] := by
    constructor
    · decide
    · decide
  have hm : ofTwoWebsites.Mirrors [WorkingSet.storedUnder "w1" "a", WorkingSet.storedUnder "w2" "b"]
      (WorkingSet.twoWebsites.run refusedEdits) := ⟨rfl, rfl⟩
  have hp : ofTwoWebsites.submit ⟨WorkingSet.trapShow, []⟩ = .ok (ofTwoWebsites.payload
      ⟨some (.known (.staticBuildpack "dist" true ""))⟩) := by rfl
  obtain ⟨-, -, h⟩ := agrees_of_mirrors_run ⟨WorkingSet.trapShow, []⟩ (by decide) ho hk hr hm
  exact ⟨ho, _, hp, (h _ hp).2, rfl⟩

end Document

end DeploymentConfig
