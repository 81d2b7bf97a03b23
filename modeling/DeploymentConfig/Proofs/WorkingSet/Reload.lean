import DeploymentConfig.Proofs.Website.Residence
import DeploymentConfig.Proofs.Website.Views
import DeploymentConfig.Proofs.WorkingSet.Ledger

/-!
# Saving and loading again

Stored websites are loaded without changes if and only if they are at home in
the catalog (`exists_unchanged_iff`). In a catalog where entries of different
spelling share no name, what a working set submits stays at home as long as
every submission is prepared before it is accepted (`Ledger.held_atHome`): a
record that submits its form has passed, and any other submits its baseline. So
whatever is prepared is loaded as it was submitted (`reload_prepared`).
-/

namespace DeploymentConfig.WorkingSet

variable {domains : List AvailableDomain} {stored p : List WebsiteSettings} {known : List String}
  {ws : List Website} {s : WorkingSet}

/-! ## Loading without changes -/

theorem exists_forall₂_iff {α β : Type} {R : α → β → Prop} {xs : List α} :
    (∃ ys, List.Forall₂ R xs ys) ↔ ∀ x ∈ xs, ∃ y, R x y := by
  induction xs with
  | nil => simp
  | cons x xs ih =>
    rw [List.forall_mem_cons, ← ih]
    simp only [List.forall₂_cons_left_iff]
    constructor
    · rintro ⟨_, y, ys, hy, hys, rfl⟩
      exact ⟨⟨y, hy⟩, ys, hys⟩
    · rintro ⟨⟨y, hy⟩, ys, hys⟩
      exact ⟨_, y, ys, hy, hys, rfl⟩

theorem effectiveState_stored_iff {w : Website} {form : WebsiteForm} :
    (WebsiteRecord.stored w form).effectiveState = .noChange ↔
      form.settings = w.toWebsiteSettings := by
  rw [WebsiteRecord.effectiveState_eq_noChange_iff (WebsiteRecord.sound_stored w form)]
  simp [WebsiteRecord.stored, eq_comm]

/-- A website is loaded as a record whose form submits it. -/
def LoadedAsIs (domains : List AvailableDomain) (w : Website) (r : WebsiteRecord) : Prop :=
  ∃ form, w.form .reject domains = .ok form ∧ form.settings = w.toWebsiteSettings ∧
    r = .stored w form

theorem exists_loadedAsIs_iff {w : Website} :
    (∃ r, LoadedAsIs domains w r) ↔ w.AtHome domains := by
  rw [WebsiteSettings.atHome_iff]
  constructor
  · rintro ⟨_, form, hf, hs, rfl⟩
    exact ⟨form, hf, hs⟩
  · rintro ⟨form, hf, hs⟩
    exact ⟨_, form, hf, hs, rfl⟩

theorem ofWebsites_eq_ok_and_unchanged_iff :
    ofWebsites .reject domains ws = .ok s ∧ s.hasChanges = false ↔
      List.Forall₂ (LoadedAsIs domains) ws s.records := by
  rw [ofWebsites_eq_ok_iff, hasChanges_eq_false_iff]
  constructor
  · rintro ⟨h, hc⟩
    have hb := ((List.forall₂_and_left s.records ws).mpr ⟨hc, h.flip⟩).flip
    refine hb.imp fun w r ⟨hr, form, hf, he⟩ => ⟨form, hf, ?_, he⟩
    rw [he] at hr
    exact effectiveState_stored_iff.mp hr
  · intro h
    refine ⟨h.imp fun w r ⟨form, hf, _, he⟩ => ⟨form, hf, he⟩, ?_⟩
    refine forall_mem_of_forall₂ h fun w r ⟨form, _, hs, he⟩ => ?_
    rw [he]
    exact effectiveState_stored_iff.mpr hs

theorem exists_unchanged_iff :
    (∃ s, ofWebsites .reject domains ws = .ok s ∧ s.hasChanges = false) ↔
      ∀ w ∈ ws, w.AtHome domains := by
  have hr : (∃ s, ofWebsites .reject domains ws = .ok s ∧ s.hasChanges = false) ↔
      ∃ rs, List.Forall₂ (LoadedAsIs domains) ws rs :=
    ⟨fun ⟨s, h⟩ => ⟨s.records, ofWebsites_eq_ok_and_unchanged_iff.mp h⟩,
      fun ⟨rs, h⟩ => ⟨⟨rs⟩, ofWebsites_eq_ok_and_unchanged_iff.mpr h⟩⟩
  rw [hr, exists_forall₂_iff]
  exact forall₂_congr fun w _ => exists_loadedAsIs_iff

/-! ## What is submitted -/

theorem Ledger.payload_atHome (h : Ledger stored known s) (hu : Unambiguous domains)
    (hh : ∀ w ∈ stored, w.AtHome domains) (hp : s.prepare domains = .ok p) :
    ∀ w ∈ p, w.AtHome domains := by
  obtain ⟨hi, rfl⟩ := prepare_eq_ok_iff.mp hp
  rw [WorkingSet.payload_eq]
  refine List.forall_mem_map.mpr fun r hr => ?_
  obtain ⟨hr, hd⟩ := List.mem_filter.mp hr
  cases hf : r.isSubmittedFromForm with
  | true => exact WebsiteForm.atHome_settings hu (WebsiteRecord.form_issues_of_issues hi hr hf)
  | false =>
    have hb : r.baseline = some r.form.settings :=
      ((WebsiteRecord.isSubmittedFromForm_eq_false_iff (h.sound r hr)).mp hf).resolve_left
        (of_decide_eq_true hd)
    refine hh _ ?_
    rw [← h.baselines_eq, baselines, List.mem_filterMap]
    exact ⟨r, hr, hb⟩

/-- Whether every submission that a run sees accepted was prepared right before. -/
def Prepared (domains : List AvailableDomain) (s : WorkingSet) : List Step → Prop
  | [] => True
  | .submitSucceeded :: steps =>
    (∃ p, s.prepare domains = .ok p) ∧ s.submitSucceeded.Prepared domains steps
  | step :: steps => (s.step step).2.Prepared domains steps

theorem prepared_cons_of_ne {step : Step} (h : step ≠ .submitSucceeded) (s : WorkingSet)
    (steps : List Step) :
    s.Prepared domains (step :: steps) ↔ (s.step step).2.Prepared domains steps := by
  cases step <;> first | rfl | exact absurd rfl h

theorem Ledger.held_atHome (h : Ledger stored known s) (hu : Unambiguous domains)
    (hh : ∀ w ∈ stored, w.AtHome domains) {steps : List Step} (hp : s.Prepared domains steps) :
    ∀ w ∈ held stored s steps, w.AtHome domains := by
  induction steps generalizing stored s with
  | nil => exact hh
  | cons step steps ih =>
    by_cases hs : step = .submitSucceeded
    · subst hs
      obtain ⟨⟨p, hq⟩, hp⟩ := hp
      obtain ⟨-, rfl⟩ := prepare_eq_ok_iff.mp hq
      exact ih h.submitSucceeded (h.payload_atHome hu hh hq) hp
    · rw [held_cons_of_ne hs]
      exact ih (h.turn hs) hh ((prepared_cons_of_ne hs s steps).mp hp)

/-- Whatever is prepared in a run of prepared submissions is loaded, once stored, without changes,
and submitted again as it is. -/
theorem reload_prepared (hu : Unambiguous domains)
    (hs : s = .empty ∨ ∃ ws, ofWebsites .reject domains ws = .ok s ∧ s.hasChanges = false)
    {steps : List Step} (hr : s.Prepared domains steps) (hp : (s.run steps).prepare domains = .ok p)
    {saved : List Website} (hw : saved.map (·.toWebsiteSettings) = p) :
    ∃ t, ofWebsites .reject domains saved = .ok t ∧ t.hasChanges = false ∧ t.payload = p := by
  obtain ⟨ws, ho, hc⟩ : ∃ ws, ofWebsites .reject domains ws = .ok s ∧ s.hasChanges = false := by
    rcases hs with rfl | hs
    · exact ⟨[], rfl, rfl⟩
    · exact hs
  have hl := (StartsFrom.loaded ho).ledger
  have hh : ∀ w ∈ ws.map (·.toWebsiteSettings), w.AtHome domains :=
    List.forall_mem_map.mpr (exists_unchanged_iff.mp ⟨s, ho, hc⟩)
  have hq := (hl.run steps).payload_atHome hu (hl.held_atHome hu hh hr) hp
  rw [← hw] at hq
  obtain ⟨t, ht, htc⟩ := exists_unchanged_iff.mpr (List.forall_mem_map.mp hq)
  exact ⟨t, ht, htc, by rw [(StartsFrom.loaded ht).ledger.payload_eq htc, hw]⟩

theorem unambiguous_trapShow : Unambiguous trapShow := by
  -- No entry but `example.com` serves the only name that `example.com` serves.
  have hx : ∀ d ∈ trapShow, d.serves "example.com" = true → d.domain = "example.com" := by decide
  have he : ∀ e fqdn, e ∈ trapShow → e.domain ≠ "*.trap.show" → e.serves fqdn = true →
      e.domain = "example.com" ∧ fqdn = "example.com" := by
    intro e fqdn hm hd hs
    simp only [trapShow, List.mem_cons, List.not_mem_nil, or_false] at hm
    rcases hm with rfl | rfl | rfl
    · exact absurd rfl hd
    · rw [AvailableDomain.serves_of_not_isWildcard rfl, decide_eq_true_eq] at hs
      exact ⟨rfl, hs.symm⟩
    · exact absurd rfl hd
  intro fqdn d hd e hm hsd hse
  by_cases hdw : d.domain = "*.trap.show"
  · by_cases hew : e.domain = "*.trap.show"
    · rw [hdw, hew]
    · obtain ⟨hed, rfl⟩ := he e fqdn hm hew hse
      rw [hx d hd hsd, hed]
  · obtain ⟨hdd, rfl⟩ := he d fqdn hd hdw hsd
    rw [hdd, hx e hm hse]

theorem reload_prepared_refusedOnce :
    ofWebsites .reject trapShow [storedUnder "w1" "a", storedUnder "w2" "b"] = .ok twoWebsites ∧
      twoWebsites.Prepared trapShow refusedOnce ∧
      ∃ t, ofWebsites .reject trapShow
          [⟨{ (under "a").settings with httpPort := 8080 }, "x"⟩, storedUnder "y" "c"] = .ok t ∧
        t.hasChanges = false ∧
        t.payload = [{ (under "a").settings with httpPort := 8080 }, (under "c").settings] := by
  have hs := ofWebsites_trapShow
  have hr : twoWebsites.Prepared trapShow refusedOnce := ⟨⟨_, rfl⟩, trivial⟩
  have hp : (twoWebsites.run refusedOnce).prepare trapShow =
      .ok [{ (under "a").settings with httpPort := 8080 }, (under "c").settings] := by rfl
  exact ⟨hs, hr, reload_prepared unambiguous_trapShow (.inr ⟨_, hs, rfl⟩) hr hp rfl⟩

end DeploymentConfig.WorkingSet
