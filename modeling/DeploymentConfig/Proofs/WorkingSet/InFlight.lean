import DeploymentConfig.Proofs.WorkingSet.Ledger

/-!
# Steps while a submission is in flight

A payload is sent before it is accepted, and the set may change in between. The
set does not remember what it has sent: once told of the acceptance it takes what
it would send by then for stored (`baselines_submitSucceeded`). So it takes what
was sent for stored exactly if it would send the same again, and any other value
was written by a step in between (`submitSucceeded_run`).
-/

namespace DeploymentConfig.WorkingSet

variable {s : WorkingSet} {w : WebsiteSettings}

/-! ## After acceptance -/

theorem kept_submitSucceeded (s : WorkingSet) :
    s.submitSucceeded.kept = s.kept.map WebsiteRecord.accepted := by
  rw [kept, submitSucceeded_records]
  exact List.filter_eq_self.mpr (List.forall_mem_map.mpr fun r _ => rfl)

theorem payload_submitSucceeded (s : WorkingSet) : s.submitSucceeded.payload = s.payload := by
  rw [payload_eq, kept_submitSucceeded, payload_eq, List.map_map]
  rfl

theorem hasChanges_submitSucceeded (s : WorkingSet) : s.submitSucceeded.hasChanges = false := by
  rw [hasChanges_eq_false_iff, submitSucceeded_records]
  refine List.forall_mem_map.mpr fun r _ => ?_
  exact (WebsiteRecord.effectiveState_eq_noChange_iff r.sound_accepted).mpr ⟨nofun, rfl⟩

/-! ## Where values come from -/

/-- The values that a step writes into records. -/
def writes (s : WorkingSet) : Step → List WebsiteSettings
  | .add form => [form.settings]
  | .addDefault domains =>
    (freeDomain? domains).toList.map fun d => (WebsiteForm.new d.domain).settings
  | .edit index change => s.records[index]?.toList.map fun r => (change r.form).settings
  | .delete _ | .submitSucceeded | .submitFailed => []

/-- The values that a run writes into records. -/
def written (s : WorkingSet) : List Step → List WebsiteSettings
  | [] => []
  | step :: steps => s.writes step ++ (s.step step).2.written steps

theorem mem_payload_iff :
    w ∈ s.payload ↔ ∃ r ∈ s.records, r.state ≠ .readyToDelete ∧ r.form.settings = w := by
  simp [payload_eq, kept, and_assoc]

theorem mem_payload_add {form : WebsiteForm} (h : w ∈ (s.add form).payload) :
    w ∈ s.payload ∨ w = form.settings := by
  obtain ⟨r, hr, hd, rfl⟩ := mem_payload_iff.mp h
  rcases List.mem_append.mp hr with hr | hr
  · exact .inl (mem_payload_iff.mpr ⟨r, hr, hd, rfl⟩)
  · rw [List.mem_singleton.mp hr]
    exact .inr rfl

/-- What a step leaves to be submitted was to be submitted before, or is written by the step. -/
theorem mem_payload_step {step : Step} (h : w ∈ (s.step step).2.payload) :
    w ∈ s.payload ∨ w ∈ s.writes step := by
  cases step with
  | add form => exact (mem_payload_add h).imp_right List.mem_singleton.mpr
  | addDefault domains =>
    simp only [WorkingSet.step, addDefault] at h
    cases hd : freeDomain? domains with
    | none =>
      rw [hd] at h
      exact .inl h
    | some d =>
      rw [hd] at h
      simp only [writes, hd]
      exact (mem_payload_add h).imp_right List.mem_singleton.mpr
  | edit index change =>
    cases hi : s.records[index]? with
    | none =>
      rw [step_edit_of_eq_none hi] at h
      exact .inl h
    | some r₀ =>
      rw [step_edit_of_eq_some hi] at h
      obtain ⟨r, hr, hd, rfl⟩ := mem_payload_iff.mp h
      rcases List.mem_or_eq_of_mem_set hr with hr | rfl
      · exact .inl (mem_payload_iff.mpr ⟨r, hr, hd, rfl⟩)
      · simp only [writes, hi]
        exact .inr List.mem_cons_self
  | delete index =>
    left
    cases hi : s.records[index]? with
    | none => rwa [step_delete_of_eq_none hi] at h
    | some r₀ =>
      rw [step_delete_of_eq_some hi] at h
      obtain ⟨r, hr, hd, rfl⟩ := mem_payload_iff.mp h
      refine mem_payload_iff.mpr ⟨r, ?_, hd, rfl⟩
      simp only at hr
      split at hr
      · exact List.mem_of_mem_eraseIdx hr
      · exact (List.mem_or_eq_of_mem_set hr).resolve_right fun he => hd (he ▸ rfl)
  | submitSucceeded =>
    rw [WorkingSet.step, payload_submitSucceeded] at h
    exact .inl h
  | submitFailed =>
    obtain ⟨r, hr, hd, rfl⟩ := mem_payload_iff.mp h
    rw [WorkingSet.step, submitFailed_records] at hr
    obtain ⟨r', hr', rfl⟩ := List.mem_map.mp hr
    exact .inl (mem_payload_iff.mpr
      ⟨r', hr', mt WebsiteRecord.rested_state_eq_readyToDelete_iff.mpr hd, rfl⟩)

theorem mem_payload_run {steps : List Step} (h : w ∈ (s.run steps).payload) :
    w ∈ s.payload ∨ w ∈ s.written steps := by
  induction steps generalizing s with
  | nil => exact .inl h
  | cons step steps ih =>
    rw [written, List.mem_append, ← or_assoc]
    exact (ih h).imp_left mem_payload_step

/-! ## Acceptance after a run -/

/-- After an acceptance the set has no changes, and takes for stored what it would send. That is
what was sent, `steps` ago, exactly if it would have been sent again; what else is taken for stored
was written by these steps. -/
theorem submitSucceeded_run (s : WorkingSet) (steps : List Step) :
    (s.run steps).submitSucceeded.hasChanges = false ∧
      (s.run steps).submitSucceeded.baselines = (s.run steps).payload ∧
      (s.run steps).submitSucceeded.payload = (s.run steps).payload ∧
      ((((s.run steps).submitSucceeded.hasChanges = false →
            (s.run steps).submitSucceeded.payload = s.payload) ∧
          ∀ w ∈ (s.run steps).submitSucceeded.baselines, w ∈ s.payload) ↔
        (s.run steps).payload = s.payload) ∧
      ∀ w ∈ (s.run steps).submitSucceeded.baselines, w ∈ s.payload ∨ w ∈ s.written steps := by
  have hc := hasChanges_submitSucceeded (s.run steps)
  have hb := baselines_submitSucceeded (s.run steps)
  have hp := payload_submitSucceeded (s.run steps)
  refine ⟨hc, hb, hp, ⟨fun h => hp.symm.trans (h.1 hc), fun h => ⟨fun _ => hp.trans h, ?_⟩⟩, ?_⟩
  · rw [hb, h]
    exact fun _ hw => hw
  · rw [hb]
    exact fun _ => mem_payload_run

/-- A website is edited after it was sent. -/
def lateEdit : List Step :=
  [.edit 0 fun f => { f with httpPort := 8080 }]

/-- The late edit is taken for stored, and not sent again. -/
theorem baseline_not_sent_of_lateEdit :
    ofWebsites .reject trapShow [storedUnder "w1" "a", storedUnder "w2" "b"] = .ok twoWebsites ∧
      (twoWebsites.run lateEdit).submitSucceeded.hasChanges = false ∧
      (twoWebsites.run lateEdit).submitSucceeded.payload ≠ twoWebsites.payload ∧
      ∃ w ∈ (twoWebsites.run lateEdit).submitSucceeded.baselines, w ∉ twoWebsites.payload := by
  have hw : { (under "a").settings with httpPort := 8080 } ∈
      (twoWebsites.run lateEdit).submitSucceeded.baselines := by decide
  exact ⟨ofWebsites_trapShow, by decide, by decide, _, hw, by decide⟩

end DeploymentConfig.WorkingSet
