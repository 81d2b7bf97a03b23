import DeploymentConfig.Website.Record

/-!
# What a record submits

Whatever its states say, a record that is kept submits its form
(`submitted?_eq`): an unchanged one sends its baseline, but then the two are the
same. A record is sound (`Sound`) if it has a baseline unless it is new. Its
effective state then shows only its value and what was asked for last
(`effectiveState_eq_noChange_iff`), so that a record whose changes are held back
(`rested`) looks the same as before (`effectiveState_rested`).
-/

namespace DeploymentConfig.WebsiteRecord

variable {r : WebsiteRecord}

theorem submitted?_eq (r : WebsiteRecord) :
    r.submitted? = if r.state = .readyToDelete then none else some r.form.settings := by
  obtain ⟨state, form, baseline, id⟩ := r
  cases baseline with
  | none => cases state <;> rfl
  | some w =>
    cases state with
    | readyToDelete | added => rfl
    | noChange | readyToChange =>
      by_cases h : w = form.settings <;> simp [submitted?, effectiveState, isDirty, h]

/-- The record has a baseline and may have an identity, unless it is new. -/
structure Sound (r : WebsiteRecord) : Prop where
  baseline_eq_none_iff : r.baseline = none ↔ r.state = .added
  id_eq_none : r.state = .added → r.id = none

theorem effectiveState_eq_noChange_iff (h : r.Sound) :
    r.effectiveState = .noChange ↔
      r.state ≠ .readyToDelete ∧ r.baseline = some r.form.settings := by
  obtain ⟨state, form, baseline, id⟩ := r
  have hb := h.baseline_eq_none_iff
  cases baseline with
  | none => cases hb.mp rfl; simp [effectiveState]
  | some w =>
    cases state with
    | readyToDelete | added => simp_all [effectiveState]
    | noChange | readyToChange =>
      by_cases hw : w = form.settings <;> simp [effectiveState, isDirty, hw]

/-- A record submits its form unless it is to be removed or unchanged. -/
theorem isSubmittedFromForm_eq_false_iff (h : r.Sound) :
    r.isSubmittedFromForm = false ↔
      r.state = .readyToDelete ∨ r.baseline = some r.form.settings := by
  obtain ⟨state, form, baseline, id⟩ := r
  have hb := h.baseline_eq_none_iff
  cases baseline with
  | none => cases hb.mp rfl; simp [isSubmittedFromForm, effectiveState]
  | some w =>
    cases state with
    | added => simp at hb
    | readyToDelete => simp [isSubmittedFromForm, effectiveState]
    | noChange | readyToChange =>
      by_cases hw : w = form.settings <;> simp [isSubmittedFromForm, effectiveState, isDirty, hw]

/-! ## What happens to a record -/

/-- The record with another form. -/
def edited (change : WebsiteForm → WebsiteForm) (r : WebsiteRecord) : WebsiteRecord :=
  { r with form := change r.form, state := (r.state.next? .edit).getD r.state }

/-- The record, to be removed. -/
def marked (r : WebsiteRecord) : WebsiteRecord :=
  { r with state := .readyToDelete }

/-- The record as it is stored once the platform has accepted it. -/
def accepted (r : WebsiteRecord) : WebsiteRecord :=
  { r with state := .noChange, baseline := some r.form.settings }

/-- The record after the platform has refused it. -/
def rested (r : WebsiteRecord) : WebsiteRecord :=
  { r with state := if r.state = .readyToChange then .noChange else r.state }

theorem next?_delete (r : WebsiteRecord) :
    r.next? .delete = if r.state = .added then none else some r.marked := by
  obtain ⟨state, form, baseline, id⟩ := r
  cases state <;> rfl

theorem next?_submitSucceeded (r : WebsiteRecord) :
    { r with baseline := some r.form.settings : WebsiteRecord }.next? .submitSucceeded =
      if r.state = .readyToDelete then none else some r.accepted := by
  obtain ⟨state, form, baseline, id⟩ := r
  cases state <;> rfl

theorem next?_submitFailed (r : WebsiteRecord) : r.next? .submitFailed = some r.rested := by
  obtain ⟨state, form, baseline, id⟩ := r
  cases state <;> rfl

@[simp] theorem edited_state_eq_added_iff {change : WebsiteForm → WebsiteForm} :
    (r.edited change).state = .added ↔ r.state = .added := by
  simp only [edited]
  cases r.state <;> simp [EditState.next?]

@[simp] theorem rested_state_eq_added_iff : r.rested.state = .added ↔ r.state = .added := by
  simp only [rested]
  cases r.state <;> simp

@[simp] theorem rested_state_eq_readyToDelete_iff :
    r.rested.state = .readyToDelete ↔ r.state = .readyToDelete := by
  simp only [rested]
  cases r.state <;> simp

theorem sound_added (form : WebsiteForm) : (added form).Sound :=
  ⟨by simp [added], fun _ => rfl⟩

theorem sound_stored (w : Website) (form : WebsiteForm) : (stored w form).Sound :=
  ⟨by simp [stored], by simp [stored]⟩

theorem Sound.edited (h : r.Sound) (change : WebsiteForm → WebsiteForm) :
    (r.edited change).Sound :=
  ⟨h.baseline_eq_none_iff.trans edited_state_eq_added_iff.symm,
    fun ha => h.id_eq_none (edited_state_eq_added_iff.mp ha)⟩

theorem Sound.marked (h : r.Sound) (hs : r.state ≠ .added) : r.marked.Sound :=
  ⟨by simpa [WebsiteRecord.marked] using fun hb => hs (h.baseline_eq_none_iff.mp hb),
    by simp [WebsiteRecord.marked]⟩

theorem sound_accepted (r : WebsiteRecord) : r.accepted.Sound :=
  ⟨by simp [accepted], by simp [accepted]⟩

theorem Sound.rested (h : r.Sound) : r.rested.Sound :=
  ⟨h.baseline_eq_none_iff.trans rested_state_eq_added_iff.symm,
    fun ha => h.id_eq_none (rested_state_eq_added_iff.mp ha)⟩

/-! ## Resting -/

@[simp] theorem rested_edited (change : WebsiteForm → WebsiteForm) (r : WebsiteRecord) :
    (r.rested.edited change).rested = (r.edited change).rested := by
  obtain ⟨state, form, baseline, id⟩ := r
  cases state <;> rfl

@[simp] theorem rested_rested (r : WebsiteRecord) : r.rested.rested = r.rested := by
  obtain ⟨state, form, baseline, id⟩ := r
  cases state <;> rfl

@[simp] theorem rested_comp_rested : rested ∘ rested = rested :=
  funext rested_rested

theorem marked_rested (r : WebsiteRecord) : r.rested.marked = r.marked := rfl

theorem accepted_rested (r : WebsiteRecord) : r.rested.accepted = r.accepted := rfl

/-- A sound record that rests is told apart from one that is changed by its value alone. -/
theorem effectiveState_rested (h : r.Sound) : r.rested.effectiveState = r.effectiveState := by
  obtain ⟨state, form, baseline, id⟩ := r
  have hb := h.baseline_eq_none_iff
  cases baseline with
  | none => cases hb.mp rfl; rfl
  | some w => cases state <;> rfl

theorem submitted?_rested (r : WebsiteRecord) : r.rested.submitted? = r.submitted? := by
  obtain ⟨state, form, baseline, id⟩ := r
  cases state <;> simp [submitted?_eq, rested]

end DeploymentConfig.WebsiteRecord
