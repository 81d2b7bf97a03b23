import DeploymentConfig.Proofs.Website.Placement
import DeploymentConfig.Proofs.Website.Routes
import DeploymentConfig.Proofs.WorkingSet.Steps
import Mathlib.Data.List.Forall2

/-!
# When a submission is prepared

A set is submitted if it is submittable (`Submittable`): the websites that are
kept have routes of their own, and every form that is changed or new is admitted
by the catalog (`WebsiteForm.Admitted`). What is sent of a record goes by its
value (`WebsiteRecord.Sends`), and is what the payload holds
(`payload_eq_iff_sends`). So `prepare_iff_submittable` says what is accepted, what
is sent then, and that anything else is reported.
-/

namespace DeploymentConfig

/-- What a form has to satisfy for its record to be submitted: it stands on an entry of the catalog,
the first of its spelling, that fits, and its path and port are valid. -/
structure WebsiteForm.Admitted (f : WebsiteForm) (domains : List AvailableDomain)
    (baseline : Option WebsiteSettings) : Prop where
  domain : Text.isBlank f.domain = false
  entry : ∃ d, listed? domains f.domain = some d ∧ f.Fits baseline d
  path : f.pathPrefix.toList.head? = some '/'
  port : 1 ≤ f.httpPort.toInt ∧ f.httpPort.toInt ≤ 65535

theorem WebsiteForm.admitted_iff {f : WebsiteForm} {domains : List AvailableDomain}
    {baseline : Option WebsiteSettings} :
    f.Admitted domains baseline ↔ f.issues domains baseline = [] := by
  rw [issues_eq_nil_iff, Port.isValid_iff]
  exact ⟨fun h => ⟨⟨h.domain, h.entry⟩, h.path, h.port⟩, fun ⟨⟨hd, he⟩, hp, ht⟩ => ⟨hd, he, hp, ht⟩⟩

namespace WebsiteRecord

variable {r a b : WebsiteRecord} {w : WebsiteSettings}

theorem effectiveState_eq_readyToDelete_iff :
    r.effectiveState = .readyToDelete ↔ r.state = .readyToDelete := by
  obtain ⟨state, form, baseline, id⟩ := r
  cases baseline with
  | none => cases state <;> simp [effectiveState]
  | some w =>
    cases state with
    | readyToDelete | added => simp [effectiveState]
    | noChange | readyToChange =>
      by_cases hw : w = form.settings <;> simp [effectiveState, isDirty, hw]

theorem isSome_route?_iff : r.route?.isSome = true ↔ r.effectiveState ≠ .readyToDelete := by
  rw [Ne, effectiveState_eq_readyToDelete_iff, route?, submitted?_eq]
  split <;> simp [*]

/-- What a record that is kept contributes: its form if it is new or differs from the baseline, and
the baseline otherwise. -/
def Sends (r : WebsiteRecord) (w : WebsiteSettings) : Prop :=
  if r.isDirty = true ∨ r.effectiveState = .added then w = r.form.settings
  else r.baseline = some w

/-- A baseline is sent only where it is the same as the form. -/
theorem sends_iff : r.Sends w ↔ r.form.settings = w := by
  rw [Sends]
  split
  · exact eq_comm
  · rename_i h
    have hb : r.baseline = some r.form.settings := by
      simpa [isDirty] using fun hd => h (.inl hd)
    rw [hb, Option.some.injEq]

end WebsiteRecord

namespace WorkingSet

variable {domains : List AvailableDomain} {s : WorkingSet} {p : List WebsiteSettings}

/-- The records that are not to be removed. -/
def surviving (s : WorkingSet) : List WebsiteRecord :=
  s.records.filter (·.effectiveState ≠ .readyToDelete)

/-- Whether the websites of a set may be submitted. -/
structure Submittable (domains : List AvailableDomain) (s : WorkingSet) : Prop where
  routes : s.surviving.Pairwise fun a b => a.route? ≠ b.route?
  forms : ∀ r ∈ s.records, r.effectiveState = .readyToChange ∨ r.effectiveState = .added →
    r.form.Admitted domains r.baseline

theorem surviving_eq_kept (s : WorkingSet) : s.surviving = s.kept := by
  rw [surviving, kept]
  refine List.filter_congr fun r _ => ?_
  rw [decide_eq_decide, Ne, WebsiteRecord.effectiveState_eq_readyToDelete_iff]

theorem payload_eq_iff_sends : s.payload = p ↔ List.Forall₂ WebsiteRecord.Sends s.surviving p := by
  rw [payload_eq, surviving_eq_kept, ← List.forall₂_eq_eq_eq, List.forall₂_map_left_iff]
  have hs : (fun r w => r.form.settings = w) = WebsiteRecord.Sends :=
    funext₂ fun r w => propext WebsiteRecord.sends_iff.symm
  rw [hs]

theorem pairwise_surviving_iff :
    (s.surviving.Pairwise fun a b => a.route? ≠ b.route?) ↔
      s.records.Pairwise WebsiteRecord.Apart := by
  rw [surviving, List.pairwise_filter]
  refine List.Pairwise.iff fun a b => ?_
  simp only [decide_eq_true_eq, ← WebsiteRecord.isSome_route?_iff, WebsiteRecord.Apart]
  cases a.route? <;> cases b.route? <;> simp [eq_comm]

theorem submittable_iff : s.Submittable domains ↔ WebsiteRecord.issues domains s.records = [] := by
  rw [WebsiteRecord.issues_eq_nil_iff_apart, ← pairwise_surviving_iff]
  simp only [WebsiteRecord.isSubmittedFromForm, Bool.or_eq_true, decide_eq_true_eq,
    ← WebsiteForm.admitted_iff]
  exact ⟨fun h => ⟨h.forms, h.routes⟩, fun h => ⟨h.2, h.1⟩⟩

/-- A submission is prepared if and only if the set is submittable. It then holds, in record order,
what each record that is kept sends; otherwise it is refused with a report. -/
theorem prepare_iff_submittable (domains : List AvailableDomain) (s : WorkingSet) :
    ((∃ p, s.prepare domains = .ok p) ↔ s.Submittable domains) ∧
      (∀ p, s.prepare domains = .ok p → List.Forall₂ WebsiteRecord.Sends s.surviving p) ∧
      (¬ s.Submittable domains → ∃ report, WebsiteRecord.check domains s.records = .error report ∧
        report.issues ≠ [] ∧ s.prepare domains = .error (.invalid report)) := by
  refine ⟨?_, fun p hp => ?_, fun hs => ?_⟩
  · simp only [prepare_eq_ok_iff, submittable_iff]
    exact ⟨fun ⟨_, hi, _⟩ => hi, fun hi => ⟨_, hi, rfl⟩⟩
  · exact payload_eq_iff_sends.mp (prepare_eq_ok_iff.mp hp).2
  · have hi : WebsiteRecord.issues domains s.records ≠ [] := fun h => hs (submittable_iff.mpr h)
    have hc := Report.verdict_eq_error_iff.mpr ⟨hi, rfl⟩
    exact ⟨_, hc, hi, prepare_eq_error_iff.mpr ⟨_, hc, rfl⟩⟩

end WorkingSet

end DeploymentConfig
