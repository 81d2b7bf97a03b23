import DeploymentConfig.Proofs.Website.Record
import DeploymentConfig.Website.Route

/-!
# What the checks see of a record

The check of the records of an application goes by two things that each has, its
route and the issues of its form, and by their order (`issues_congr`). Both show
in the `View` of a record, which is all of it but the state that it stores. So
records that pass have passed one by one (`form_issues_of_issues`).
-/

namespace DeploymentConfig.WebsiteRecord

variable {domains : List AvailableDomain} {rs rs' : List WebsiteRecord}

theorem indicesOf_eq (route : String × String) (rs : List WebsiteRecord) :
    indicesOf route rs =
      ((rs.map (·.route?)).zipIdx.filter (·.1 = some route)).map (·.2) := by
  rw [indicesOf, List.zipIdx_map, List.filter_map, List.map_map]
  rfl

/-- Records with the same routes, whose forms have the same issues wherever they stand, have the
same issues. -/
theorem issues_congr (hr : rs.map (·.route?) = rs'.map (·.route?))
    (hf : rs.map (·.formIssues domains) = rs'.map (·.formIssues domains)) :
    issues domains rs = issues domains rs' := by
  have hl : rs.length = rs'.length := by simpa using congrArg List.length hr
  rw [issues, issues, List.flatMap_def, List.flatMap_def]
  refine congrArg List.flatten (List.ext_getElem (by simp [hl]) fun i h₁ h₂ => ?_)
  simp only [List.length_map, List.length_zipIdx] at h₁ h₂
  have hri : rs[i].route? = rs'[i].route? := by
    have := congrArg (·[i]?) hr
    simpa [h₁, h₂] using this
  have hfi : rs[i].formIssues domains = rs'[i].formIssues domains := by
    have := congrArg (·[i]?) hf
    simpa [h₁, h₂] using this
  simp only [List.getElem_map, List.getElem_zipIdx, Nat.zero_add, issuesAfter, hri, hfi,
    indicesOf_eq, List.map_take, hr]

/-- If the records of an application have no issues, the form of each that submits it has none. -/
theorem form_issues_of_issues {r : WebsiteRecord} (h : issues domains rs = []) (hr : r ∈ rs)
    (hf : r.isSubmittedFromForm = true) : r.form.issues domains r.baseline = [] := by
  obtain ⟨i, hi⟩ := List.getElem?_of_mem hr
  rw [issues, List.flatMap_eq_nil_iff] at h
  have hn : r.issuesAfter domains (rs.take i) i = [] :=
    h (r, i) (List.mk_mem_zipIdx_iff_getElem?.mpr hi)
  rw [issuesAfter, List.append_eq_nil_iff, formIssues, if_pos hf, List.map_eq_nil_iff] at hn
  exact hn.1

/-- What is seen of a record: all but the state that it stores. -/
structure View where
  form : WebsiteForm
  baseline : Option WebsiteSettings
  id : Option String
  effectiveState : EditState
  submitted? : Option WebsiteSettings

def view (r : WebsiteRecord) : View :=
  ⟨r.form, r.baseline, r.id, r.effectiveState, r.submitted?⟩

/-- What can be read off the views of records is the same for records of the same views. -/
theorem map_eq_of_view {α : Type} {f : WebsiteRecord → α} (g : View → α) (hf : ∀ r, f r = g r.view)
    (h : rs.map view = rs'.map view) : rs.map f = rs'.map f := by
  rw [show f = g ∘ view from funext hf, ← List.map_map, h, List.map_map]

theorem issues_eq_of_view (h : rs.map view = rs'.map view) :
    issues domains rs = issues domains rs' :=
  issues_congr (map_eq_of_view (fun v => v.submitted?.map (·.route)) (fun _ => rfl) h)
    (map_eq_of_view (fun v index =>
      if v.effectiveState = .readyToChange || v.effectiveState = .added then
        (v.form.issues domains v.baseline).map (·.under (path index))
      else []) (fun _ => rfl) h)

theorem view_rested {r : WebsiteRecord} (h : r.Sound) : r.rested.view = r.view := by
  simp only [view, effectiveState_rested h, submitted?_rested]
  rfl

end DeploymentConfig.WebsiteRecord
