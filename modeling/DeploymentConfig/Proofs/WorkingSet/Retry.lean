import DeploymentConfig.Proofs.WorkingSet.Loading
import DeploymentConfig.Proofs.Website.Views
import Mathlib.Data.List.InsertIdx

/-!
# A refused submission is not seen

A refusal lets the edited records rest, and nothing else. Sets that are equal
once all records rest take every step alike (`step_rested`), and when their
records are sound nobody tells them apart (`alike_of_rested`). So a run with
refusals has the outcomes of the run without them (`outcomes_withoutRefusals`).
-/

namespace DeploymentConfig.WorkingSet

variable {s t : WorkingSet}

/-- The set with all records at rest. -/
def rested (s : WorkingSet) : WorkingSet :=
  ⟨s.records.map WebsiteRecord.rested⟩

theorem submitFailed_eq (s : WorkingSet) : s.submitFailed = s.rested :=
  congrArg mk s.submitFailed_records

theorem rested_rested (s : WorkingSet) : s.rested.rested = s.rested := by
  rw [rested, rested, List.map_map, WebsiteRecord.rested_comp_rested]

theorem getElem?_rested (s : WorkingSet) (i : Nat) :
    s.rested.records[i]? = s.records[i]?.map WebsiteRecord.rested := by
  rw [rested, List.getElem?_map]

theorem submitSucceeded_rested (s : WorkingSet) : s.rested.submitSucceeded = s.submitSucceeded := by
  have hk : s.rested.kept = s.kept.map WebsiteRecord.rested := by
    rw [kept, kept, rested, List.filter_map]
    refine congrArg (fun p => (s.records.filter p).map _) (funext fun r => ?_)
    simp
  refine congrArg mk ?_
  change s.rested.submitSucceeded.records = s.submitSucceeded.records
  rw [submitSucceeded_records, submitSucceeded_records, hk, List.map_map]
  exact List.map_congr_left fun r _ => r.accepted_rested

/-- A step answers the same, and leads to the same but for rest, whether or not the records rest
before it. -/
theorem step_rested (s : WorkingSet) (step : Step) :
    (s.rested.step step).1 = (s.step step).1 ∧
      (s.rested.step step).2.rested = (s.step step).2.rested := by
  cases step with
  | add form => simp [WorkingSet.step, add, rested]
  | addDefault domains =>
    cases h : freeDomain? domains <;> simp [WorkingSet.step, addDefault, h, commit, add, rested]
  | edit i change =>
    have hr := s.getElem?_rested i
    cases h : s.records[i]? with
    | none =>
      rw [h, Option.map_none] at hr
      simp [step_edit_of_eq_none h, step_edit_of_eq_none hr, rested_rested]
    | some r =>
      rw [h, Option.map_some] at hr
      rw [step_edit_of_eq_some h, step_edit_of_eq_some hr]
      simp [rested, List.map_set]
  | delete i =>
    have hr := s.getElem?_rested i
    cases h : s.records[i]? with
    | none =>
      rw [h, Option.map_none] at hr
      simp [step_delete_of_eq_none h, step_delete_of_eq_none hr, rested_rested]
    | some r =>
      rw [h, Option.map_some] at hr
      rw [step_delete_of_eq_some h, step_delete_of_eq_some hr, WebsiteRecord.marked_rested]
      by_cases ha : r.state = .added <;>
        simp [ha, rested, List.map_set, List.eraseIdx_map]
  | submitSucceeded => exact ⟨rfl, congrArg rested (submitSucceeded_rested s)⟩
  | submitFailed => simp [WorkingSet.step, submitFailed_eq, rested_rested]

/-! ## What is seen of a set -/

/-- Sets that nobody tells apart: by their records, by what they submit, or by any check. -/
structure Alike (s t : WorkingSet) : Prop where
  records : s.records.map (·.view) = t.records.map (·.view)
  payload : s.payload = t.payload
  hasChanges : s.hasChanges = t.hasChanges
  prepare : ∀ domains, s.prepare domains = t.prepare domains

theorem alike_of_view (h : s.records.map (·.view) = t.records.map (·.view)) : Alike s t := by
  have hp : s.payload = t.payload := by
    have := WebsiteRecord.map_eq_of_view (f := (·.submitted?)) (·.submitted?) (fun _ => rfl) h
    simpa only [payload, List.filterMap_map, Function.comp_def, id_eq] using
      congrArg (List.filterMap id) this
  have hc : s.hasChanges = t.hasChanges := by
    have := WebsiteRecord.map_eq_of_view (f := (·.effectiveState)) (·.effectiveState)
      (fun _ => rfl) h
    simpa only [hasChanges, List.any_map, Function.comp_def] using
      congrArg (List.any · (· ≠ .noChange)) this
  refine ⟨h, hp, hc, fun domains => ?_⟩
  rw [prepare, prepare, WebsiteRecord.check, WebsiteRecord.check,
    WebsiteRecord.issues_eq_of_view h, hp]

theorem alike_of_rested (hs : ∀ r ∈ s.records, r.Sound) (ht : ∀ r ∈ t.records, r.Sound)
    (h : s.rested = t.rested) : Alike s t := by
  have hv : ∀ u : WorkingSet, (∀ r ∈ u.records, r.Sound) →
      u.records.map (·.view) = u.rested.records.map (·.view) := by
    intro u hu
    rw [rested, List.map_map]
    exact List.map_congr_left fun r hr => (WebsiteRecord.view_rested (hu r hr)).symm
  exact alike_of_view (by rw [hv s hs, hv t ht, h])

/-! ## Runs -/

/-- A run without its refused submissions. -/
def withoutRefusals (steps : List Step) : List Step :=
  steps.filter fun step => match step with
    | .submitFailed => false
    | _ => true

/-- What the steps of a run answer, and the sets they lead to, but for refused submissions. -/
def outcomes (s : WorkingSet) : List Step → List (Answer × WorkingSet)
  | [] => []
  | .submitFailed :: steps => s.submitFailed.outcomes steps
  | step :: steps => s.step step :: (s.step step).2.outcomes steps

theorem withoutRefusals_cons_of_ne {step : Step} (h : step ≠ .submitFailed) (steps : List Step) :
    withoutRefusals (step :: steps) = step :: withoutRefusals steps := by
  cases step <;> first | rfl | exact absurd rfl h

theorem outcomes_cons_of_ne {step : Step} (h : step ≠ .submitFailed) (s : WorkingSet)
    (steps : List Step) :
    s.outcomes (step :: steps) = s.step step :: (s.step step).2.outcomes steps := by
  cases step <;> first | rfl | exact absurd rfl h

theorem outcomes_of_rested (hs : ∀ r ∈ s.records, r.Sound) (ht : ∀ r ∈ t.records, r.Sound)
    (h : s.rested = t.rested) (steps : List Step) :
    List.Forall₂ (fun a b => a.1 = b.1 ∧ Alike a.2 b.2) (s.outcomes steps)
      (t.outcomes (withoutRefusals steps)) := by
  induction steps generalizing s t with
  | nil => exact .nil
  | cons step steps ih =>
    by_cases hf : step = .submitFailed
    · subst hf
      refine ih (sound_step hs .submitFailed) ht ?_
      rw [submitFailed_eq, rested_rested, h]
    · obtain ⟨ha, hn⟩ := step_rested s step
      rw [h, (step_rested t step).1] at ha
      rw [h, (step_rested t step).2] at hn
      rw [outcomes_cons_of_ne hf, withoutRefusals_cons_of_ne hf, outcomes_cons_of_ne hf]
      have hs' := sound_step hs step
      have ht' := sound_step ht step
      exact .cons ⟨ha.symm, alike_of_rested hs' ht' hn.symm⟩ (ih hs' ht' hn.symm)

/-- Leaving the refused submissions out of a run changes no answer of the others, and nothing that
is seen of the sets after them. -/
theorem outcomes_withoutRefusals {ws : List Website} (h : StartsFrom ws s) (steps : List Step) :
    List.Forall₂ (fun a b => a.1 = b.1 ∧ Alike a.2 b.2) (s.outcomes steps)
      (s.outcomes (withoutRefusals steps)) :=
  outcomes_of_rested h.sound h.sound rfl steps

theorem outcomes_withoutRefusals_refusedOnce :
    StartsFrom [storedUnder "w1" "a", storedUnder "w2" "b"] twoWebsites ∧
      List.Forall₂ (fun a b => a.1 = b.1 ∧ Alike a.2 b.2) (twoWebsites.outcomes refusedOnce)
        (twoWebsites.outcomes [.edit 0 fun f => { f with httpPort := 8080 }, .delete 1,
          .add (under "c"), .submitSucceeded, .delete 7]) := by
  have h := StartsFrom.loaded ofWebsites_trapShow
  exact ⟨h, outcomes_withoutRefusals h refusedOnce⟩

end DeploymentConfig.WorkingSet
