import DeploymentConfig.Proofs.WorkingSet.Acceptance
import DeploymentConfig.Proofs.WorkingSet.InFlight

/-!
# A set that is settled

Acceptance makes a record of what each record that is kept has sent. No form is
submitted then, so that no catalog is asked about it any more, and the routes
stay what they were. So the set is prepared for every catalog exactly if its
routes were apart before (`prepare_submitSucceeded_eq_ok_iff`), and as a set that
passed has routes apart, it is settled (`settled_of_prepare`): it sends the same
again whatever the catalog, and the end of another submission does not change it.
-/

namespace DeploymentConfig

namespace WebsiteRecord

variable {r : WebsiteRecord}

/-- Whether a record is that of a stored value, without changes. -/
structure IsStoredAs (r : WebsiteRecord) (w : WebsiteSettings) : Prop where
  state : r.state = .noChange
  effectiveState : r.effectiveState = .noChange
  baseline : r.baseline = some w
  settings : r.form.settings = w

theorem isStoredAs_accepted (r : WebsiteRecord) : r.accepted.IsStoredAs r.form.settings :=
  ⟨rfl, (effectiveState_eq_noChange_iff r.sound_accepted).mpr ⟨nofun, rfl⟩, rfl, rfl⟩

theorem accepted_comp_accepted : accepted ∘ accepted = accepted := rfl

theorem rested_comp_accepted : rested ∘ accepted = accepted := rfl

theorem route?_accepted (h : r.state ≠ .readyToDelete) : r.accepted.route? = r.route? := by
  have ha : r.accepted.state ≠ .readyToDelete := by simp [accepted]
  rw [route?, route?, submitted?_eq, submitted?_eq, if_neg h, if_neg ha]
  rfl

end WebsiteRecord

namespace WorkingSet

variable {domains : List AvailableDomain} {s : WorkingSet} {p : List WebsiteSettings}

/-! ## What acceptance leaves -/

theorem submitSucceeded_submitSucceeded (s : WorkingSet) :
    s.submitSucceeded.submitSucceeded = s.submitSucceeded := by
  refine congrArg mk ?_
  change s.submitSucceeded.submitSucceeded.records = s.submitSucceeded.records
  rw [submitSucceeded_records, kept_submitSucceeded, List.map_map,
    WebsiteRecord.accepted_comp_accepted, submitSucceeded_records]

theorem submitFailed_submitSucceeded (s : WorkingSet) :
    s.submitSucceeded.submitFailed = s.submitSucceeded := by
  refine congrArg mk ?_
  change s.submitSucceeded.submitFailed.records = s.submitSucceeded.records
  rw [submitFailed_records, submitSucceeded_records, List.map_map,
    WebsiteRecord.rested_comp_accepted]

theorem surviving_submitSucceeded (s : WorkingSet) :
    s.submitSucceeded.surviving = s.surviving.map WebsiteRecord.accepted := by
  rw [surviving_eq_kept, surviving_eq_kept, kept_submitSucceeded]

/-- What was apart stays apart, and the other way round. -/
theorem pairwise_surviving_submitSucceeded_iff :
    (s.submitSucceeded.surviving.Pairwise fun a b => a.route? ≠ b.route?) ↔
      s.surviving.Pairwise fun a b => a.route? ≠ b.route? := by
  rw [surviving_submitSucceeded, List.pairwise_map]
  refine List.Pairwise.iff_of_mem fun {a b} ha hb => ?_
  have hk : ∀ r ∈ s.surviving, r.state ≠ .readyToDelete := by
    intro r hr
    rw [surviving_eq_kept] at hr
    exact of_decide_eq_true (List.mem_filter.mp hr).2
  rw [WebsiteRecord.route?_accepted (hk a ha), WebsiteRecord.route?_accepted (hk b hb)]

theorem submittable_submitSucceeded_iff : s.submitSucceeded.Submittable domains ↔
    s.surviving.Pairwise fun a b => a.route? ≠ b.route? := by
  rw [← pairwise_surviving_submitSucceeded_iff]
  refine ⟨fun h => h.routes, fun h => ⟨h, fun r hr he => ?_⟩⟩
  -- No record submits its form, so that nothing is asked of any form.
  rw [submitSucceeded_records] at hr
  obtain ⟨r, -, rfl⟩ := List.mem_map.mp hr
  rw [r.isStoredAs_accepted.effectiveState] at he
  rcases he with he | he <;> cases he

/-- After an acceptance, whatever the catalog, the same payload is sent again if and only if its
routes are apart. -/
theorem prepare_submitSucceeded_eq_ok_iff : s.submitSucceeded.prepare domains = .ok p ↔
    (s.surviving.Pairwise fun a b => a.route? ≠ b.route?) ∧ s.payload = p := by
  rw [prepare_eq_ok_iff, ← submittable_iff, submittable_submitSucceeded_iff,
    payload_submitSucceeded]

theorem forall₂_isStoredAs_submitSucceeded (s : WorkingSet) :
    List.Forall₂ WebsiteRecord.IsStoredAs s.submitSucceeded.records s.payload := by
  rw [submitSucceeded_records, payload_eq, List.forall₂_map_left_iff, List.forall₂_map_right_iff,
    List.forall₂_same]
  exact fun r _ => r.isStoredAs_accepted

/-! ## Settled sets -/

theorem run_eq_self {steps : List Step} (h : ∀ step ∈ steps, (s.step step).2 = s) :
    s.run steps = s :=
  List.foldlRecOn steps (fun s step => (s.step step).2) (motive := (· = s)) rfl
    fun _ hs step hm => hs ▸ h step hm

/-- Whether a set holds stored websites and nothing else, is ready to send them again in every
catalog, and rests through the end of any submission. -/
structure Settled (p : List WebsiteSettings) (s : WorkingSet) : Prop where
  records : List.Forall₂ WebsiteRecord.IsStoredAs s.records p
  hasChanges : s.hasChanges = false
  prepare : ∀ domains, s.prepare domains = .ok p
  run_eq : ∀ steps, (∀ step ∈ steps, step = .submitSucceeded ∨ step = .submitFailed) →
    s.run steps = s

/-- Once a submission that was prepared has been accepted, the set is settled with what was sent. -/
theorem settled_of_prepare (h : s.prepare domains = .ok p) : Settled p s.submitSucceeded := by
  obtain ⟨hi, rfl⟩ := prepare_eq_ok_iff.mp h
  have hr := (submittable_iff.mpr hi).routes
  refine ⟨forall₂_isStoredAs_submitSucceeded s, hasChanges_submitSucceeded s, fun other => ?_,
    fun steps hs => run_eq_self fun step hm => ?_⟩
  · exact prepare_submitSucceeded_eq_ok_iff.mpr ⟨hr, rfl⟩
  · rcases hs step hm with rfl | rfl
    · exact submitSucceeded_submitSucceeded s
    · exact submitFailed_submitSucceeded s

/-- One of each, before it is submitted. -/
def threeChanges : List Step :=
  [.edit 0 fun f => { f with httpPort := 8080 }, .delete 1, .add (under "c")]

/-- A changed website and a new one are settled, and one is gone. -/
theorem settled_of_prepare_threeChanges :
    (twoWebsites.run threeChanges).prepare trapShow =
        .ok [{ (under "a").settings with httpPort := 8080 }, (under "c").settings] ∧
      Settled [{ (under "a").settings with httpPort := 8080 }, (under "c").settings]
        (twoWebsites.run threeChanges).submitSucceeded ∧
      (twoWebsites.run threeChanges).hasChanges = true ∧
      (twoWebsites.run threeChanges).prepare [] ≠
        .ok [{ (under "a").settings with httpPort := 8080 }, (under "c").settings] := by
  have hp : (twoWebsites.run threeChanges).prepare trapShow =
      .ok [{ (under "a").settings with httpPort := 8080 }, (under "c").settings] := by rfl
  exact ⟨hp, settled_of_prepare hp, rfl, by rw [Ne, prepare_eq_ok_iff]; decide⟩

end WorkingSet

end DeploymentConfig
