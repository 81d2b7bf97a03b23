import DeploymentConfig.Proofs.Website.Views
import DeploymentConfig.Proofs.WorkingSet.Acceptance
import DeploymentConfig.Proofs.WorkingSet.Ledger
import Mathlib.Data.List.Nodup

/-!
# Removed websites

A record that is marked for removal stays marked until a submission is accepted
(`exists_marked_run`), which drops it (`notMem_ids_submitSucceeded`); and as no
step brings an identity back (`ids_run_sublist`), it is gone for good. Until then
the set is as if without it: it submits the same and is prepared for the same
catalogs (`removing_of_marked`). `removal_isFinal` puts these together.
-/

namespace DeploymentConfig

namespace WebsiteRecord

variable {x : String} {r : WebsiteRecord}

/-- Whether a record is the one with an identity, and is to be removed. -/
def IsMarked (x : String) (r : WebsiteRecord) : Prop :=
  r.id = some x ∧ r.state = .readyToDelete

theorem IsMarked.edited (h : r.IsMarked x) (change : WebsiteForm → WebsiteForm) :
    (r.edited change).IsMarked x :=
  ⟨h.1, by simp only [WebsiteRecord.edited, h.2]; rfl⟩

theorem IsMarked.marked (h : r.IsMarked x) : r.marked.IsMarked x :=
  ⟨h.1, rfl⟩

theorem IsMarked.rested (h : r.IsMarked x) : r.rested.IsMarked x :=
  ⟨h.1, rested_state_eq_readyToDelete_iff.mpr h.2⟩

theorem isSubmittedFromForm_of_readyToDelete (h : r.state = .readyToDelete) :
    r.isSubmittedFromForm = false := by
  simp [isSubmittedFromForm, effectiveState_eq_readyToDelete_iff.mpr h]

theorem formIssues_of_readyToDelete {domains : List AvailableDomain}
    (h : r.state = .readyToDelete) : r.formIssues domains = fun _ => [] := by
  funext index
  rw [formIssues, isSubmittedFromForm_of_readyToDelete h, if_neg Bool.false_ne_true]

theorem route?_of_readyToDelete (h : r.state = .readyToDelete) : r.route? = none := by
  rw [route?, submitted?_eq, if_pos h, Option.map_none]

end WebsiteRecord

namespace WorkingSet

variable {x : String} {s : WorkingSet}

/-! ## Runs -/

theorem exists_marked_run (h : ∃ r ∈ s.records, r.IsMarked x) {steps : List Step}
    (hs : ∀ step ∈ steps, step ≠ .submitSucceeded) : ∃ r ∈ (s.run steps).records, r.IsMarked x := by
  induction steps generalizing s with
  | nil => exact h
  | cons step steps ih =>
    obtain ⟨hstep, hs⟩ := List.forall_mem_cons.mp hs
    refine ih ((turn_step s hstep).exists_mem (fun r hr => ?_) (fun r change hr => hr.edited change)
      (fun r hr => hr.marked) (fun r hr => hr.rested) h) hs
    rw [hr.2]
    nofun

/-- No step brings an identity in. -/
theorem ids_run_sublist (hs : ∀ r ∈ s.records, r.Sound) (steps : List Step) :
    (s.run steps).ids.Sublist s.ids :=
  have h : Ledger s.baselines s.ids s := ⟨hs, rfl, .refl _⟩
  (h.run steps).ids_sublist

/-- An accepted submission drops an identity whose records are all marked. -/
theorem notMem_ids_submitSucceeded (h : ∀ r ∈ s.records, r.id = some x → r.state = .readyToDelete) :
    x ∉ s.submitSucceeded.ids := by
  rw [ids, submitSucceeded_records, List.mem_filterMap]
  rintro ⟨_, ha, hx⟩
  obtain ⟨r, hr, rfl⟩ := List.mem_map.mp ha
  obtain ⟨hm, hk⟩ := List.mem_filter.mp hr
  exact of_decide_eq_true hk (h r hm hx)

/-! ## Passing over a record -/

/-- The set without the record with an identity. -/
def without (x : String) (s : WorkingSet) : WorkingSet :=
  ⟨s.records.filter (·.id ≠ some x)⟩

/-- The set in which the record with an identity has another form and another baseline. -/
def revalued (x : String) (form : WebsiteForm) (baseline : Option WebsiteSettings)
    (s : WorkingSet) : WorkingSet :=
  ⟨s.records.map fun r => if r.id = some x then { r with form, baseline } else r⟩

theorem filter_eq_singleton_of_nodup {α β : Type} [DecidableEq β] {g : α → Option β} {xs : List α}
    {a : α} {b : β} (h : (xs.filterMap g).Nodup) (ha : a ∈ xs) (hg : g a = some b) :
    xs.filter (g · = some b) = [a] := by
  obtain ⟨ys, zs, rfl⟩ := List.append_of_mem ha
  rw [List.filterMap_append, List.filterMap_cons_some hg, List.nodup_middle,
    ← List.filterMap_append, List.nodup_cons, List.mem_filterMap] at h
  have hnone {us : List α} (hu : ∀ u ∈ us, u ∈ ys ++ zs) : us.filter (g · = some b) = [] :=
    List.filter_eq_nil_iff.mpr fun u hm hp => h.1 ⟨u, hu u hm, of_decide_eq_true hp⟩
  rw [List.filter_append, List.filter_cons, if_pos (decide_eq_true hg),
    hnone fun u => List.mem_append_left zs, hnone fun u => List.mem_append_right ys,
    List.nil_append]

section Marked

variable (h : ∀ r ∈ s.records, r.id = some x → r.state = .readyToDelete)

include h

theorem surviving_without : (s.without x).surviving = s.surviving := by
  rw [surviving_eq_kept, surviving_eq_kept, kept, kept, without, List.filter_filter]
  refine List.filter_congr fun r hr => ?_
  by_cases hx : r.id = some x <;> simp [hx, h r hr]

theorem payload_without : (s.without x).payload = s.payload := by
  rw [payload_eq, payload_eq, ← surviving_eq_kept, ← surviving_eq_kept, surviving_without h]

theorem submittable_without_iff {domains : List AvailableDomain} :
    (s.without x).Submittable domains ↔ s.Submittable domains := by
  have hrecord : ∀ r ∈ s.records, r.effectiveState = .readyToChange ∨ r.effectiveState = .added →
      r ∈ (s.without x).records := by
    refine fun r hr he => List.mem_filter.mpr ⟨hr, decide_eq_true fun hx => ?_⟩
    rw [WebsiteRecord.effectiveState_eq_readyToDelete_iff.mpr (h r hr hx)] at he
    simp at he
  constructor
  · intro hs
    exact ⟨surviving_without h ▸ hs.routes, fun r hr he => hs.forms r (hrecord r hr he) he⟩
  · intro hs
    exact ⟨(surviving_without h).symm ▸ hs.routes,
      fun r hr he => hs.forms r (List.mem_filter.mp hr).1 he⟩

theorem prepare_without_eq_ok_iff {domains : List AvailableDomain} {p : List WebsiteSettings} :
    (s.without x).prepare domains = .ok p ↔ s.prepare domains = .ok p := by
  rw [prepare_eq_ok_iff, prepare_eq_ok_iff, ← submittable_iff, ← submittable_iff,
    submittable_without_iff h, payload_without h]

/-- What is read of records, but not of those to be removed, is the same whatever they hold. -/
theorem map_revalued {α : Type} {f : WebsiteRecord → α} {a : α}
    (hf : ∀ r, r.state = .readyToDelete → f r = a) (form : WebsiteForm)
    (baseline : Option WebsiteSettings) :
    (s.revalued x form baseline).records.map f = s.records.map f := by
  rw [revalued, List.map_map]
  refine List.map_congr_left fun r hr => ?_
  by_cases hx : r.id = some x
  · have hd := h r hr hx
    have hd' : ({ r with form, baseline } : WebsiteRecord).state = .readyToDelete := hd
    rw [Function.comp_apply, if_pos hx, hf _ hd', hf r hd]
  · rw [Function.comp_apply, if_neg hx]

theorem prepare_revalued (form : WebsiteForm) (baseline : Option WebsiteSettings)
    (domains : List AvailableDomain) :
    (s.revalued x form baseline).prepare domains = s.prepare domains := by
  have hi : WebsiteRecord.issues domains (s.revalued x form baseline).records =
      WebsiteRecord.issues domains s.records :=
    WebsiteRecord.issues_congr
      (map_revalued h (fun _ => WebsiteRecord.route?_of_readyToDelete) form baseline)
      (map_revalued h (fun _ => WebsiteRecord.formIssues_of_readyToDelete) form baseline)
  have hp : (s.revalued x form baseline).payload = s.payload := by
    have hm := map_revalued h (f := (·.submitted?))
      (fun r hr => by rw [WebsiteRecord.submitted?_eq, if_pos hr]) form baseline
    simpa only [payload, List.filterMap_map, Function.comp_def, id_eq] using
      congrArg (List.filterMap id) hm
  rw [prepare, prepare, WebsiteRecord.check, WebsiteRecord.check, hi, hp]

end Marked

/-! ## Removal -/

/-- Whether a set is about to remove the record with an identity: it holds the record once, and does
everything else as if it were not there. -/
structure Removing (x : String) (s : WorkingSet) : Prop where
  record : ∃ r, s.records.filter (·.id = some x) = [r] ∧ r.state = .readyToDelete ∧
    r.effectiveState = .readyToDelete ∧ r.submitted? = none
  hasChanges : s.hasChanges = true
  payload_eq : s.payload = (s.without x).payload
  /-- A submission is prepared with or without the record. -/
  prepare_iff : ∀ domains p, s.prepare domains = .ok p ↔ (s.without x).prepare domains = .ok p
  /-- Its form and its baseline are not looked at, not even by the issues. -/
  prepare_eq : ∀ form baseline domains,
    s.prepare domains = (s.revalued x form baseline).prepare domains

theorem readyToDelete_of_filter_eq {r : WebsiteRecord}
    (honly : s.records.filter (·.id = some x) = [r]) (hd : r.state = .readyToDelete) :
    ∀ r' ∈ s.records, r'.id = some x → r'.state = .readyToDelete := by
  intro r' hr' hx'
  have hm : r' ∈ s.records.filter (·.id = some x) := List.mem_filter.mpr ⟨hr', decide_eq_true hx'⟩
  rw [honly, List.mem_singleton] at hm
  exact hm ▸ hd

theorem removing_of_marked (hn : s.ids.Nodup) (h : ∃ r ∈ s.records, r.IsMarked x) :
    Removing x s := by
  obtain ⟨r, hr, hx, hd⟩ := h
  have honly := filter_eq_singleton_of_nodup hn hr hx
  have hall := readyToDelete_of_filter_eq honly hd
  have he := WebsiteRecord.effectiveState_eq_readyToDelete_iff.mpr hd
  have hs : r.submitted? = none := by rw [WebsiteRecord.submitted?_eq, if_pos hd]
  have hc : s.hasChanges = true := List.any_eq_true.mpr ⟨r, hr, by rw [he]; rfl⟩
  exact ⟨⟨r, honly, hd, he, hs⟩, hc, (payload_without hall).symm,
    fun domains p => (prepare_without_eq_ok_iff hall).symm,
    fun form baseline domains => (prepare_revalued hall form baseline domains).symm⟩

/-- A website of a loaded set that is marked for removal stays so through any steps but an accepted
submission; that drops it, and its identity does not come back. -/
theorem removal_isFinal {policy : UnmatchedPolicy} {domains : List AvailableDomain}
    {ws : List Website} (h : ofWebsites policy domains ws = .ok s) (hn : (ws.map (·.id)).Nodup)
    {steps : List Step} (hx : ∃ r ∈ (s.run steps).records, r.id = some x ∧ r.state = .readyToDelete)
    {more : List Step} (hm : ∀ step ∈ more, step ≠ .submitSucceeded) :
    Removing x ((s.run steps).run more) ∧
      ∀ later, x ∉ (((s.run steps).run more).submitSucceeded.run later).ids := by
  have hl := ((StartsFrom.loaded h).ledger.run steps).run more
  have hr := removing_of_marked (hl.ids_sublist.nodup hn) (exists_marked_run hx hm)
  refine ⟨hr, fun later hi => ?_⟩
  obtain ⟨r, honly, hd, -⟩ := hr.record
  refine notMem_ids_submitSucceeded (readyToDelete_of_filter_eq honly hd) ?_
  exact (ids_run_sublist (sound_step hl.sound .submitSucceeded) later).subset hi

/-- The second of two websites is marked, and edited; a submission is refused, and another website
is made. -/
theorem removal_isFinal_twoWebsites :
    ofWebsites .reject trapShow [storedUnder "w1" "a", storedUnder "w2" "b"] = .ok twoWebsites ∧
      (twoWebsites.run [.delete 1]).records.map (·.state) = [.noChange, .readyToDelete] ∧
      Removing "w2" ((twoWebsites.run [.delete 1]).run
        [.edit 1 fun f => { f with httpPort := 8080 }, .submitFailed, .add (under "c")]) ∧
      ∀ later, "w2" ∉ (((twoWebsites.run [.delete 1]).run
        [.edit 1 fun f => { f with httpPort := 8080 }, .submitFailed,
          .add (under "c")]).submitSucceeded.run later).ids :=
  ⟨ofWebsites_trapShow, rfl, removal_isFinal ofWebsites_trapShow (by decide)
    ⟨_, List.mem_cons_of_mem _ (List.mem_cons_self ..), rfl, rfl⟩
    (by simp only [List.forall_mem_cons]; exact ⟨nofun, nofun, nofun, nofun⟩)⟩

end WorkingSet

end DeploymentConfig
