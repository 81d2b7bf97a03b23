import DeploymentConfig.Proofs.WorkingSet.Loading

/-!
# The ledger of a working set

The platform holds what it was sent by the last submission that it accepted
(`held`). A working set keeps account of that in its baselines (`Ledger`): a
turn changes neither of the two (`Ledger.turn`), and an accepted submission
makes the payload both (`Ledger.submitSucceeded`).

* `ledger_run`: after any run the baselines are, in order, what the platform
  holds, new records have none, identities are never made up, and a set without
  changes submits what is held already.
-/

namespace DeploymentConfig.WorkingSet

/-- The baselines of the records that have one. -/
def baselines (s : WorkingSet) : List WebsiteSettings :=
  s.records.filterMap (·.baseline)

/-- The identities of the records that have one. -/
def ids (s : WorkingSet) : List String :=
  s.records.filterMap (·.id)

/-- What the platform holds after a run, if it holds `stored` before: the payload of the last
submission that it accepted. -/
def held (stored : List WebsiteSettings) (s : WorkingSet) : List Step → List WebsiteSettings
  | [] => stored
  | .submitSucceeded :: steps => held s.payload s.submitSucceeded steps
  | step :: steps => held stored (s.step step).2 steps

/-- The records account for what the platform holds, and for no identity but those of `known`. -/
structure Ledger (stored : List WebsiteSettings) (known : List String) (s : WorkingSet) : Prop where
  sound : ∀ r ∈ s.records, r.Sound
  baselines_eq : s.baselines = stored
  ids_sublist : s.ids.Sublist known

variable {stored : List WebsiteSettings} {known : List String} {ws : List Website} {s : WorkingSet}

theorem StartsFrom.ledger (h : StartsFrom ws s) :
    Ledger (ws.map (·.toWebsiteSettings)) (ws.map (·.id)) s where
  sound := h.sound
  baselines_eq := h.filterMap_eq fun _ _ => rfl
  ids_sublist := by rw [ids, h.filterMap_eq (f := (·.id)) fun _ _ => rfl]

theorem Ledger.turn (h : Ledger stored known s) {step : Step} (hs : step ≠ .submitSucceeded) :
    Ledger stored known (s.step step).2 := by
  have ht := turn_step s hs
  have hb : ∀ r ∈ s.records, r.state = .added → r.baseline = none :=
    fun r hr => (h.sound r hr).baseline_eq_none_iff.mpr
  have hi : ∀ r ∈ s.records, r.state = .added → r.id = none := fun r hr => (h.sound r hr).id_eq_none
  refine ⟨ht.sound h.sound, ?_, ?_⟩
  · rw [baselines, ht.filterMap_eq hb (fun _ => rfl) (fun _ _ => rfl) (fun _ => rfl) (fun _ => rfl)]
    exact h.baselines_eq
  · rw [ids, ht.filterMap_eq hi (fun _ => rfl) (fun _ _ => rfl) (fun _ => rfl) (fun _ => rfl)]
    exact h.ids_sublist

theorem baselines_submitSucceeded (s : WorkingSet) : s.submitSucceeded.baselines = s.payload := by
  rw [baselines, submitSucceeded_records, List.filterMap_map, payload_eq, ← List.filterMap_eq_map]
  rfl

theorem Ledger.submitSucceeded (h : Ledger stored known s) :
    Ledger s.payload known s.submitSucceeded where
  sound := sound_step h.sound .submitSucceeded
  baselines_eq := baselines_submitSucceeded s
  ids_sublist := by
    rw [ids, submitSucceeded_records, List.filterMap_map]
    exact (List.Sublist.filterMap _ List.filter_sublist).trans h.ids_sublist

theorem held_cons_of_ne {step : Step} (h : step ≠ .submitSucceeded) (stored : List WebsiteSettings)
    (s : WorkingSet) (steps : List Step) :
    held stored s (step :: steps) = held stored (s.step step).2 steps := by
  cases step <;> first | rfl | exact absurd rfl h

theorem Ledger.run (h : Ledger stored known s) (steps : List Step) :
    Ledger (held stored s steps) known (s.run steps) := by
  induction steps generalizing stored s with
  | nil => exact h
  | cons step steps ih =>
    by_cases hs : step = .submitSucceeded
    · subst hs
      exact ih h.submitSucceeded
    · rw [held_cons_of_ne hs, run_cons]
      exact ih (h.turn hs)

theorem hasChanges_eq_false_iff :
    s.hasChanges = false ↔ ∀ r ∈ s.records, r.effectiveState = .noChange := by
  simp [hasChanges]

/-- A set without changes submits its baselines. -/
theorem Ledger.payload_eq (h : Ledger stored known s) (hc : s.hasChanges = false) :
    s.payload = stored := by
  rw [payload, ← h.baselines_eq, baselines]
  refine List.filterMap_congr fun r hr => ?_
  have he := hasChanges_eq_false_iff.mp hc r hr
  obtain ⟨hd, hb⟩ := (WebsiteRecord.effectiveState_eq_noChange_iff (h.sound r hr)).mp he
  rw [WebsiteRecord.submitted?_eq, if_neg hd, hb]

/-- After any run the baselines are what the platform holds, exactly the new records have none, the
identities are among those of the websites at the start, and a set without changes submits what is
held. -/
theorem ledger_run (h : StartsFrom ws s) (steps : List Step) :
    (s.run steps).baselines = held (ws.map (·.toWebsiteSettings)) s steps ∧
      (∀ r ∈ (s.run steps).records,
        (r.baseline = none ↔ r.state = .added) ∧ (r.state = .added → r.id = none)) ∧
      (s.run steps).ids.Sublist (ws.map (·.id)) ∧
      ((s.run steps).hasChanges = false →
        (s.run steps).payload = held (ws.map (·.toWebsiteSettings)) s steps) := by
  have hl := h.ledger.run steps
  refine ⟨hl.baselines_eq, fun r hr => ?_, hl.ids_sublist, hl.payload_eq⟩
  exact ⟨(hl.sound r hr).baseline_eq_none_iff, (hl.sound r hr).id_eq_none⟩

theorem ledger_run_refusedOnce :
    StartsFrom [storedUnder "w1" "a", storedUnder "w2" "b"] twoWebsites ∧
      (twoWebsites.run refusedOnce).baselines =
        [{ (under "a").settings with httpPort := 8080 }, (under "c").settings] ∧
      (twoWebsites.run refusedOnce).ids = ["w1"] ∧
      (twoWebsites.run refusedOnce).payload = (twoWebsites.run refusedOnce).baselines := by
  have h := StartsFrom.loaded ofWebsites_trapShow
  obtain ⟨hb, -, -, hp⟩ := ledger_run h refusedOnce
  exact ⟨h, hb, rfl, (hp rfl).trans hb.symm⟩

end DeploymentConfig.WorkingSet
