import DeploymentConfig.Proofs.WorkingSet.Loading

/-!
# Websites that are withdrawn

A new website is the last record of its set (`Extends`). Edits, marks and refused
submissions keep every record in its place and the new ones new
(`Spares.newness_step`), so that they do the same to a set and to the set with one
more record, but for the edits of that record (`Extends.step`, `Extends.run`). Once
it is deleted the two are the same set, and nothing tells that the website was there
(`withdrawal_leavesNoTrace`).
-/

namespace DeploymentConfig.WorkingSet

variable {s t : WorkingSet} {steps : List Step} {i : Nat}

/-! ## Steps that keep every record in its place -/

/-- A step that edits a record, marks one that is stored, or refuses a submission. -/
inductive Spares (s : WorkingSet) : Step → Prop
  | edit (i : Nat) (change : WebsiteForm → WebsiteForm) : Spares s (.edit i change)
  | mark {i : Nat} {r : WebsiteRecord} : s.records[i]? = some r → r.state ≠ .added →
      Spares s (.delete i)
  | submitFailed : Spares s .submitFailed

/-- Which records are new, in order. -/
def newness (s : WorkingSet) : List Bool :=
  s.records.map fun r => r.state = .added

theorem length_eq_of_newness (h : t.newness = s.newness) : t.records.length = s.records.length := by
  simpa only [newness, List.length_map] using congrArg List.length h

theorem getElem?_newness_eq_false_iff :
    s.newness[i]? = some false ↔ ∃ r, s.records[i]? = some r ∧ r.state ≠ .added := by
  simp [newness]

theorem Spares.newness_step {step : Step} (h : s.Spares step) :
    (s.step step).2.newness = s.newness := by
  cases h with
  | edit i change =>
    cases hr : s.records[i]? with
    | none => rw [step_edit_of_eq_none hr]
    | some r =>
      obtain ⟨rs⟩ := s
      obtain ⟨xs, ys, rfl, rfl⟩ := exists_split hr
      rw [step_edit_append]
      simp [newness]
  | @mark i r hr ha =>
    obtain ⟨rs⟩ := s
    obtain ⟨xs, ys, rfl, rfl⟩ := exists_split hr
    rw [step_delete_append, if_neg ha]
    simp [newness, ha, WebsiteRecord.marked]
  | submitFailed =>
    rw [WorkingSet.step, newness, submitFailed_records, List.map_map]
    exact List.map_congr_left fun r _ => by simp

/-- Whether a step is such a one depends only on which records are new. -/
theorem Spares.congr {step : Step} (h : s.Spares step) (hn : t.newness = s.newness) :
    t.Spares step := by
  cases h with
  | edit i change => exact .edit i change
  | mark hr ha =>
    have hs := getElem?_newness_eq_false_iff.mpr ⟨_, hr, ha⟩
    rw [← hn] at hs
    obtain ⟨r, hr, ha⟩ := getElem?_newness_eq_false_iff.mp hs
    exact .mark hr ha
  | submitFailed => exact .submitFailed

/-! ## One more record -/

/-- Whether a set is another one with one record more, a new one, at its end. -/
def Extends (s t : WorkingSet) : Prop :=
  ∃ x : WebsiteRecord, x.state = .added ∧ t = ⟨s.records ++ [x]⟩

theorem extends_add (s : WorkingSet) (form : WebsiteForm) : Extends s (s.add form) :=
  ⟨.added form, rfl, rfl⟩

/-- Whether a step changes the form of the record at an index. -/
def Step.isEditOf (index : Nat) : Step → Bool
  | .edit i _ => i = index
  | _ => false

/-- A run without the edits of the record at an index. -/
def withoutEditsOf (index : Nat) (steps : List Step) : List Step :=
  steps.filter fun step => !step.isEditOf index

/-- The steps of a run, each with what it answers. -/
def transcript (s : WorkingSet) : List Step → List (Step × Answer)
  | [] => []
  | step :: steps => (step, (s.step step).1) :: (s.step step).2.transcript steps

theorem Extends.step_edit (h : Extends s t) (change : WebsiteForm → WebsiteForm) :
    (t.step (.edit s.records.length change)).1 = .ok none ∧
      Extends s (t.step (.edit s.records.length change)).2 := by
  obtain ⟨x, hx, rfl⟩ := h
  rw [step_edit_append]
  exact ⟨rfl, x.edited change, WebsiteRecord.edited_state_eq_added_iff.mpr hx, rfl⟩

theorem Extends.step_delete (h : Extends s t) :
    t.step (.delete s.records.length) = (.ok none, s) := by
  obtain ⟨x, hx, rfl⟩ := h
  rw [step_delete_append, if_pos hx, List.append_nil]

/-- The other steps answer the same with and without the record, and do the same. -/
theorem Extends.step {step : Step} (h : Extends s t) (hs : s.Spares step)
    (he : step.isEditOf s.records.length = false) :
    (t.step step).1 = (s.step step).1 ∧ Extends (s.step step).2 (t.step step).2 := by
  obtain ⟨x, hx, rfl⟩ := h
  cases hs with
  | edit i change =>
    cases hr : s.records[i]? with
    | none =>
      have hi : i ≠ s.records.length := of_decide_eq_false he
      have hx' : (s.records ++ [x])[i]? = none := by
        rw [List.getElem?_eq_none_iff] at hr ⊢
        simp only [List.length_append, List.length_singleton]
        omega
      rw [step_edit_of_eq_none hr, step_edit_of_eq_none hx']
      exact ⟨rfl, x, hx, rfl⟩
    | some r =>
      obtain ⟨rs⟩ := s
      obtain ⟨xs, ys, rfl, rfl⟩ := exists_split hr
      rw [List.append_assoc, List.cons_append, step_edit_append, step_edit_append]
      exact ⟨rfl, x, hx, by rw [List.append_assoc, List.cons_append]⟩
  | @mark i r hr ha =>
    obtain ⟨rs⟩ := s
    obtain ⟨xs, ys, rfl, rfl⟩ := exists_split hr
    rw [List.append_assoc, List.cons_append, step_delete_append, step_delete_append, if_neg ha,
      if_neg ha]
    exact ⟨rfl, x, hx, by rw [List.append_assoc, List.cons_append]⟩
  | submitFailed =>
    refine ⟨rfl, x.rested, WebsiteRecord.rested_state_eq_added_iff.mpr hx, ?_⟩
    refine congrArg mk ?_
    change (submitFailed _).records = _
    rw [submitFailed_records, List.map_append]
    exact congrArg (· ++ _) (submitFailed_records s).symm

/-! ## Runs -/

section Run

variable {n : Nat}

theorem withoutEditsOf_cons_of_eq_true {step : Step} (h : step.isEditOf n = true) :
    withoutEditsOf n (step :: steps) = withoutEditsOf n steps :=
  List.filter_cons_of_neg (by simp [h])

theorem withoutEditsOf_cons_of_eq_false {step : Step} (h : step.isEditOf n = false) :
    withoutEditsOf n (step :: steps) = step :: withoutEditsOf n steps :=
  List.filter_cons_of_pos (by simp [h])

/-- The same run with and without the record: it has the same outcome but for the record, and what
is left out in the second succeeds in the first. -/
theorem Extends.run (h : Extends s t) (hs : ∀ step ∈ steps, s.Spares step)
    (hn : s.records.length = n) :
    Extends (s.run (withoutEditsOf n steps)) (t.run steps) ∧
      (s.run (withoutEditsOf n steps)).records.length = n ∧
      (t.transcript steps).filter (fun a => !a.1.isEditOf n) =
        s.transcript (withoutEditsOf n steps) ∧
      ∀ a ∈ t.transcript steps, a.1.isEditOf n = true → a.2 = .ok none := by
  induction steps generalizing s t with
  | nil => exact ⟨h, hn, rfl, List.forall_mem_nil _⟩
  | cons step steps ih =>
    obtain ⟨hstep, hsteps⟩ := List.forall_mem_cons.mp hs
    by_cases he : step.isEditOf n = true
    · obtain ⟨i, change, rfl⟩ : ∃ i change, step = .edit i change := by
        cases step with
        | edit i change => exact ⟨i, change, rfl⟩
        | _ => cases he
      obtain rfl : i = n := of_decide_eq_true he
      obtain ⟨ha, hx⟩ := hn ▸ h.step_edit change
      obtain ⟨hx, hl, ht, hok⟩ := ih hx hsteps hn
      rw [withoutEditsOf_cons_of_eq_true he, run_cons, transcript,
        List.filter_cons_of_neg (by simp [he])]
      exact ⟨hx, hl, ht, List.forall_mem_cons.mpr ⟨fun _ => ha, hok⟩⟩
    · rw [Bool.not_eq_true] at he
      obtain ⟨ha, hx⟩ := h.step hstep (hn ▸ he)
      have hkept := hstep.newness_step
      obtain ⟨hx, hl, ht, hok⟩ := ih hx (fun other ho => (hsteps other ho).congr hkept)
        ((length_eq_of_newness hkept).trans hn)
      rw [withoutEditsOf_cons_of_eq_false he, run_cons, run_cons, transcript,
        List.filter_cons_of_pos (by simp [he]), transcript, ha, ht]
      refine ⟨hx, hl, rfl, List.forall_mem_cons.mpr ⟨fun h => ?_, hok⟩⟩
      rw [he] at h
      cases h

end Run

/-- A website that is made and deleted again leaves no trace, whatever is edited, marked or refused
in between: the set is the one that the other steps lead to without it, and they have answered the
same. A step that names no record fails and changes nothing, and any other edit or deletion leaves
all records but one as they are. -/
theorem withdrawal_leavesNoTrace (s : WorkingSet) (form : WebsiteForm)
    (h : ∀ step ∈ steps, s.Spares step) :
    (s.step (.add form) = (.ok (some s.records.length), s.add form) ∧
      ((s.add form).run steps).step (.delete s.records.length) =
        (.ok none, s.run (withoutEditsOf s.records.length steps)) ∧
      ((s.add form).transcript steps).filter (fun a => !a.1.isEditOf s.records.length) =
        s.transcript (withoutEditsOf s.records.length steps) ∧
      ∀ a ∈ (s.add form).transcript steps, a.1.isEditOf s.records.length = true →
        a.2 = .ok none) ∧
    (∀ (t : WorkingSet) (i : Nat) (change : WebsiteForm → WebsiteForm), t.records.length ≤ i →
      t.step (.edit i change) = (.error (.recordNotFound i), t) ∧
        t.step (.delete i) = (.error (.recordNotFound i), t)) ∧
    ∀ (t : WorkingSet) (before after : List WebsiteRecord) (r : WebsiteRecord),
      t.records = before ++ r :: after →
        (∀ change, t.step (.edit before.length change) =
          (.ok none, ⟨before ++ r.edited change :: after⟩)) ∧
        t.step (.delete before.length) =
          (.ok none, ⟨before ++ if r.state = .added then after else r.marked :: after⟩) := by
  refine ⟨⟨rfl, ?_⟩, fun t i change hi => ?_, ?_⟩
  · obtain ⟨hx, hl, ht, hok⟩ := (extends_add s form).run h rfl
    have hd := hx.step_delete
    rw [hl] at hd
    exact ⟨hd, ht, hok⟩
  · have hn := List.getElem?_eq_none hi
    exact ⟨step_edit_of_eq_none hn, step_delete_of_eq_none hn⟩
  · rintro ⟨_⟩ before after r rfl
    exact ⟨step_edit_append before r after, step_delete_append before r after⟩

/-- The new website is edited while another one is marked, a submission is refused, and an edit
fails. -/
def withdrawnOnce : List Step :=
  [.edit 2 fun f => { f with httpPort := 8080 }, .delete 1, .submitFailed,
    .edit 0 fun f => { f with pathPrefix := "/a" }, .edit 2 id, .edit 3 id]

theorem spares_withdrawnOnce : ∀ step ∈ withdrawnOnce, twoWebsites.Spares step := by
  simp only [withdrawnOnce, List.forall_mem_cons]
  exact ⟨.edit _ _, .mark rfl nofun, .submitFailed, .edit _ _, .edit _ _, .edit _ _,
    List.forall_mem_nil _⟩

theorem withdrawal_leavesNoTrace_withdrawnOnce :
    (∀ step ∈ withdrawnOnce, twoWebsites.Spares step) ∧
      ((twoWebsites.add (under "c")).run withdrawnOnce).step (.delete 2) =
        (.ok none, twoWebsites.run
          [.delete 1, .submitFailed, .edit 0 fun f => { f with pathPrefix := "/a" }, .edit 3 id]) ∧
      ((twoWebsites.add (under "c")).transcript withdrawnOnce).map (·.2) =
        [.ok none, .ok none, .ok none, .ok none, .ok none, .error (.recordNotFound 3)] := by
  have hw : withoutEditsOf 2 withdrawnOnce =
      [.delete 1, .submitFailed, .edit 0 fun f => { f with pathPrefix := "/a" }, .edit 3 id] := rfl
  obtain ⟨-, hd, -⟩ := (withdrawal_leavesNoTrace twoWebsites (under "c") spares_withdrawnOnce).1
  have hl : twoWebsites.records.length = 2 := rfl
  rw [hl, hw] at hd
  exact ⟨spares_withdrawnOnce, hd, rfl⟩

end DeploymentConfig.WorkingSet
