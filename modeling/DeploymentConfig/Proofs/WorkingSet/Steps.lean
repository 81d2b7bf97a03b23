import DeploymentConfig.Proofs.Website.Record
import DeploymentConfig.Website.WorkingSet

/-!
# What a step does to the records

An accepted submission replaces every record that is kept by its accepted form
(`submitSucceeded_records`). Any other step makes a `Turn` (`turn_step`): it
appends a record, edits or marks one, drops one that is new, or lets all rest.
What holds of the records after a run is shown on these two, once for each turn:

* `Turn.filterMap_eq`: what a turn leaves alone, read off the records in order;
* `sound_step`: records stay sound.
-/

namespace DeploymentConfig.WorkingSet

variable {s : WorkingSet}

/-! ## The ends of a submission -/

theorem prepare_eq_ok_iff {domains : List AvailableDomain} {p : List WebsiteSettings} :
    s.prepare domains = .ok p ↔ WebsiteRecord.issues domains s.records = [] ∧ s.payload = p := by
  rw [prepare, WebsiteRecord.check, ← Report.verdict_eq_ok_iff]
  cases Report.verdict (WebsiteRecord.issues domains s.records) <;> simp

theorem prepare_eq_error_iff {domains : List AvailableDomain} {fault : Fault} :
    s.prepare domains = .error fault ↔ ∃ report,
      WebsiteRecord.check domains s.records = .error report ∧ fault = .invalid report := by
  rw [prepare]
  cases WebsiteRecord.check domains s.records <;> simp [eq_comm]

/-- The records that the next accepted submission keeps. -/
def kept (s : WorkingSet) : List WebsiteRecord :=
  s.records.filter (·.state ≠ .readyToDelete)

theorem filterMap_kept {α : Type} (g : WebsiteRecord → α) (s : WorkingSet) :
    s.records.filterMap (fun r => if r.state = .readyToDelete then none else some (g r)) =
      s.kept.map g := by
  rw [kept]
  induction s.records with
  | nil => rfl
  | cons r rs ih => by_cases h : r.state = .readyToDelete <;> simp [h, ih]

theorem payload_eq (s : WorkingSet) : s.payload = s.kept.map (·.form.settings) := by
  rw [payload, ← filterMap_kept]
  exact congrArg (s.records.filterMap ·) (funext WebsiteRecord.submitted?_eq)

theorem submitSucceeded_records (s : WorkingSet) :
    s.submitSucceeded.records = s.kept.map WebsiteRecord.accepted := by
  rw [submitSucceeded, ← filterMap_kept]
  exact congrArg (s.records.filterMap ·) (funext WebsiteRecord.next?_submitSucceeded)

theorem submitFailed_records (s : WorkingSet) :
    s.submitFailed.records = s.records.map WebsiteRecord.rested := by
  rw [submitFailed, ← List.filterMap_eq_map]
  exact congrArg (s.records.filterMap ·) (funext WebsiteRecord.next?_submitFailed)

/-! ## Edits and deletions -/

section Index

variable {i : Nat} {r : WebsiteRecord} {change : WebsiteForm → WebsiteForm}

theorem step_edit_of_eq_some (h : s.records[i]? = some r) :
    s.step (.edit i change) = (.ok none, ⟨s.records.set i (r.edited change)⟩) := by
  simp only [step, edit, h]; rfl

theorem step_edit_of_eq_none (h : s.records[i]? = none) :
    s.step (.edit i change) = (.error (.recordNotFound i), s) := by
  simp only [step, edit, h]; rfl

theorem step_delete_of_eq_some (h : s.records[i]? = some r) :
    s.step (.delete i) = (.ok none,
      ⟨if r.state = .added then s.records.eraseIdx i else s.records.set i r.marked⟩) := by
  simp only [step, delete, h, WebsiteRecord.next?_delete]
  by_cases hr : r.state = .added <;> simp only [hr, ite_true, ite_false] <;> rfl

theorem step_delete_of_eq_none (h : s.records[i]? = none) :
    s.step (.delete i) = (.error (.recordNotFound i), s) := by
  simp only [step, delete, h]; rfl

end Index

/-- The records around an index. -/
theorem exists_split {α : Type} {xs : List α} {i : Nat} {a : α} (h : xs[i]? = some a) :
    ∃ ys zs, xs = ys ++ a :: zs ∧ ys.length = i := by
  obtain ⟨hi, rfl⟩ := List.getElem?_eq_some_iff.mp h
  refine ⟨xs.take i, xs.drop (i + 1), ?_, List.length_take_of_le (Nat.le_of_lt hi)⟩
  rw [List.getElem_cons_drop, List.take_append_drop]

section Around

variable (xs : List WebsiteRecord) (r : WebsiteRecord) (ys : List WebsiteRecord)

/-- An edit leaves the other records as they are. -/
theorem step_edit_append (change : WebsiteForm → WebsiteForm) :
    step ⟨xs ++ r :: ys⟩ (.edit xs.length change) =
      (.ok none, ⟨xs ++ r.edited change :: ys⟩) := by
  rw [step_edit_of_eq_some (r := r) (by simp), List.set_append_right _ _ (Nat.le_refl _),
    Nat.sub_self, List.set_cons_zero]

/-- A deletion leaves the other records as they are, but for their indices. -/
theorem step_delete_append :
    step ⟨xs ++ r :: ys⟩ (.delete xs.length) =
      (.ok none, ⟨xs ++ if r.state = .added then ys else r.marked :: ys⟩) := by
  rw [step_delete_of_eq_some (r := r) (by simp), List.set_append_right _ _ (Nat.le_refl _),
    List.eraseIdx_append_of_length_le (Nat.le_refl _), Nat.sub_self, List.set_cons_zero,
    List.eraseIdx_cons_zero, ← apply_ite (xs ++ ·)]

end Around

/-! ## Turns -/

/-- What a step that is not an accepted submission does to the records. -/
inductive Turn : List WebsiteRecord → List WebsiteRecord → Prop
  | stay (rs : List WebsiteRecord) : Turn rs rs
  | append (rs : List WebsiteRecord) (form : WebsiteForm) : Turn rs (rs ++ [.added form])
  | edit (xs : List WebsiteRecord) (r : WebsiteRecord) (ys : List WebsiteRecord)
      (change : WebsiteForm → WebsiteForm) : Turn (xs ++ r :: ys) (xs ++ r.edited change :: ys)
  | mark (xs : List WebsiteRecord) (r : WebsiteRecord) (ys : List WebsiteRecord) :
      r.state ≠ .added → Turn (xs ++ r :: ys) (xs ++ r.marked :: ys)
  | drop (xs : List WebsiteRecord) (r : WebsiteRecord) (ys : List WebsiteRecord) :
      r.state = .added → Turn (xs ++ r :: ys) (xs ++ ys)
  | rest (rs : List WebsiteRecord) : Turn rs (rs.map WebsiteRecord.rested)

theorem turn_edit (s : WorkingSet) (i : Nat) (change : WebsiteForm → WebsiteForm) :
    Turn s.records (s.step (.edit i change)).2.records := by
  cases h : s.records[i]? with
  | none => rw [step_edit_of_eq_none h]; exact .stay _
  | some r =>
    obtain ⟨rs⟩ := s
    obtain ⟨xs, ys, rfl, rfl⟩ := exists_split h
    rw [step_edit_append]
    exact .edit xs r ys change

theorem turn_delete (s : WorkingSet) (i : Nat) : Turn s.records (s.step (.delete i)).2.records := by
  cases h : s.records[i]? with
  | none => rw [step_delete_of_eq_none h]; exact .stay _
  | some r =>
    obtain ⟨rs⟩ := s
    obtain ⟨xs, ys, rfl, rfl⟩ := exists_split h
    rw [step_delete_append]
    by_cases hr : r.state = .added
    · rw [if_pos hr]
      exact .drop xs r ys hr
    · rw [if_neg hr]
      exact .mark xs r ys hr

theorem turn_step (s : WorkingSet) {step : Step} (h : step ≠ .submitSucceeded) :
    Turn s.records (s.step step).2.records := by
  cases step with
  | add form => exact .append _ form
  | addDefault domains =>
    simp only [WorkingSet.step, addDefault]
    split
    · exact .append _ _
    · exact .stay _
  | edit i change => exact turn_edit s i change
  | delete i => exact turn_delete s i
  | submitSucceeded => exact absurd rfl h
  | submitFailed =>
    rw [WorkingSet.step, submitFailed_records]
    exact .rest _

/-- What new records do not have, and edits, marks and refusals leave alone, stays as it is. -/
theorem Turn.filterMap_eq {α : Type} {g : WebsiteRecord → Option α} {rs rs' : List WebsiteRecord}
    (h : Turn rs rs') (hadded : ∀ r ∈ rs, r.state = .added → g r = none)
    (hnew : ∀ form, g (.added form) = none) (hedited : ∀ r change, g (r.edited change) = g r)
    (hmarked : ∀ r, g r.marked = g r) (hrested : ∀ r, g r.rested = g r) :
    rs'.filterMap g = rs.filterMap g := by
  cases h with
  | stay => rfl
  | append _ form => simp [hnew]
  | edit xs r ys change => simp only [List.filterMap_append, List.filterMap_cons, hedited]
  | mark xs r ys => simp only [List.filterMap_append, List.filterMap_cons, hmarked]
  | drop xs r ys hr => simp [hadded r (by simp) hr]
  | rest => simp only [List.filterMap_map, Function.comp_def, hrested]

/-- A record of a kind that new records are not of, and that edits, marks and refusals keep, stays
in the set. -/
theorem Turn.exists_mem {P : WebsiteRecord → Prop} {rs rs' : List WebsiteRecord} (h : Turn rs rs')
    (hadded : ∀ r, P r → r.state ≠ .added) (hedited : ∀ r change, P r → P (r.edited change))
    (hmarked : ∀ r, P r → P r.marked) (hrested : ∀ r, P r → P r.rested) (hr : ∃ r ∈ rs, P r) :
    ∃ r ∈ rs', P r := by
  cases h with
  | stay => exact hr
  | append _ form =>
    simp only [List.mem_append, or_and_right, exists_or]
    exact .inl hr
  | edit xs r ys change =>
    simp only [List.mem_append, List.mem_cons, or_and_right, exists_or, exists_eq_left] at hr ⊢
    exact hr.imp_right (Or.imp_left (hedited r change))
  | mark xs r ys =>
    simp only [List.mem_append, List.mem_cons, or_and_right, exists_or, exists_eq_left] at hr ⊢
    exact hr.imp_right (Or.imp_left (hmarked r))
  | drop xs r ys ha =>
    simp only [List.mem_append, List.mem_cons, or_and_right, exists_or, exists_eq_left] at hr ⊢
    exact hr.imp_right (Or.resolve_left · fun hp => hadded r hp ha)
  | rest =>
    obtain ⟨r, hm, hp⟩ := hr
    exact ⟨_, List.mem_map_of_mem hm, hrested r hp⟩

/-! ## Soundness -/

theorem Turn.sound {rs rs' : List WebsiteRecord} (h : Turn rs rs') (hs : ∀ r ∈ rs, r.Sound) :
    ∀ r ∈ rs', r.Sound := by
  cases h with
  | stay => exact hs
  | append _ form =>
    intro r hr
    rcases List.mem_append.mp hr with hr | hr
    · exact hs r hr
    · rw [List.mem_singleton.mp hr]
      exact WebsiteRecord.sound_added form
  | edit xs r ys change =>
    simp only [List.forall_mem_append, List.forall_mem_cons] at hs ⊢
    exact ⟨hs.1, hs.2.1.edited change, hs.2.2⟩
  | mark xs r ys hr =>
    simp only [List.forall_mem_append, List.forall_mem_cons] at hs ⊢
    exact ⟨hs.1, hs.2.1.marked hr, hs.2.2⟩
  | drop xs r ys =>
    simp only [List.forall_mem_append, List.forall_mem_cons] at hs ⊢
    exact ⟨hs.1, hs.2.2⟩
  | rest => exact List.forall_mem_map.mpr fun r hr => (hs r hr).rested

theorem sound_step (hs : ∀ r ∈ s.records, r.Sound) (step : Step) :
    ∀ r ∈ (s.step step).2.records, r.Sound := by
  by_cases h : step = .submitSucceeded
  · rw [h, WorkingSet.step, submitSucceeded_records]
    exact List.forall_mem_map.mpr fun r _ => r.sound_accepted
  · exact (turn_step s h).sound hs

theorem run_cons (s : WorkingSet) (step : Step) (steps : List Step) :
    s.run (step :: steps) = (s.step step).2.run steps := rfl

end DeploymentConfig.WorkingSet
