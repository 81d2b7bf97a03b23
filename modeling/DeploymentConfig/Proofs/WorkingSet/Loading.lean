import DeploymentConfig.Proofs.WorkingSet.Steps
import Mathlib.Data.List.Forall2

/-!
# Starting a working set

A working set starts empty or from stored websites (`StartsFrom`). Loading makes
one record of each website, in order (`ofWebsites_eq_ok_iff`); so the baselines
and the identities are those of the websites, and every record is sound. A pass
over a list that fails does so on the first item that fails
(`mapM_eq_error_iff`).
-/

namespace DeploymentConfig.WorkingSet

variable {policy : UnmatchedPolicy} {domains : List AvailableDomain} {ws : List Website}
  {s : WorkingSet}

theorem mapM_cons_eq_ok_iff {ε α β : Type} {f : α → Except ε β} {x : α} {xs : List α}
    {zs : List β} :
    (x :: xs).mapM f = .ok zs ↔ ∃ y ys, f x = .ok y ∧ xs.mapM f = .ok ys ∧ zs = y :: ys := by
  rw [List.mapM_cons]
  cases f x with
  | error e => simp [bind, Except.bind]
  | ok y => cases xs.mapM f <;> simp [bind, Except.bind, pure, Except.pure, eq_comm]

/-- A pass over a list succeeds if it succeeds on every item, with the results in order. -/
theorem mapM_eq_ok_iff {ε α β : Type} {f : α → Except ε β} {xs : List α} {ys : List β} :
    xs.mapM f = .ok ys ↔ List.Forall₂ (fun x y => f x = .ok y) xs ys := by
  induction xs generalizing ys with
  | nil =>
    rw [List.forall₂_nil_left_iff, List.mapM_nil]
    exact ⟨fun h => (Except.ok.inj h).symm, fun h => h ▸ rfl⟩
  | cons x xs ih =>
    rw [mapM_cons_eq_ok_iff, List.forall₂_cons_left_iff]
    simp only [ih]

theorem mapM_cons_eq_error_iff {ε α β : Type} {f : α → Except ε β} {x : α} {xs : List α} {e : ε} :
    (x :: xs).mapM f = .error e ↔ f x = .error e ∨ (∃ y, f x = .ok y) ∧ xs.mapM f = .error e := by
  rw [List.mapM_cons]
  cases f x with
  | error e => simp [bind, Except.bind]
  | ok y => cases xs.mapM f <;> simp [bind, Except.bind, pure, Except.pure]

/-- A pass over a list fails with what the first item fails with on which it does. -/
theorem mapM_eq_error_iff {ε α β : Type} {f : α → Except ε β} {xs : List α} {e : ε} :
    xs.mapM f = .error e ↔ ∃ before x after, xs = before ++ x :: after ∧
      (∀ y ∈ before, ∃ z, f y = .ok z) ∧ f x = .error e := by
  induction xs with
  | nil => simp [pure, Except.pure]
  | cons x xs ih =>
    rw [mapM_cons_eq_error_iff]
    constructor
    · rintro (hx | ⟨hx, hxs⟩)
      · exact ⟨[], x, xs, rfl, nofun, hx⟩
      · obtain ⟨before, y, after, rfl, hb, hy⟩ := ih.mp hxs
        exact ⟨x :: before, y, after, rfl, List.forall_mem_cons.mpr ⟨hx, hb⟩, hy⟩
    · rintro ⟨before, y, after, hs, hb, hy⟩
      cases before with
      | nil =>
        obtain ⟨rfl, rfl⟩ := List.cons.inj hs
        exact .inl hy
      | cons b bs =>
        obtain ⟨rfl, rfl⟩ := List.cons.inj hs
        obtain ⟨hx, hbs⟩ := List.forall_mem_cons.mp hb
        exact .inr ⟨hx, ih.mpr ⟨bs, y, after, rfl, hbs, hy⟩⟩

theorem forall_mem_of_forall₂ {α β : Type} {R : α → β → Prop} {p : β → Prop} {xs : List α}
    {ys : List β} (h : List.Forall₂ R xs ys) (hp : ∀ x y, R x y → p y) : ∀ y ∈ ys, p y := by
  induction h with
  | nil => exact fun _ h => absurd h List.not_mem_nil
  | cons hr _ ih => exact List.forall_mem_cons.mpr ⟨hp _ _ hr, ih⟩

theorem exists_mem_iff_of_forall₂ {α β : Type} {R : α → β → Prop} {p : α → Prop} {q : β → Prop}
    {xs : List α} {ys : List β} (h : List.Forall₂ R xs ys) (hpq : ∀ x y, R x y → (p x ↔ q y)) :
    (∃ x ∈ xs, p x) ↔ ∃ y ∈ ys, q y := by
  induction h with
  | nil => simp
  | cons hr _ ih => rw [List.exists_mem_cons_iff, List.exists_mem_cons_iff, hpq _ _ hr, ih]

theorem filterMap_eq_of_forall₂ {α β γ : Type} {R : α → β → Prop} {g : β → Option γ} {f : α → γ}
    {xs : List α} {ys : List β} (h : List.Forall₂ R xs ys) (hg : ∀ x y, R x y → g y = some (f x)) :
    ys.filterMap g = xs.map f := by
  induction h with
  | nil => rfl
  | cons hr _ ih => rw [List.filterMap_cons_some (hg _ _ hr), ih, List.map_cons]

theorem ofWebsites_eq_ok_iff :
    ofWebsites policy domains ws = .ok s ↔
      List.Forall₂ (fun w r => ∃ form, w.form policy domains = .ok form ∧ r = .stored w form)
        ws s.records := by
  have hload : ∀ (w : Website) (r : WebsiteRecord),
      (w.form policy domains).map (WebsiteRecord.stored w) = .ok r ↔
        ∃ form, w.form policy domains = .ok form ∧ r = .stored w form := by
    intro w r
    cases w.form policy domains <;> simp [Except.map, eq_comm]
  have hset : ∀ x : Except Fault (List WebsiteRecord), x.map mk = .ok s ↔ x = .ok s.records := by
    intro x
    cases x with
    | error e => simp [Except.map]
    | ok rs => cases s; simp [Except.map]
  rw [ofWebsites, hset, mapM_eq_ok_iff]
  simp only [hload]

/-- A set from which a run begins, with the websites that were stored then. -/
inductive StartsFrom : List Website → WorkingSet → Prop
  | empty : StartsFrom [] .empty
  | loaded {policy : UnmatchedPolicy} {domains : List AvailableDomain} {ws : List Website}
      {s : WorkingSet} : ofWebsites policy domains ws = .ok s → StartsFrom ws s

theorem StartsFrom.records (h : StartsFrom ws s) :
    List.Forall₂ (fun w r => ∃ form, r = WebsiteRecord.stored w form) ws s.records := by
  cases h with
  | empty => exact .nil
  | loaded h => exact (ofWebsites_eq_ok_iff.mp h).imp fun w r ⟨form, _, hr⟩ => ⟨form, hr⟩

theorem StartsFrom.filterMap_eq {α : Type} {g : WebsiteRecord → Option α} {f : Website → α}
    (h : StartsFrom ws s) (hg : ∀ w form, g (.stored w form) = some (f w)) :
    s.records.filterMap g = ws.map f :=
  filterMap_eq_of_forall₂ h.records fun w _ ⟨form, hr⟩ => hr ▸ hg w form

theorem StartsFrom.sound (h : StartsFrom ws s) : ∀ r ∈ s.records, r.Sound :=
  forall_mem_of_forall₂ h.records fun w _ ⟨form, hr⟩ => hr ▸ WebsiteRecord.sound_stored w form

/-! ## An application with two websites -/

/-- A catalog that lists a wildcard twice, with authentication in one place only. -/
def trapShow : List AvailableDomain :=
  [⟨"*.trap.show", true, false⟩, ⟨"example.com", false, true⟩, ⟨"*.trap.show", false, false⟩]

/-- A new website under the wildcard. -/
def under (subdomain : String) : WebsiteForm :=
  { WebsiteForm.new "*.trap.show" with subdomain }

/-- The same website, stored. -/
def storedUnder (id subdomain : String) : Website :=
  { (under subdomain).settings with id }

def twoWebsites : WorkingSet :=
  ⟨[.stored (storedUnder "w1" "a") (under "a"), .stored (storedUnder "w2" "b") (under "b")]⟩

theorem ofWebsites_trapShow :
    ofWebsites .reject trapShow [storedUnder "w1" "a", storedUnder "w2" "b"] = .ok twoWebsites := by
  rfl

/-- One of each: an edit, a removal and a new website, refused and then accepted, and a removal that
fails. -/
def refusedOnce : List Step :=
  [.edit 0 fun f => { f with httpPort := 8080 }, .delete 1, .add (under "c"), .submitFailed,
    .submitSucceeded, .delete 7]

end DeploymentConfig.WorkingSet
