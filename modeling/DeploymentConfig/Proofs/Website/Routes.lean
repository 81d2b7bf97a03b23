import DeploymentConfig.Proofs.Website.Record
import DeploymentConfig.Proofs.Website.Views

/-!
# Records without issues

The records of an application have no issues if and only if every form that is
submitted has none, and no two records that are kept have the same route
(`issues_eq_nil_iff_apart`). The check of routes looks at each record after those
before it, so it is taken apart by position (`pairwise_iff_take`).
-/

namespace DeploymentConfig

/-! ## Items and their places -/

theorem forall_mem_zipIdx_iff {α : Type} {p : α → Prop} {xs : List α} :
    (∀ x ∈ xs.zipIdx, p x.1) ↔ ∀ a ∈ xs, p a := by
  rw [← List.forall_mem_map (f := Prod.fst), List.zipIdx_map_fst]

/-- A relation holds between the items of a list in order if it holds between each item and those
before it. -/
theorem pairwise_iff_take {α : Type} {R : α → α → Prop} {xs : List α} :
    xs.Pairwise R ↔ ∀ i x, xs[i]? = some x → ∀ y ∈ xs.take i, R y x := by
  rw [List.pairwise_iff_getElem]
  constructor
  · intro h i x hx y hy
    obtain ⟨hi, rfl⟩ := List.getElem?_eq_some_iff.mp hx
    obtain ⟨j, hj, rfl⟩ := List.mem_take_iff_getElem.mp hy
    exact h j i _ hi (by omega)
  · intro h i j hi hj hij
    refine h j xs[j] (List.getElem?_eq_getElem hj) xs[i] ?_
    exact List.mem_take_iff_getElem.mpr ⟨i, by omega, rfl⟩

/-! ## Routes -/

namespace WebsiteRecord

variable {domains : List AvailableDomain} {rs : List WebsiteRecord} {r a b : WebsiteRecord}

/-- Whether two records do not submit the same route. -/
def Apart (a b : WebsiteRecord) : Prop :=
  ∀ route, a.route? = some route → b.route? ≠ some route

theorem routeIssues_eq_nil_iff {earlier : List Nat} {route : String × String} {index : Nat} :
    routeIssues earlier route index = [] ↔ earlier = [] := by
  match earlier with
  | [] => simp [routeIssues]
  | [_] => simp [routeIssues]
  | _ :: _ :: _ => simp [routeIssues]

theorem indicesOf_eq_nil_iff {route : String × String} :
    indicesOf route rs = [] ↔ ∀ r ∈ rs, r.route? ≠ some route := by
  rw [indicesOf, List.map_eq_nil_iff, List.filter_eq_nil_iff]
  simp only [decide_eq_true_eq]
  exact forall_mem_zipIdx_iff (p := fun r : WebsiteRecord => r.route? ≠ some route)

theorem formIssues_eq_nil_iff {index : Nat} :
    r.formIssues domains index = [] ↔
      (r.isSubmittedFromForm = true → r.form.issues domains r.baseline = []) := by
  rw [formIssues]
  split
  · rename_i hf
    rw [List.map_eq_nil_iff, forall_prop_of_true hf]
  · rename_i hf
    exact iff_of_true rfl fun h => absurd h hf

theorem issuesAfter_eq_nil_iff {index : Nat} :
    r.issuesAfter domains rs index = [] ↔
      r.formIssues domains index = [] ∧ ∀ a ∈ rs, a.Apart r := by
  rw [issuesAfter, List.append_eq_nil_iff]
  refine and_congr_right fun _ => ?_
  cases hr : r.route? with
  | none => simp [Apart, hr]
  | some route =>
    rw [routeIssues_eq_nil_iff, indicesOf_eq_nil_iff]
    refine forall₂_congr fun a _ => ⟨fun ha q hq hq' => ha ?_, fun ha hq => ha route hq hr⟩
    rw [hq, ← hr, hq']

theorem issues_eq_nil_iff_apart :
    issues domains rs = [] ↔
      (∀ r ∈ rs, r.isSubmittedFromForm = true → r.form.issues domains r.baseline = []) ∧
        rs.Pairwise Apart := by
  have hi : issues domains rs = [] ↔ ∀ (i : Nat) (r : WebsiteRecord),
      rs[i]? = some r → r.issuesAfter domains (rs.take i) i = [] := by
    rw [issues, List.flatMap_eq_nil_iff]
    simp only [Prod.forall, List.mk_mem_zipIdx_iff_getElem?]
    exact forall_comm
  constructor
  · intro h
    refine ⟨fun r hr hf => form_issues_of_issues h hr hf, ?_⟩
    exact pairwise_iff_take.mpr fun i r hr => (issuesAfter_eq_nil_iff.mp (hi.mp h i r hr)).2
  · rintro ⟨hf, ha⟩
    refine hi.mpr fun i r hr => issuesAfter_eq_nil_iff.mpr ⟨?_, pairwise_iff_take.mp ha i r hr⟩
    exact formIssues_eq_nil_iff.mpr (hf r (List.mem_of_getElem? hr))

end WebsiteRecord

end DeploymentConfig
