import DeploymentConfig.Proofs.Website.Routes
import Mathlib.Data.List.Flatten
import Mathlib.Data.List.Induction
import Mathlib.Data.List.Nodup
import Mathlib.Data.List.Perm.Basic

/-!
# Routes that are shared

A route that two records submit is an issue of both, and of every further record
that submits it (`IsSubmittedElsewhere`). The check finds these issues on the way
(`routeIssues`): the one of the first record when it comes to the second, the
others where they are. One more record adds to the issues of shared routes what
the check adds (`sharedRouteIssues_concat_perm`), so that in the end each of the
records has been reported, and none of them twice.

* `check_perm_exact`: what is reported of records, in some order.
-/

namespace DeploymentConfig.WebsiteRecord

variable {domains : List AvailableDomain} {rs : List WebsiteRecord} {r : WebsiteRecord}
  {route : String × String} {index : Nat}

/-- The issues of the forms that are submitted, each under the path of its record. -/
def submittedFormIssues (domains : List AvailableDomain) (rs : List WebsiteRecord) : List Issue :=
  rs.zipIdx.flatMap fun (r, index) =>
    if r.effectiveState = .readyToChange ∨ r.effectiveState = .added then
      (r.form.issues domains r.baseline).map fun x =>
        { x with field := s!"websites[{index}]." ++ x.field }
    else []

/-- Whether a record is kept and submits a website with the name and the path of a route. -/
def Submits (r : WebsiteRecord) (route : String × String) : Prop :=
  r.effectiveState ≠ .readyToDelete ∧
    ∃ w ∈ r.submitted?, w.fqdn = route.1 ∧ w.pathPrefix = route.2

instance : Decidable (r.Submits route) :=
  inferInstanceAs (Decidable (_ ∧ ∃ w ∈ r.submitted?, w.fqdn = route.1 ∧ w.pathPrefix = route.2))

/-- Whether a record at another index submits a route. -/
def IsSubmittedElsewhere (rs : List WebsiteRecord) (route : String × String) (index : Nat) : Prop :=
  ∃ other ∈ rs.zipIdx, other.2 ≠ index ∧ other.1.Submits route

instance : Decidable (IsSubmittedElsewhere rs route index) :=
  inferInstanceAs (Decidable (∃ other ∈ rs.zipIdx, other.2 ≠ index ∧ other.1.Submits route))

/-- The issue of a record that is kept and whose route is submitted elsewhere. -/
def sharedRouteIssue (rs : List WebsiteRecord) (r : WebsiteRecord) (index : Nat) : List Issue :=
  match r.submitted? with
  | none => []
  | some w =>
    if r.effectiveState ≠ .readyToDelete ∧
        IsSubmittedElsewhere rs (w.fqdn, w.pathPrefix) index then
      [⟨s!"websites[{index}].pathPrefix", .duplicateKey,
        w.fqdn ++ w.pathPrefix ++ " is used by more than one website"⟩]
    else []

/-- One issue for each record whose route is submitted elsewhere. -/
def sharedRouteIssues (rs : List WebsiteRecord) : List Issue :=
  rs.zipIdx.flatMap fun (r, index) => sharedRouteIssue rs r index

/-! ## Records with a route -/

theorem effectiveState_ne_of_submitted? {w : WebsiteSettings} (hw : r.submitted? = some w) :
    r.effectiveState ≠ .readyToDelete := by
  intro he
  simp [submitted?, he] at hw

theorem submits_iff : r.Submits route ↔ r.route? = some route := by
  rw [route?, Option.map_eq_some_iff]
  constructor
  · rintro ⟨-, w, hw, hf, hp⟩
    exact ⟨w, hw, Prod.ext hf hp⟩
  · rintro ⟨w, hw, rfl⟩
    exact ⟨effectiveState_ne_of_submitted? hw, w, hw, rfl, rfl⟩

theorem duplicateRoute_eq (route : String × String) (index : Nat) :
    duplicateRoute route index = ⟨s!"websites[{index}].pathPrefix", .duplicateKey,
      route.1 ++ route.2 ++ " is used by more than one website"⟩ := by
  rw [duplicateRoute, path, itemPath, String.append_assoc]
  rfl

theorem sharedRouteIssue_eq (rs : List WebsiteRecord) (r : WebsiteRecord) (index : Nat) :
    sharedRouteIssue rs r index =
      match r.route? with
      | none => []
      | some route =>
        if IsSubmittedElsewhere rs route index then [duplicateRoute route index] else [] := by
  rw [sharedRouteIssue, route?]
  cases hw : r.submitted? with
  | none => rfl
  | some w =>
    simp only [effectiveState_ne_of_submitted? hw, ne_eq, not_false_eq_true, true_and,
      Option.map_some, WebsiteSettings.route, duplicateRoute_eq]

/-! ## Indices of a route -/

theorem mem_indicesOf_iff :
    index ∈ indicesOf route rs ↔ ∃ r, (r, index) ∈ rs.zipIdx ∧ r.route? = some route := by
  simp [indicesOf]

theorem lt_length_of_mem_indicesOf (h : index ∈ indicesOf route rs) : index < rs.length := by
  obtain ⟨r, hr, -⟩ := mem_indicesOf_iff.mp h
  exact (List.mem_zipIdx' hr).1

theorem nodup_indicesOf (route : String × String) (rs : List WebsiteRecord) :
    (indicesOf route rs).Nodup := by
  have hs : (indicesOf route rs).Sublist (List.range' 0 rs.length) := by
    rw [← List.zipIdx_map_snd]
    exact List.filter_sublist.map _
  exact List.Nodup.sublist hs List.nodup_range'

theorem isSubmittedElsewhere_iff :
    IsSubmittedElsewhere rs route index ↔ ∃ i ∈ indicesOf route rs, i ≠ index := by
  simp only [mem_indicesOf_iff, IsSubmittedElsewhere, submits_iff, Prod.exists]
  constructor
  · rintro ⟨r, i, hm, hi, hr⟩
    exact ⟨i, ⟨r, hm, hr⟩, hi⟩
  · rintro ⟨i, ⟨r, hm, hr⟩, hi⟩
    exact ⟨r, i, hm, hi, hr⟩

theorem isSubmittedElsewhere_concat : IsSubmittedElsewhere (rs ++ [r]) route index ↔
    IsSubmittedElsewhere rs route index ∨ (rs.length ≠ index ∧ r.route? = some route) := by
  simp [IsSubmittedElsewhere, submits_iff, List.zipIdx_append, or_and_right, exists_or]

/-- Of a list without repetition that has an item, there is another item unless it is the only
one. -/
theorem exists_mem_ne_iff {α : Type} {xs : List α} {a : α} (hn : xs.Nodup) (ha : a ∈ xs) :
    (∃ x ∈ xs, x ≠ a) ↔ xs.length ≠ 1 := by
  match xs with
  | [] => cases ha
  | [x] => simp [List.mem_singleton.mp ha]
  | x :: y :: xs =>
    have hxy : x ≠ y := fun h => (List.nodup_cons.mp hn).1 (h ▸ List.mem_cons_self)
    refine iff_of_true ?_ (by simp)
    by_cases hx : x = a
    · exact ⟨y, by simp, fun hy => hxy (hx.trans hy.symm)⟩
    · exact ⟨x, by simp, hx⟩

/-! ## One more record -/

theorem routeIssues_eq (earlier : List Nat) (route : String × String) (index : Nat) :
    routeIssues earlier route index =
      (if earlier.length = 1 then earlier.map (duplicateRoute route) else []) ++
        if earlier = [] then [] else [duplicateRoute route index] := by
  match earlier with
  | [] => rfl
  | [_] => rfl
  | _ :: _ :: _ => simp [routeIssues]

theorem flatMap_ite_eq_map_filter {α β : Type} {p : α → Bool} {f : α → β} {xs : List α} :
    (xs.flatMap fun a => if p a then [f a] else []) = (xs.filter p).map f := by
  induction xs with
  | nil => rfl
  | cons a xs ih => cases hp : p a <;> simp [hp, ih]

/-- The issue of a record that was the only one with a route, when the route is used again. -/
def secondUse (rs : List WebsiteRecord) (route : String × String) (x : WebsiteRecord × Nat) :
    List Issue :=
  if x.1.route? = some route ∧ (indicesOf route rs).length = 1 then [duplicateRoute route x.2]
  else []

theorem flatMap_secondUse (rs : List WebsiteRecord) (route : String × String) :
    rs.zipIdx.flatMap (secondUse rs route) = if (indicesOf route rs).length = 1 then
      (indicesOf route rs).map (duplicateRoute route) else [] := by
  by_cases hl : (indicesOf route rs).length = 1
  · rw [if_pos hl, indicesOf, List.map_map, ← flatMap_ite_eq_map_filter]
    refine List.flatMap_congr fun x _ => ?_
    simp only [secondUse, hl, and_true, decide_eq_true_eq]
    rfl
  · simp [secondUse, hl]

theorem sharedRouteIssue_concat_of_none (hr : r.route? = none) (a : WebsiteRecord) (index : Nat) :
    sharedRouteIssue (rs ++ [r]) a index = sharedRouteIssue rs a index := by
  simp only [sharedRouteIssue_eq, isSubmittedElsewhere_concat, hr, reduceCtorEq, and_false,
    or_false]

theorem sharedRouteIssue_concat (hr : r.route? = some route) {x : WebsiteRecord × Nat}
    (hx : x ∈ rs.zipIdx) : sharedRouteIssue (rs ++ [r]) x.1 x.2 =
      sharedRouteIssue rs x.1 x.2 ++ secondUse rs route x := by
  obtain ⟨a, i⟩ := x
  cases ha : a.route? with
  | none => simp [sharedRouteIssue_eq, secondUse, ha]
  | some q =>
    by_cases hq : q = route
    · subst hq
      have hi : i < rs.length := (List.mem_zipIdx' hx).1
      have hm : i ∈ indicesOf q rs := mem_indicesOf_iff.mpr ⟨a, hx, ha⟩
      -- It is shared now, and was before if it was not the only one with its route.
      have hs : IsSubmittedElsewhere (rs ++ [r]) q i :=
        isSubmittedElsewhere_concat.mpr (.inr ⟨Nat.ne_of_gt hi, hr⟩)
      have hn : IsSubmittedElsewhere rs q i ↔ (indicesOf q rs).length ≠ 1 :=
        isSubmittedElsewhere_iff.trans (exists_mem_ne_iff (nodup_indicesOf q rs) hm)
      by_cases hl : (indicesOf q rs).length = 1 <;>
        simp [sharedRouteIssue_eq, secondUse, ha, hs, hn, hl]
    · simp [sharedRouteIssue_eq, secondUse, ha, isSubmittedElsewhere_concat, hr, hq, Ne.symm hq]

/-- A further record shares its route if it is not the first with it. -/
theorem sharedRouteIssue_last (hr : r.route? = some route) :
    sharedRouteIssue (rs ++ [r]) r rs.length =
      if indicesOf route rs = [] then [] else [duplicateRoute route rs.length] := by
  have hs : IsSubmittedElsewhere (rs ++ [r]) route rs.length ↔ indicesOf route rs ≠ [] := by
    rw [isSubmittedElsewhere_concat, isSubmittedElsewhere_iff]
    simp only [ne_eq, not_true_eq_false, false_and, or_false]
    refine ⟨fun ⟨i, hi, _⟩ => List.ne_nil_of_mem hi, fun hn => ?_⟩
    obtain ⟨i, hi⟩ := List.exists_mem_of_ne_nil _ hn
    exact ⟨i, hi, Nat.ne_of_lt (lt_length_of_mem_indicesOf hi)⟩
  simp only [sharedRouteIssue_eq, hr, hs, ite_not]

/-- One more record adds the issues that the check finds there. -/
theorem sharedRouteIssues_concat_perm (rs : List WebsiteRecord) (r : WebsiteRecord) :
    (sharedRouteIssues (rs ++ [r])).Perm (sharedRouteIssues rs ++
      match r.route? with
      | none => []
      | some route => routeIssues (indicesOf route rs) route rs.length) := by
  have hc : sharedRouteIssues (rs ++ [r]) =
      (rs.zipIdx.flatMap fun x => sharedRouteIssue (rs ++ [r]) x.1 x.2) ++
        sharedRouteIssue (rs ++ [r]) r rs.length := by
    simp [sharedRouteIssues, List.zipIdx_append]
  rw [hc]
  cases hr : r.route? with
  | none =>
    simp only [sharedRouteIssue_concat_of_none hr]
    simp [sharedRouteIssue_eq, sharedRouteIssues, hr]
  | some route =>
    simp only [routeIssues_eq]
    rw [List.flatMap_congr fun x hx => sharedRouteIssue_concat hr hx, sharedRouteIssue_last hr,
      ← flatMap_secondUse, ← List.append_assoc]
    exact (List.flatMap_append_perm _ _ _).symm.append_right _

/-! ## All records -/

theorem issues_concat (domains : List AvailableDomain) (rs : List WebsiteRecord)
    (r : WebsiteRecord) :
    issues domains (rs ++ [r]) = issues domains rs ++ r.issuesAfter domains rs rs.length := by
  have ht : ∀ x ∈ rs.zipIdx, x.1.issuesAfter domains ((rs ++ [r]).take x.2) x.2 =
      x.1.issuesAfter domains (rs.take x.2) x.2 := by
    intro x hx
    have hi : x.2 < rs.length := (List.mem_zipIdx' hx).1
    rw [List.take_append_of_le_length (Nat.le_of_lt hi)]
  rw [issues, List.zipIdx_append, List.flatMap_append, List.flatMap_congr ht]
  simp [issues]

theorem submittedFormIssues_concat (domains : List AvailableDomain) (rs : List WebsiteRecord)
    (r : WebsiteRecord) : submittedFormIssues domains (rs ++ [r]) =
      submittedFormIssues domains rs ++ r.formIssues domains rs.length := by
  have hpath (x : Issue) : x.under (path rs.length) =
      { x with field := s!"websites[{rs.length}]." ++ x.field } :=
    Issue.under_itemPath "websites" rs.length x
  simp [submittedFormIssues, List.zipIdx_append, formIssues, isSubmittedFromForm, hpath]

theorem issues_perm (domains : List AvailableDomain) (rs : List WebsiteRecord) :
    (issues domains rs).Perm (submittedFormIssues domains rs ++ sharedRouteIssues rs) := by
  -- By the last record, as the check looks at each after those before it.
  induction rs using List.reverseRecOn with
  | nil => exact .nil
  | append_singleton rs r ih =>
    have hs := sharedRouteIssues_concat_perm rs r
    rw [issues_concat, submittedFormIssues_concat, issuesAfter]
    refine (ih.append_right _).trans ?_
    rw [List.append_assoc, List.append_assoc]
    exact .append_left _ ((List.perm_append_comm_assoc _ _ _).trans (.append_left _ hs.symm))

/-! ## Fields -/

theorem kind_ne_of_mem_form_issues {f : WebsiteForm} {baseline : Option WebsiteSettings} {x : Issue}
    (hx : x ∈ f.issues domains baseline) : x.kind ≠ .duplicateKey := by
  have hplace : ∀ d, ∀ y ∈ f.placeIssues d baseline, y.kind ≠ .duplicateKey := by
    intro d
    rw [WebsiteForm.placeIssues]
    repeat' split
    all_goals simp
  have hauthentication : ∀ d, ∀ y ∈ f.authenticationIssues d, y.kind ≠ .duplicateKey := by
    intro d
    rw [WebsiteForm.authenticationIssues]
    split <;> simp
  have hdomain : ∀ y ∈ f.domainIssues domains baseline, y.kind ≠ .duplicateKey := by
    rw [WebsiteForm.domainIssues]
    repeat' split
    · simp
    · simp
    · exact List.forall_mem_append.mpr ⟨hplace _, hauthentication _⟩
  have hpath : ∀ y ∈ f.pathIssues, y.kind ≠ .duplicateKey := by
    rw [WebsiteForm.pathIssues]
    split <;> simp
  have hport : ∀ y ∈ Port.issues "httpPort" f.httpPort, y.kind ≠ .duplicateKey := by
    rw [Port.issues]
    split <;> simp [Port.outOfRange]
  exact List.forall_mem_append.mpr ⟨List.forall_mem_append.mpr ⟨hdomain, hpath⟩, hport⟩ x hx

theorem filter_submittedFormIssues (domains : List AvailableDomain) (rs : List WebsiteRecord) :
    (submittedFormIssues domains rs).filter (·.kind = .duplicateKey) = [] := by
  refine List.filter_eq_nil_iff.mpr fun x hx => ?_
  obtain ⟨⟨r, index⟩, -, hx⟩ := List.mem_flatMap.mp hx
  dsimp only at hx
  split at hx
  · obtain ⟨y, hy, rfl⟩ := List.mem_map.mp hx
    exact fun hk => kind_ne_of_mem_form_issues hy (of_decide_eq_true hk)
  · cases hx

theorem filter_sharedRouteIssues (rs : List WebsiteRecord) :
    (sharedRouteIssues rs).filter (·.kind = .duplicateKey) = sharedRouteIssues rs := by
  refine List.filter_eq_self.mpr fun x hx => ?_
  obtain ⟨⟨r, index⟩, -, hx⟩ := List.mem_flatMap.mp hx
  simp only [sharedRouteIssue_eq] at hx
  split at hx
  · cases hx
  · split at hx
    · rw [List.mem_singleton.mp hx]
      rfl
    · cases hx

theorem nodup_map_field_sharedRouteIssues (rs : List WebsiteRecord) :
    ((sharedRouteIssues rs).map (·.field)).Nodup := by
  have hone : ∀ x : WebsiteRecord × Nat, ((sharedRouteIssue rs x.1 x.2).map (·.field)).Sublist
      [path x.2 ++ ".pathPrefix"] := by
    intro x
    rw [sharedRouteIssue_eq]
    split
    · exact List.nil_sublist _
    · split
      · exact .refl _
      · exact List.nil_sublist _
  have hall : ((sharedRouteIssues rs).map (·.field)).Sublist
      ((List.range' 0 rs.length).map (path · ++ ".pathPrefix")) := by
    rw [sharedRouteIssues, List.map_flatMap, ← List.zipIdx_map_snd, List.map_map,
      List.map_eq_flatMap]
    exact .flatMap_right _ fun x _ => hone x
  have hinj : Function.Injective (path · ++ ".pathPrefix") :=
    fun _ _ h => itemPath_inj.mp ((String.append_left_inj _).mp h)
  exact (List.Nodup.map hinj List.nodup_range').sublist hall

/-- What is reported of records are the issues of the forms that are submitted, and one for each
record that is kept whose route another one that is kept submits too. No record is reported twice
for its route. -/
theorem check_perm_exact (domains : List AvailableDomain) (rs : List WebsiteRecord) :
    ∃ found, check domains rs = Report.verdict found ∧
      found.Perm (submittedFormIssues domains rs ++ sharedRouteIssues rs) ∧
      ((found.filter (·.kind = .duplicateKey)).map (·.field)).Nodup := by
  have hp := issues_perm domains rs
  refine ⟨issues domains rs, rfl, hp, ?_⟩
  have hf := (hp.filter (·.kind = .duplicateKey)).map (·.field)
  rw [List.filter_append, filter_submittedFormIssues, filter_sharedRouteIssues,
    List.nil_append] at hf
  exact hf.nodup_iff.mpr (nodup_map_field_sharedRouteIssues rs)

def turnForm (subdomain : String) (httpPort : Int32) : WebsiteForm :=
  { WebsiteForm.new "*.trap.show" with subdomain, httpPort }

def turnStored (state : EditState) (subdomain : String) (httpPort : Int32) : WebsiteRecord :=
  ⟨state, turnForm subdomain httpPort, some (turnForm subdomain 80).settings, some subdomain⟩

/-- Two routes, used in turn by new, stored and edited records, one of which has no valid port. The
record that is to be removed has the first of the routes as well. -/
def inTurn : List WebsiteRecord :=
  [added (turnForm "a" 80), added (turnForm "b" 0), turnStored .noChange "a" 80,
    turnStored .readyToDelete "a" 80, turnStored .noChange "b" 8080, added (turnForm "a" 80)]

theorem check_perm_exact_inTurn :
    ∃ found, check [⟨"*.trap.show", true, false⟩] inTurn = .error ⟨found⟩ ∧ found.Perm [
      ⟨"websites[1].httpPort", .outOfRange, "Port must be between 1 and 65535"⟩,
      ⟨"websites[0].pathPrefix", .duplicateKey, "a.trap.show/ is used by more than one website"⟩,
      ⟨"websites[1].pathPrefix", .duplicateKey, "b.trap.show/ is used by more than one website"⟩,
      ⟨"websites[2].pathPrefix", .duplicateKey, "a.trap.show/ is used by more than one website"⟩,
      ⟨"websites[4].pathPrefix", .duplicateKey, "b.trap.show/ is used by more than one website"⟩,
      ⟨"websites[5].pathPrefix", .duplicateKey,
        "a.trap.show/ is used by more than one website"⟩] := by
  obtain ⟨found, hc, hp, -⟩ := check_perm_exact [⟨"*.trap.show", true, false⟩] inTurn
  have hfound : found ≠ [] := by
    rintro rfl
    exact absurd hp.nil_eq (by decide)
  exact ⟨found, hc.trans (Report.verdict_eq_error_iff.mpr ⟨hfound, rfl⟩),
    hp.trans (.of_eq (by decide))⟩

end DeploymentConfig.WebsiteRecord
