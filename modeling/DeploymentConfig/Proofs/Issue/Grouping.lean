import DeploymentConfig.Issue
import Mathlib.Algebra.GroupWithZero.Nat
import Mathlib.Data.Finset.Card
import Mathlib.Data.List.Nodup

/-!
# Issues by field

A report is shown field by field. Taking the items of a list group by group loses
none of them and repeats none, since it leaves the items of each key as they are
(`filter_byGroup`, `perm_of_filter_eq`); and with the keys in order it sorts the
list by key (`sortsBy_byGroup`), in the one way that keeps items of a key as they
were (`SortsBy.unique`).

The groups of a report are those of its fields (`mem_byField_iff`), each field once
(`nodup_byField`), with as many messages together as there are issues
(`sum_byField`).
-/

namespace DeploymentConfig

/-! ## Lists in groups -/

section Groups

variable {α κ : Type} [DecidableEq κ] {key : α → κ} {ks : List κ} {xs ys : List α}

theorem nodup_eraseDups (ks : List κ) : ks.eraseDups.Nodup := by
  induction ks using List.reverseRecOn with
  | nil => exact List.nodup_nil
  | append_singleton ks k ih =>
    rw [List.eraseDups_append]
    by_cases hk : k ∈ ks
    · simpa [List.removeAll, hk] using ih
    · have hd : ∀ k' ∈ ks, k' ≠ k := fun k' hk' he => hk (he ▸ hk')
      simpa [List.removeAll, hk, List.eraseDups_cons, List.nodup_append, ih] using hd

/-- The items of a list, key by key, those of a key in their order. -/
def byGroup (key : α → κ) (ks : List κ) (xs : List α) : List α :=
  ks.flatMap fun k => xs.filter (key · = k)

theorem filter_filter_key (k k' : κ) : (xs.filter (key · = k')).filter (key · = k) =
    if k' = k then xs.filter (key · = k) else [] := by
  rw [List.filter_filter]
  by_cases hk : k' = k
  · simp [hk]
  · rw [if_neg hk, List.filter_eq_nil_iff]
    intro x _ hx
    simp only [Bool.and_eq_true, decide_eq_true_eq] at hx
    exact hk (hx.2.symm.trans hx.1)

/-- Each key has the same items in the same order, if every key that occurs is listed once. -/
theorem filter_byGroup (hks : ks.Nodup) (h : ∀ x ∈ xs, key x ∈ ks) (k : κ) :
    (byGroup key ks xs).filter (key · = k) = xs.filter (key · = k) := by
  simp only [byGroup, List.filter_flatMap, filter_filter_key]
  have hskip : ∀ others : List κ, k ∉ others →
      (others.flatMap fun k' => if k' = k then xs.filter (key · = k) else []) = [] := by
    intro others ho
    exact List.flatMap_eq_nil_iff.mpr fun k' hk' => if_neg fun he : k' = k => ho (he ▸ hk')
  by_cases hk : k ∈ ks
  · obtain ⟨before, after, rfl⟩ := List.append_of_mem hk
    have hn := List.nodup_middle.mp hks
    rw [List.nodup_cons, List.mem_append, not_or] at hn
    rw [List.flatMap_append, List.flatMap_cons, if_pos rfl, hskip _ hn.1.1, hskip _ hn.1.2,
      List.nil_append, List.append_nil]
  · rw [hskip ks hk, eq_comm, List.filter_eq_nil_iff]
    intro x hx he
    exact hk (of_decide_eq_true he ▸ h x hx)

/-- Lists in which each key has the same items have the same items. -/
theorem perm_of_filter_eq [DecidableEq α]
    (h : ∀ k, ys.filter (key · = k) = xs.filter (key · = k)) : ys.Perm xs := by
  rw [List.perm_iff_count]
  intro a
  have hcount : ∀ zs : List α, (zs.filter (key · = key a)).count a = zs.count a :=
    fun zs => List.count_filter (decide_eq_true rfl)
  rw [← hcount ys, h, hcount xs]

theorem pairwise_byGroup {R : κ → κ → Prop} (hrefl : ∀ k, R k k) (hks : ks.Pairwise R) :
    (byGroup key ks xs).Pairwise fun a b => R (key a) (key b) := by
  have hkey : ∀ {k : κ} {a : α}, a ∈ xs.filter (key · = k) → key a = k :=
    fun ha => of_decide_eq_true (List.mem_filter.mp ha).2
  rw [byGroup, List.pairwise_flatMap]
  constructor
  · intro k _
    refine List.pairwise_of_forall_mem_list fun a ha b hb => ?_
    rw [hkey ha, hkey hb]
    exact hrefl k
  · refine hks.imp fun {k k'} hr a ha b hb => ?_
    rwa [hkey ha, hkey hb]

end Groups

/-! ## Stable sorts -/

/-- Whether `ys` is `xs` in the order of the keys, the items of one key as they were. -/
structure SortsBy {α κ : Type} [LE κ] [DecidableEq κ] (key : α → κ) (xs ys : List α) : Prop where
  perm : ys.Perm xs
  sorted : ys.Pairwise fun a b => key a ≤ key b
  stable : ∀ k, ys.filter (key · = k) = xs.filter (key · = k)

section SortsBy

variable {α κ : Type} [LinearOrder κ] {key : α → κ} {xs ys zs : List α}

theorem pairwise_mergeSort_key (key : α → κ) (xs : List α) :
    (xs.mergeSort (key · ≤ key ·)).Pairwise fun a b => key a ≤ key b := by
  refine (List.pairwise_mergeSort ?_ ?_ xs).imp of_decide_eq_true
  · intro a b c hab hbc
    exact decide_eq_true (le_trans (of_decide_eq_true hab) (of_decide_eq_true hbc))
  · intro a b
    rw [Bool.or_eq_true, decide_eq_true_eq, decide_eq_true_eq]
    exact le_total _ _

theorem sortsBy_byGroup [DecidableEq α] {ks : List κ} (hn : ks.Nodup)
    (hs : ks.Pairwise (· ≤ ·)) (h : ∀ x ∈ xs, key x ∈ ks) : SortsBy key xs (byGroup key ks xs) :=
  have hf := filter_byGroup hn h
  ⟨perm_of_filter_eq hf, pairwise_byGroup le_refl hs, hf⟩

/-- The first item of a sorted list has the least key of another list with the same items. -/
theorem key_le_of_filter_eq {y z : α} (hy : (y :: ys).Pairwise fun a b => key a ≤ key b)
    (h : ∀ k, (y :: ys).filter (key · = k) = (z :: zs).filter (key · = k)) : key y ≤ key z := by
  have hz : z ∈ (y :: ys).filter (key · = key z) := by
    rw [h]
    exact List.mem_filter.mpr ⟨List.mem_cons_self, decide_eq_true rfl⟩
  rcases List.mem_cons.mp (List.mem_filter.mp hz).1 with rfl | hz
  · exact le_refl _
  · exact List.rel_of_pairwise_cons hy hz

/-- Sorted lists in which each key has the same items in the same order are the same. -/
theorem eq_of_filter_eq (hy : ys.Pairwise fun a b => key a ≤ key b)
    (hz : zs.Pairwise fun a b => key a ≤ key b)
    (h : ∀ k, ys.filter (key · = k) = zs.filter (key · = k)) : ys = zs := by
  induction ys generalizing zs with
  | nil =>
    cases zs with
    | nil => rfl
    | cons z zs => simpa using h (key z)
  | cons y ys ih =>
    cases zs with
    | nil => simpa using h (key y)
    | cons z zs =>
      have hk : key y = key z :=
        le_antisymm (key_le_of_filter_eq hy h) (key_le_of_filter_eq hz fun k => (h k).symm)
      have hhead := h (key z)
      rw [List.filter_cons, List.filter_cons, if_pos (decide_eq_true hk),
        if_pos (decide_eq_true rfl)] at hhead
      obtain ⟨rfl, -⟩ := List.cons.inj hhead
      refine congrArg (y :: ·) (ih hy.of_cons hz.of_cons fun k => ?_)
      have hk := h k
      rw [List.filter_cons, List.filter_cons] at hk
      split at hk
      · exact (List.cons.inj hk).2
      · exact hk

theorem SortsBy.unique (hy : SortsBy key xs ys) (hz : SortsBy key xs zs) : ys = zs :=
  eq_of_filter_eq hy.sorted hz.sorted fun k => (hy.stable k).trans (hz.stable k).symm

end SortsBy

/-! ## Reports -/

namespace Report

variable {r : Report} {field : String} {messages : List String}

/-- The fields that a report is about, in the order of their first issue. -/
def fields (r : Report) : List String :=
  (r.issues.map Issue.field).eraseDups

theorem mem_fields_iff : field ∈ r.fields ↔ ∃ i ∈ r.issues, i.field = field := by
  rw [fields, List.mem_eraseDups, List.mem_map]

/-- The group of a field. -/
def group (r : Report) (field : String) : String × List String :=
  (field, (r.issues.filter (·.field = field)).map (·.message))

theorem byField_eq (r : Report) : r.byField = r.fields.map r.group := rfl

theorem map_fst_byField (r : Report) : r.byField.map (·.1) = r.fields := by
  rw [byField_eq, List.map_map]
  exact List.map_id _

theorem nodup_byField (r : Report) : (r.byField.map (·.1)).Nodup := by
  rw [map_fst_byField]
  exact nodup_eraseDups _

theorem mem_byField_iff : (field, messages) ∈ r.byField ↔
    (∃ i ∈ r.issues, i.field = field) ∧
      messages = (r.issues.filter (·.field = field)).map (·.message) := by
  rw [byField_eq, List.mem_map, ← mem_fields_iff]
  constructor
  · rintro ⟨field, hf, he⟩
    obtain ⟨rfl, rfl⟩ := Prod.mk.inj he
    exact ⟨hf, rfl⟩
  · rintro ⟨hf, rfl⟩
    exact ⟨field, hf, rfl⟩

theorem sum_byField (r : Report) : (r.byField.map (·.2.length)).sum = r.issues.length := by
  have hp : (byGroup Issue.field r.fields r.issues).Perm r.issues :=
    perm_of_filter_eq
      (filter_byGroup (nodup_eraseDups _) fun i hi => mem_fields_iff.mpr ⟨i, hi, rfl⟩)
  rw [← hp.length_eq, byGroup, List.length_flatMap, byField_eq, List.map_map]
  exact congrArg List.sum (List.map_congr_left fun field _ => List.length_map ..)

theorem length_byField (r : Report) :
    r.byField.length = (r.issues.map (·.field)).toFinset.card := by
  have hf : (r.issues.map (·.field)).toFinset = r.fields.toFinset := by
    ext field
    rw [List.mem_toFinset, List.mem_toFinset, fields, List.mem_eraseDups]
  have hn : r.fields.Nodup := nodup_eraseDups _
  rw [hf, List.toFinset_card_of_nodup hn, ← map_fst_byField, List.length_map]

theorem text_of_length_ne_one (h : r.issues.length ≠ 1) : r.text =
    s!"Validation failed for {(r.issues.map (·.field)).toFinset.card} fields" := by
  rw [← length_byField, text]
  split
  · next issue hi => exact absurd (congrArg List.length hi) h
  · rfl

end Report

end DeploymentConfig
