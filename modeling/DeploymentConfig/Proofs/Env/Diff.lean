import DeploymentConfig.Env.Diff
import Mathlib.Data.List.Nodup

/-!
# What a diff says

A diff is determined by lookups: its three lists are increasing, and a key is in
one of them according to what the two maps have under it (`mem_added_iff`,
`mem_deleted_iff`, `mem_updated_iff`).

* `mem_map_key_operations_iff`: the operations are on the keys that the two maps
  disagree on, each of them once (`nodup_map_key_operations`);
* `lookup_foldl`: operations that say what a map has make whatever they are done
  to agree with it on their keys, and change nothing else;
* `diff_eq_restrict`: where a map is as before on some keys and as it should be
  on the others, what is left to do is the part of the diff on the former.
-/

namespace DeploymentConfig

theorem nodup_of_increasing {xs : List String} (h : xs.Pairwise (· < ·)) : xs.Nodup := by
  refine h.imp fun {a b} hab he => ?_
  rw [he] at hab
  exact String.lt_irrefl b hab

/-- An increasing list is told apart from a part of another one by its members. -/
theorem eq_filter_of_increasing {xs ys : List String} {p : String → Bool}
    (hx : xs.Pairwise (· < ·)) (hy : ys.Pairwise (· < ·))
    (h : ∀ a, a ∈ xs ↔ a ∈ ys ∧ p a = true) : xs = ys.filter p := by
  have hyp := hy.filter p
  have hp : xs.Perm (ys.filter p) := by
    rw [List.perm_ext_iff_of_nodup (nodup_of_increasing hx) (nodup_of_increasing hyp)]
    exact fun a => (h a).trans List.mem_filter.symm
  refine hp.eq_of_pairwise (fun a b _ _ hab hba => ?_) hx hyp
  exact absurd (String.lt_trans hab hba) (String.lt_irrefl a)

/-- Where no two entries have the same key, a lookup finds every one of them. -/
theorem find?_key_eq_some_iff {entries : List (String × String)} {key value : String}
    (h : (entries.map (·.1)).Nodup) :
    (entries.find? (·.1 = key)).map (·.2) = some value ↔ (key, value) ∈ entries := by
  rw [Option.map_eq_some_iff]
  constructor
  · rintro ⟨e, he, rfl⟩
    have hk : e.1 = key := by simpa using List.find?_some he
    exact hk ▸ List.mem_of_find?_eq_some he
  · intro hm
    obtain ⟨e, he⟩ := Option.isSome_iff_exists.mp
      (List.find?_isSome.mpr ⟨_, hm, by simp⟩ : (entries.find? (·.1 = key)).isSome = true)
    have hk : e.1 = key := by simpa using List.find?_some he
    have heq := List.inj_on_of_nodup_map h (List.mem_of_find?_eq_some he) hm hk
    exact ⟨e, he, by rw [heq]⟩

namespace EnvMap

variable {m old new : EnvMap} {key value : String} {p : String × String → Bool}

theorem increasing_keys (m : EnvMap) : m.keys.Pairwise (· < ·) :=
  List.pairwise_map.mpr m.sorted

theorem get?_eq_some_iff : m.get? key = some value ↔ (key, value) ∈ m.entries :=
  find?_key_eq_some_iff (nodup_of_increasing m.increasing_keys)

/-- The keys of some entries, in order. -/
theorem increasing_map_filter (m : EnvMap) (p : String × String → Bool) :
    ((m.entries.filter p).map (·.1)).Pairwise (· < ·) :=
  List.pairwise_map.mpr (m.sorted.filter p)

theorem mem_map_filter_iff :
    key ∈ (m.entries.filter p).map (·.1) ↔
      ∃ value, m.get? key = some value ∧ p (key, value) = true := by
  simp only [List.mem_map, List.mem_filter, Prod.exists, exists_and_right, exists_eq_right,
    get?_eq_some_iff]

/-! ## Lookups -/

theorem increasing_added (old new : EnvMap) : (old.diff new).added.Pairwise (· < ·) :=
  new.increasing_map_filter _

theorem increasing_updated (old new : EnvMap) : (old.diff new).updated.Pairwise (· < ·) :=
  new.increasing_map_filter _

theorem increasing_deleted (old new : EnvMap) : (old.diff new).deleted.Pairwise (· < ·) :=
  old.increasing_keys.filter _

theorem mem_added_iff :
    key ∈ (old.diff new).added ↔ old.get? key = none ∧ ∃ w, new.get? key = some w := by
  rw [diff, mem_map_filter_iff, ← exists_and_left]
  simp only [Option.isNone_iff_eq_none, and_comm]

theorem mem_updated_iff :
    key ∈ (old.diff new).updated ↔
      ∃ v w, old.get? key = some v ∧ new.get? key = some w ∧ v ≠ w := by
  rw [diff, mem_map_filter_iff]
  simp only [Option.any_eq_true, decide_eq_true_eq]
  constructor
  · rintro ⟨w, hw, v, hv, hne⟩
    exact ⟨v, w, hv, hw, hne⟩
  · rintro ⟨v, w, hv, hw, hne⟩
    exact ⟨w, hw, v, hv, hne⟩

theorem mem_deleted_iff :
    key ∈ (old.diff new).deleted ↔ (∃ v, old.get? key = some v) ∧ new.get? key = none := by
  rw [diff, List.mem_filter, mem_keys_iff, Option.isSome_iff_exists, Option.isNone_iff_eq_none]

/-- A key that is new has no old value, and one that is dropped no new one. -/
theorem disjoint_diff (old new : EnvMap) :
    (old.diff new).added.Disjoint (old.diff new).deleted ∧
      (old.diff new).added.Disjoint (old.diff new).updated ∧
      (old.diff new).deleted.Disjoint (old.diff new).updated := by
  simp only [List.disjoint_left, mem_added_iff, mem_deleted_iff, mem_updated_iff]
  refine ⟨fun key ha hd => ?_, fun key ha hu => ?_, fun key hd hu => ?_⟩
  · obtain ⟨v, hv⟩ := hd.1
    exact absurd (hv.symm.trans ha.1) (Option.some_ne_none v)
  · obtain ⟨v, -, hv, -⟩ := hu
    exact absurd (hv.symm.trans ha.1) (Option.some_ne_none v)
  · obtain ⟨-, w, -, hw, -⟩ := hu
    exact absurd (hw.symm.trans hd.2) (Option.some_ne_none w)

end EnvMap

/-! ## Operations -/

/-- What an operation leaves under its key. -/
def EnvOperation.value? : EnvOperation → Option String
  | upsert _ value => some value
  | delete _ => none

namespace EnvMap

variable {m old new : EnvMap} {key : String}

/-- Operations that say what a map has make whatever they are done to agree with it on their keys,
if each of them does what it says to the lookups, and nothing else. -/
theorem lookup_foldl {σ : Type} {f : σ → EnvOperation → σ} {lookup : σ → String → Option String}
    (hf : ∀ s op key, lookup (f s op) key = if op.key = key then op.value? else lookup s key)
    {ops : List EnvOperation} (h : ∀ op ∈ ops, op.value? = new.get? op.key) (s : σ)
    (key : String) :
    lookup (ops.foldl f s) key =
      if key ∈ ops.map (·.key) then new.get? key else lookup s key := by
  induction ops generalizing s with
  | nil => rfl
  | cons op ops ih =>
    obtain ⟨hop, hops⟩ := List.forall_mem_cons.mp h
    rw [List.foldl_cons, ih hops, hf, List.map_cons]
    by_cases hm : key ∈ ops.map (·.key)
    · rw [if_pos hm, if_pos (List.mem_cons_of_mem _ hm)]
    · by_cases hk : op.key = key
      · rw [if_neg hm, if_pos hk, if_pos (hk ▸ List.mem_cons_self), hop, hk]
      · have hc : key ∉ op.key :: ops.map (·.key) := by simp [hm, Ne.symm hk]
        rw [if_neg hm, if_neg hk, if_neg hc]

theorem get?_apply (m : EnvMap) (op : EnvOperation) (key : String) :
    (m.apply op).get? key = if op.key = key then op.value? else m.get? key := by
  cases op with
  | upsert k value => exact get?_insert
  | delete k => exact get?_erase

theorem get?_foldl_apply {ops : List EnvOperation} (h : ∀ op ∈ ops, op.value? = new.get? op.key)
    (m : EnvMap) (key : String) :
    (ops.foldl apply m).get? key =
      if key ∈ ops.map (·.key) then new.get? key else m.get? key :=
  lookup_foldl get?_apply h m key

theorem value?_of_mem_operations {op : EnvOperation} (h : op ∈ (old.diff new).operations new) :
    op.value? = new.get? op.key := by
  rw [EnvDiff.operations, List.mem_append, List.mem_filterMap, List.mem_map] at h
  rcases h with ⟨k, -, hk⟩ | ⟨k, hk, rfl⟩
  · obtain ⟨w, hw, rfl⟩ := Option.map_eq_some_iff.mp hk
    exact hw.symm
  · exact (mem_deleted_iff.mp hk).2.symm

/-- No key of a diff is passed over. -/
theorem map_key_operations (old new : EnvMap) :
    ((old.diff new).operations new).map (·.key) =
      (old.diff new).added ++ (old.diff new).updated ++ (old.diff new).deleted := by
  have hu : ∀ k ∈ (old.diff new).added ++ (old.diff new).updated,
      ((new.get? k).map (EnvOperation.upsert k)).map (·.key) = some k := by
    intro k hk
    obtain ⟨w, hw⟩ : ∃ w, new.get? k = some w := by
      rcases List.mem_append.mp hk with hk | hk
      · exact (mem_added_iff.mp hk).2
      · obtain ⟨-, w, -, hw, -⟩ := mem_updated_iff.mp hk
        exact ⟨w, hw⟩
    rw [hw]
    rfl
  rw [EnvDiff.operations, List.map_append, List.map_filterMap, List.filterMap_congr hu,
    List.filterMap_some, List.map_map]
  exact congrArg _ (List.map_id _)

theorem mem_map_key_operations_iff :
    key ∈ ((old.diff new).operations new).map (·.key) ↔ old.get? key ≠ new.get? key := by
  rw [map_key_operations, List.mem_append, List.mem_append, mem_added_iff, mem_updated_iff,
    mem_deleted_iff]
  cases old.get? key <;> cases new.get? key <;> simp

theorem nodup_map_key_operations (old new : EnvMap) :
    (((old.diff new).operations new).map (·.key)).Nodup := by
  obtain ⟨had, hau, hdu⟩ := disjoint_diff old new
  rw [map_key_operations]
  have hadded := nodup_of_increasing (increasing_added old new)
  have hupdated := nodup_of_increasing (increasing_updated old new)
  have hdeleted := nodup_of_increasing (increasing_deleted old new)
  refine (hadded.append hupdated hau).append hdeleted ?_
  exact List.disjoint_append_left.mpr ⟨had, List.disjoint_symm hdu⟩

end EnvMap

/-! ## Parts of a diff -/

/-- The part of a diff on some keys. -/
def EnvDiff.restrict (p : String → Bool) (d : EnvDiff) : EnvDiff where
  added := d.added.filter p
  deleted := d.deleted.filter p
  updated := d.updated.filter p

namespace EnvMap

variable {m old new : EnvMap} {p : String → Bool}

theorem diff_eq_restrict (hin : ∀ key, p key = true → m.get? key = old.get? key)
    (hout : ∀ key, p key = false → m.get? key = new.get? key) :
    m.diff new = (old.diff new).restrict p := by
  refine EnvDiff.ext
    (eq_filter_of_increasing (increasing_added m new) (increasing_added old new) fun key => ?_)
    (eq_filter_of_increasing (increasing_deleted m new) (increasing_deleted old new) fun key => ?_)
    (eq_filter_of_increasing (increasing_updated m new) (increasing_updated old new) fun key => ?_)
  -- Each list goes by the lookups of `old` where `p` holds; elsewhere nothing is left to do.
  all_goals
    simp only [mem_added_iff, mem_deleted_iff, mem_updated_iff]
    cases hp : p key with
    | true => simp [hin key hp]
    | false => simp +contextual [hout key hp]

theorem operations_restrict (old new : EnvMap) (p : String → Bool) :
    ((old.diff new).restrict p).operations new =
      ((old.diff new).operations new).filter fun op => p op.key := by
  have hu : ∀ keys : List String,
      (keys.filter p).filterMap (fun k => (new.get? k).map (EnvOperation.upsert k)) =
        (keys.filterMap fun k => (new.get? k).map (EnvOperation.upsert k)).filter
          fun op => p op.key := by
    intro keys
    rw [List.filter_filterMap, List.filterMap_filter]
    refine List.filterMap_congr fun k _ => ?_
    cases new.get? k with
    | none => cases p k <;> rfl
    | some w => cases hp : p k <;> simp [EnvOperation.key, Option.filter, hp]
  rw [EnvDiff.operations, EnvDiff.operations, EnvDiff.restrict, List.filter_append, ← hu,
    ← List.filter_append, List.filter_map]
  rfl

end EnvMap

end DeploymentConfig
