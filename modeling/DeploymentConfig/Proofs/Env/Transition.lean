import DeploymentConfig.Proofs.Env.System

/-!
# From one map to another

A diff names the keys on which two maps disagree, each in one of its three lists,
and asks for one operation on each. Operations on different keys do not get in
each other's way, so their order does not matter: a store that carries out what
it is asked (`Attempt.CarriesOut`) has the new values on these keys and keeps its
own on all others (`Attempt.CarriesOut.get?_attemptAll`).

* `EnvMap.leads_diff`: what a diff is to the maps that it leads between.
-/

namespace DeploymentConfig

/-! ## Stores that refuse nothing -/

section Store

variable {σ : Type} {attempt : Attempt σ} {get? : σ → String → Option String} {new : EnvMap}

/-- Whether a store, in which `get?` looks up a key, carries out every operation, and does nothing
else. -/
structure Attempt.CarriesOut (attempt : Attempt σ) (get? : σ → String → Option String) :
    Prop where
  accepts : ∀ op s, (attempt op s).1 = none
  get?_eq : ∀ op s key, get? (attempt op s).2 key = if op.key = key then op.value? else get? s key

theorem MemoryStore.carriesOut :
    (MemoryStore.attempt fun _ => none).CarriesOut fun s => s.content.get? :=
  ⟨fun _ _ => rfl, fun op s key => EnvMap.get?_apply s.content op key⟩

/-- Such a store is after some operations where they lead one after the other. -/
theorem Attempt.CarriesOut.attemptAll_eq (h : attempt.CarriesOut get?) (ops : List EnvOperation)
    (s : σ) : attemptAll attempt ops s = ([], ops.foldl (fun s op => (attempt op s).2) s) := by
  induction ops generalizing s with
  | nil => rfl
  | cons op ops ih => simp only [attemptAll, h.accepts, ih, List.foldl_cons]

/-- Operations that say what a map has make a store agree with it on their keys, in any order. -/
theorem Attempt.CarriesOut.get?_attemptAll (h : attempt.CarriesOut get?) {ops : List EnvOperation}
    (hv : ∀ op ∈ ops, op.value? = new.get? op.key) (s : σ) (key : String) :
    get? (attemptAll attempt ops s).2 key =
      if key ∈ ops.map (·.key) then new.get? key else get? s key := by
  rw [h.attemptAll_eq]
  exact EnvMap.lookup_foldl (fun s op => h.get?_eq op s) hv s key

end Store

namespace EnvMap

variable {old new : EnvMap} {key : String}

/-! ## The lists of a diff -/

theorem isEmpty_iff_forall_not_touches {d : EnvDiff} :
    d.isEmpty = true ↔ ∀ key, ¬ d.Touches key := by
  simp only [EnvDiff.isEmpty, Bool.and_eq_true, List.isEmpty_iff, List.eq_nil_iff_forall_not_mem,
    EnvDiff.Touches, not_or, forall_and, and_assoc]

theorem isEmpty_diff_iff : (old.diff new).isEmpty = true ↔ old = new := by
  rw [isEmpty_iff_forall_not_touches]
  simp only [touches_diff_iff, Ne, not_not]
  exact ⟨ext_get?, fun h key => h ▸ rfl⟩

/-! ## The operations of a diff -/

theorem value?_upsert_ne_none {op : EnvOperation} {keys : List String}
    (h : op ∈ keys.filterMap fun key => (new.get? key).map (.upsert key)) : op.value? ≠ none := by
  obtain ⟨key, -, hk⟩ := List.mem_filterMap.mp h
  obtain ⟨w, -, rfl⟩ := Option.map_eq_some_iff.mp hk
  exact Option.some_ne_none w

/-- After the first deletion there are only deletions. -/
theorem pairwise_operations (old new : EnvMap) : ((old.diff new).operations new).Pairwise
    fun a b => a.value? = none → b.value? = none := by
  rw [EnvDiff.operations, List.pairwise_append]
  refine ⟨List.pairwise_of_forall_mem_list fun a ha b _ hn => ?_, ?_, fun a ha b _ hn => ?_⟩
  · exact absurd hn (value?_upsert_ne_none ha)
  · exact List.pairwise_map.mpr (List.pairwise_of_forall fun _ _ _ => rfl)
  · exact absurd hn (value?_upsert_ne_none ha)

theorem count_map_key_operations (old new : EnvMap) (key : String) :
    (((old.diff new).operations new).map (·.key)).count key =
      if old.get? key = new.get? key then 0 else 1 := by
  rw [(nodup_map_key_operations old new).count]
  simp only [mem_map_key_operations_iff, ite_not]

theorem attemptAll_of_perm {σ : Type} {attempt : Attempt σ} {get? : σ → String → Option String}
    (h : attempt.CarriesOut get?) {ops : List EnvOperation}
    (hp : ops.Perm ((old.diff new).operations new)) (s : σ) :
    (attemptAll attempt ops s).1 = [] ∧ ∀ key, get? (attemptAll attempt ops s).2 key =
      if old.get? key = new.get? key then get? s key else new.get? key := by
  have hv : ∀ op ∈ ops, op.value? = new.get? op.key :=
    fun op hop => value?_of_mem_operations (hp.mem_iff.mp hop)
  have hk (key : String) : key ∈ ops.map (·.key) ↔ old.get? key ≠ new.get? key :=
    (hp.map _).mem_iff.trans mem_map_key_operations_iff
  refine ⟨by rw [h.attemptAll_eq], fun key => ?_⟩
  simpa only [hk, ite_not] using h.get?_attemptAll hv s key

/-! ## What a diff is -/

/-- What a diff is to the maps that it leads between. -/
structure Leads (old new : EnvMap) (d : EnvDiff) : Prop where
  increasing : d.added.Pairwise (· < ·) ∧ d.deleted.Pairwise (· < ·) ∧ d.updated.Pairwise (· < ·)
  disjoint : d.added.Disjoint d.deleted ∧ d.added.Disjoint d.updated ∧ d.deleted.Disjoint d.updated
  mem_added : ∀ key, key ∈ d.added ↔ old.get? key = none ∧ ∃ w, new.get? key = some w
  mem_deleted : ∀ key, key ∈ d.deleted ↔ (∃ v, old.get? key = some v) ∧ new.get? key = none
  mem_updated : ∀ key, key ∈ d.updated ↔
    ∃ v w, old.get? key = some v ∧ new.get? key = some w ∧ v ≠ w
  touches : ∀ key, d.Touches key ↔ old.get? key ≠ new.get? key
  /-- One operation for each key on which the maps disagree. -/
  count_operations : ∀ key, ((d.operations new).map (·.key)).count key =
    if old.get? key = new.get? key then 0 else 1
  /-- An operation leaves under its key what the new map has. -/
  value_operations : ∀ op ∈ d.operations new, op.value? = new.get? op.key
  /-- Upserts come before deletions. -/
  pairwise_operations : (d.operations new).Pairwise fun a b => a.value? = none → b.value? = none
  /-- A store that carries them out, in whatever order, has the new values on the keys on which the
  maps disagree, and keeps its own on all others. -/
  settles : ∀ ops : List EnvOperation, ops.Perm (d.operations new) →
    ∀ {σ : Type} {attempt : Attempt σ} {get? : σ → String → Option String},
      attempt.CarriesOut get? → ∀ s, (attemptAll attempt ops s).1 = [] ∧
        ∀ key, get? (attemptAll attempt ops s).2 key =
          if old.get? key = new.get? key then get? s key else new.get? key
  /-- Carried out on the old map, in whatever order, they lead to the new one. -/
  arrives : ∀ ops : List EnvOperation, ops.Perm (d.operations new) → ∀ calls,
    (attemptAll (MemoryStore.attempt fun _ => none) ops ⟨old, calls⟩).2.content = new
  isEmpty_iff : d.isEmpty = true ↔ old = new

/-- The diff between two maps names the keys on which they disagree, and its operations lead from
one to the other in any order. -/
theorem leads_diff (old new : EnvMap) : Leads old new (old.diff new) where
  increasing := ⟨increasing_added old new, increasing_deleted old new, increasing_updated old new⟩
  disjoint := disjoint_diff old new
  mem_added _ := mem_added_iff
  mem_deleted _ := mem_deleted_iff
  mem_updated _ := mem_updated_iff
  touches _ := touches_diff_iff
  count_operations := count_map_key_operations old new
  value_operations _ := value?_of_mem_operations
  pairwise_operations := pairwise_operations old new
  settles _ hp _ _ _ h := attemptAll_of_perm h hp
  arrives ops hp calls := by
    have hs := (attemptAll_of_perm MemoryStore.carriesOut hp ⟨old, calls⟩).2
    refine ext_get? fun key => (hs key).trans ?_
    split
    · assumption
    · rfl
  isEmpty_iff := isEmpty_diff_iff

end EnvMap

end DeploymentConfig
