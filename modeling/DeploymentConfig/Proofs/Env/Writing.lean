import DeploymentConfig.Env.Store
import DeploymentConfig.Proofs.Env.Diff

/-!
# Writing to a store that refuses keys

Attempting operations on a store in memory carries out those on keys that it
does not refuse, and reports the others (`attemptAll_memoryStore`). So a diff is
written in part (`Written`): the store has the new values but under the refused
keys (`get?_carryOut_operations`), and what is left to do is the part of the diff
on these (`written_writeDiff`).
-/

namespace DeploymentConfig

variable {refuses : String → Option Refusal}

/-- Whether a store refuses a key. -/
def isRefused (refuses : String → Option Refusal) (key : String) : Bool :=
  (refuses key).isSome

/-- What is reported of operations, in their order. -/
def refusals (refuses : String → Option Refusal) (ops : List EnvOperation) : List KeyFailure :=
  ops.filterMap fun op => (refuses op.key).map fun refusal => ⟨op.key, refusal.text⟩

/-- A map after those of some operations that are not refused. -/
def carryOut (refuses : String → Option Refusal) (m : EnvMap) (ops : List EnvOperation) : EnvMap :=
  (ops.filter fun op => !isRefused refuses op.key).foldl EnvMap.apply m

theorem isRefused_eq_false_iff {key : String} :
    isRefused refuses key = false ↔ refuses key = none := by
  rw [isRefused, Option.isSome_eq_false_iff, Option.isNone_iff_eq_none]

/-! ## Attempts -/

theorem attemptAll_memoryStore (ops : List EnvOperation) (s : MemoryStore) :
    attemptAll (MemoryStore.attempt refuses) ops s =
      (refusals refuses ops, ⟨carryOut refuses s.content ops, s.calls ++ ops⟩) := by
  induction ops generalizing s with
  | nil => simp [attemptAll, refusals, carryOut]
  | cons op ops ih =>
    cases h : refuses op.key with
    | none => simp [attemptAll, MemoryStore.attempt, refusals, carryOut, isRefused, h, ih]
    | some refusal => simp [attemptAll, MemoryStore.attempt, refusals, carryOut, isRefused, h, ih]

theorem map_key_refusals (ops : List EnvOperation) :
    (refusals refuses ops).map (·.key) = (ops.map (·.key)).filter (isRefused refuses) := by
  induction ops with
  | nil => rfl
  | cons op ops ih =>
    cases h : refuses op.key with
    | none => simpa [refusals, isRefused, h] using ih
    | some refusal => simpa [refusals, isRefused, h] using ih

theorem refusals_eq_nil_iff {ops : List EnvOperation} :
    refusals refuses ops = [] ↔ ∀ op ∈ ops, refuses op.key = none := by
  simp [refusals]

/-- A store that held the old values has the new ones but under the refused keys. -/
theorem get?_carryOut_operations (old new : EnvMap) (key : String) :
    (carryOut refuses old ((old.diff new).operations new)).get? key =
      if refuses key = none then new.get? key else old.get? key := by
  have hv : ∀ op ∈ ((old.diff new).operations new).filter fun op => !isRefused refuses op.key,
      op.value? = new.get? op.key :=
    fun op hop => EnvMap.value?_of_mem_operations (List.mem_filter.mp hop).1
  have hk : key ∈ (((old.diff new).operations new).filter
      fun op => !isRefused refuses op.key).map (·.key) ↔
        old.get? key ≠ new.get? key ∧ refuses key = none := by
    rw [← EnvMap.mem_map_key_operations_iff, List.mem_map, List.mem_map]
    simp only [List.mem_filter, Bool.not_eq_true', isRefused_eq_false_iff]
    constructor
    · rintro ⟨op, ⟨hop, hr⟩, rfl⟩
      exact ⟨⟨op, hop, rfl⟩, hr⟩
    · rintro ⟨⟨op, hop, rfl⟩, hr⟩
      exact ⟨op, ⟨hop, hr⟩, rfl⟩
  rw [carryOut, EnvMap.get?_foldl_apply hv]
  simp only [hk]
  by_cases hr : refuses key = none
  -- A key that has no operation has the same value in both maps.
  · by_cases he : old.get? key = new.get? key <;> simp [hr, he]
  · simp [hr]

/-! ## Diffs -/

/-- What has become of the diff from `old` to `new`, written to a store that held `old`, had been
called with `calls`, and refuses some keys. -/
structure Written (refuses : String → Option Refusal) (old new : EnvMap)
    (calls : List EnvOperation) (outcome : Except Fault EnvDiff × MemoryStore) : Prop where
  /-- Every operation has been attempted once, in order. -/
  calls_eq : outcome.2.calls = calls ++ (old.diff new).operations new
  eq_ok_iff : outcome.1 = .ok (old.diff new) ↔
    ∀ op ∈ (old.diff new).operations new, refuses op.key = none
  /-- The refused keys are reported in the order of their operations, each of them once. -/
  eq_error : (∃ op ∈ (old.diff new).operations new, refuses op.key ≠ none) →
    ∃ failures, outcome.1 = .error (.partialFailure failures) ∧
      failures.map (·.key) =
        (((old.diff new).operations new).map (·.key)).filter (isRefused refuses) ∧
      (failures.map (·.key)).Nodup
  content : ∀ key, outcome.2.content.get? key =
    if refuses key = none then new.get? key else old.get? key
  diff_eq : outcome.2.content.diff new = (old.diff new).restrict (isRefused refuses)
  /-- A new attempt repeats the operations that were refused. -/
  operations_eq : (outcome.2.content.diff new).operations new =
    ((old.diff new).operations new).filter fun op => isRefused refuses op.key

theorem diff_carryOut_operations (old new : EnvMap) :
    (carryOut refuses old ((old.diff new).operations new)).diff new =
      (old.diff new).restrict (isRefused refuses) := by
  refine EnvMap.diff_eq_restrict (fun key hk => ?_) fun key hk => ?_
  · rw [get?_carryOut_operations, if_neg (Option.isSome_iff_ne_none.mp hk)]
  · rw [get?_carryOut_operations, if_pos (isRefused_eq_false_iff.mp hk)]

theorem operations_diff_carryOut (old new : EnvMap) :
    ((carryOut refuses old ((old.diff new).operations new)).diff new).operations new =
      ((old.diff new).operations new).filter fun op => isRefused refuses op.key := by
  rw [diff_carryOut_operations, EnvMap.operations_restrict]

/-- Writing to a store that holds the old values does all of the diff but what concerns the refused
keys, and reports exactly these. -/
theorem written_writeDiff (refuses : String → Option Refusal) (old new : List EnvVar)
    (calls : List EnvOperation) :
    Written refuses (.ofVars old) (.ofVars new) calls
      (writeDiff (MemoryStore.attempt refuses) old new ⟨.ofVars old, calls⟩) := by
  generalize hops : (EnvDiff.ofVars old new).operations (.ofVars new) = ops
  have hw : writeDiff (MemoryStore.attempt refuses) old new ⟨.ofVars old, calls⟩ =
      (if refusals refuses ops = [] then .ok (EnvDiff.ofVars old new)
        else .error (.partialFailure (refusals refuses ops)),
        ⟨carryOut refuses (.ofVars old) ops, calls ++ ops⟩) := by
    simp only [writeDiff, hops, attemptAll_memoryStore, List.isEmpty_iff]
    split <;> rfl
  rw [hw]
  subst hops
  refine ⟨rfl, ?_, fun ⟨op, hop, hr⟩ => ?_, get?_carryOut_operations _ _,
    diff_carryOut_operations _ _, operations_diff_carryOut _ _⟩
  · change ite _ _ _ = _ ↔ _
    rw [← refusals_eq_nil_iff]
    split
    · exact iff_of_true rfl ‹_›
    · exact iff_of_false nofun ‹_›
  · have hn : refusals refuses ((EnvDiff.ofVars old new).operations (.ofVars new)) ≠ [] :=
      fun h => hr (refusals_eq_nil_iff.mp h op hop)
    refine ⟨_, if_neg hn, map_key_refusals _, ?_⟩
    rw [map_key_refusals]
    exact (EnvMap.nodup_map_key_operations _ _).filter _

end DeploymentConfig
