import DeploymentConfig.Env.Store
import DeploymentConfig.Proofs.Env.Diff
import Mathlib.Data.List.Induction

/-!
# Variables of the platform

A row that the platform injects is left out of the map, but its key is not kept
for it: the map has under a key what the last of the user's rows says
(`get?_ofVars`). So a diff has the keys on which the user's rows of both lists
disagree (`touches_ofVars_iff`), and a store is called for these
(`attemptAll_recorded`), among them the key of an injected variable if the user
has a row with it (`systemUntouched_iff`).
-/

namespace DeploymentConfig

/-- The value that the user's rows give to a key: the last one wins. -/
def ownValue? (vars : List EnvVar) (key : String) : Option String :=
  (vars.reverse.find? fun v => v.isOwn && v.key = key).map (·.value)

/-- Whether a diff changes anything under a key. -/
def EnvDiff.Touches (d : EnvDiff) (key : String) : Prop :=
  key ∈ d.added ∨ key ∈ d.deleted ∨ key ∈ d.updated

variable {vars old new : List EnvVar} {key : String}

/-! ## Lookups -/

theorem EnvMap.get?_ofList (entries : List (String × String)) (key : String) :
    (ofList entries).get? key = (entries.reverse.find? (·.1 = key)).map (·.2) := by
  induction entries using List.reverseRecOn with
  | nil => rfl
  | append_singleton entries e ih =>
    have hl : ofList (entries ++ [e]) = (ofList entries).insert e.1 e.2 := by
      rw [ofList, List.foldl_append]
      rfl
    rw [hl, get?_insert, ih, List.reverse_append, List.reverse_singleton, List.singleton_append,
      List.find?_cons]
    by_cases hk : e.1 = key <;> simp [hk]

theorem EnvMap.get?_ofVars (vars : List EnvVar) (key : String) :
    (ofVars vars).get? key = ownValue? vars key := by
  rw [ofVars, get?_ofList, ownValue?, ← List.map_reverse, ← List.filter_reverse, List.find?_map,
    Option.map_map, List.find?_filter]
  simp only [Function.comp_def, Bool.decide_and, Bool.decide_eq_true]

theorem ownValue?_eq_none_iff :
    ownValue? vars key = none ↔ ∀ v ∈ vars, v.isOwn = true → v.key ≠ key := by
  simp [ownValue?]

theorem EnvMap.touches_diff_iff {old new : EnvMap} :
    (old.diff new).Touches key ↔ old.get? key ≠ new.get? key := by
  rw [EnvDiff.Touches, EnvMap.mem_added_iff, EnvMap.mem_deleted_iff, EnvMap.mem_updated_iff]
  cases old.get? key <;> cases new.get? key <;> simp

/-- A diff has the keys to which the user's rows give another value than before. -/
theorem touches_ofVars_iff :
    (EnvDiff.ofVars old new).Touches key ↔ ownValue? old key ≠ ownValue? new key := by
  rw [EnvDiff.ofVars, EnvMap.touches_diff_iff, EnvMap.get?_ofVars, EnvMap.get?_ofVars]

/-! ## Calls -/

section Calls

variable {σ : Type} {attempt : Attempt σ} {s : σ}

/-- A store that keeps a record of its calls. -/
def Attempt.recorded (attempt : Attempt σ) : Attempt (σ × List EnvOperation) :=
  fun op s => ((attempt op s.1).1, (attempt op s.1).2, s.2 ++ [op])

/-- The record changes nothing else. -/
theorem attemptAll_recorded (ops : List EnvOperation) (s : σ) (calls : List EnvOperation) :
    attemptAll attempt.recorded ops (s, calls) =
      ((attemptAll attempt ops s).1, (attemptAll attempt ops s).2, calls ++ ops) := by
  induction ops generalizing s calls with
  | nil => rw [List.append_nil]; rfl
  | cons op ops ih =>
    simp only [attemptAll, Attempt.recorded]
    cases (attempt op s).1 <;> simp [ih]

/-- What a store is called for when the diff between two lists of rows is written to it. -/
def callsOf (attempt : Attempt σ) (old new : List EnvVar) (s : σ) : List EnvOperation :=
  (writeDiff attempt.recorded old new (s, [])).2.2

theorem callsOf_eq (attempt : Attempt σ) (old new : List EnvVar) (s : σ) :
    callsOf attempt old new s = (EnvDiff.ofVars old new).operations (.ofVars new) := by
  simp only [callsOf, writeDiff, attemptAll_recorded, List.nil_append]
  split <;> rfl

/-- A store is called for the keys of the diff, and no others. -/
theorem mem_map_key_callsOf_iff :
    key ∈ (callsOf attempt old new s).map (·.key) ↔ (EnvDiff.ofVars old new).Touches key := by
  rw [callsOf_eq, EnvDiff.ofVars, EnvMap.mem_map_key_operations_iff, EnvMap.get?_ofVars,
    EnvMap.get?_ofVars, ← touches_ofVars_iff, EnvDiff.ofVars]

/-! ## Injected variables -/

/-- Whether nothing is done under the key of an injected variable, by the diff or at the store. -/
structure SystemUntouched (attempt : Attempt σ) (old new : List EnvVar) (s : σ) : Prop where
  diff : ∀ v ∈ old ++ new, v.system = true → ¬ (EnvDiff.ofVars old new).Touches v.key
  calls : ∀ v ∈ old ++ new, v.system = true → ∀ op ∈ callsOf attempt old new s, op.key ≠ v.key

theorem systemUntouched_of_forall
    (h : ∀ v ∈ old ++ new, v.system = true → ownValue? old v.key = ownValue? new v.key) :
    SystemUntouched attempt old new s := by
  have hd : ∀ v ∈ old ++ new, v.system = true → ¬ (EnvDiff.ofVars old new).Touches v.key :=
    fun v hv hs ht => touches_ofVars_iff.mp ht (h v hv hs)
  refine ⟨hd, fun v hv hs op hop he => hd v hv hs ?_⟩
  exact mem_map_key_callsOf_iff.mp (List.mem_map.mpr ⟨op, hop, he⟩)

/-- Nothing is done under the keys of injected variables exactly if the user's rows of both lists
give each of these keys the same value, or both of them none. -/
theorem systemUntouched_iff (attempt : Attempt σ) (old new : List EnvVar) (s : σ) :
    SystemUntouched attempt old new s ↔
      ∀ v ∈ old ++ new, v.system = true → ownValue? old v.key = ownValue? new v.key := by
  refine ⟨fun h v hv hs => ?_, systemUntouched_of_forall⟩
  by_contra hne
  exact h.diff v hv hs (touches_ofVars_iff.mpr hne)

end Calls

/-- A row of the user's with the key of an injected variable. -/
theorem upsert_of_system :
    callsOf (MemoryStore.attempt fun _ => none) [⟨"NS_APP_ID", "abc", true⟩]
        [⟨"NS_APP_ID", "mine", false⟩] ⟨.empty, []⟩ = [.upsert "NS_APP_ID" "mine"] ∧
      ¬ SystemUntouched (MemoryStore.attempt fun _ => none) [⟨"NS_APP_ID", "abc", true⟩]
        [⟨"NS_APP_ID", "mine", false⟩] ⟨.empty, []⟩ := by
  have hc : callsOf (MemoryStore.attempt fun _ => none) [⟨"NS_APP_ID", "abc", true⟩]
      [⟨"NS_APP_ID", "mine", false⟩] ⟨.empty, []⟩ = [.upsert "NS_APP_ID" "mine"] := rfl
  exact ⟨hc, fun h => h.calls _ List.mem_cons_self rfl _ (hc ▸ List.mem_cons_self) rfl⟩

end DeploymentConfig
