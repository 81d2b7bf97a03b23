import DeploymentConfig.Env.Rows
import DeploymentConfig.Proofs.Env.System

/-!
# Rows that are submitted

The check passes the rows that are sound once the place for a new variable is
left out (`EnvRows.issues_eq_nil_iff`): every row of the user's has a key, and no
key stands in two rows (`EnvRows.Sound`). Sound rows lose nothing on the way into
a map, whose entries are the user's rows in another order (`Sound.perm_entries`).

* `EnvRows.faithful_of_prepare`: what is submitted of rows that pass has the same
  map as these, row for entry, and passes again as it is.
-/

namespace DeploymentConfig

variable {rows out : List EnvVar} {v : EnvVar}

namespace EnvVar

theorem isUntouched_iff : v.isUntouched = true ↔ v.system = false ∧ v.key = "" ∧ v.value = "" := by
  simp [isUntouched, and_assoc]

theorem key_ne_of_isKey {key : String} (h : isKey key = true) : key ≠ "" := by
  rintro rfl
  cases h

theorem isOwn_iff : v.isOwn = true ↔ v.system = false ∧ v.key ≠ "" := by
  simp [isOwn]

end EnvVar

/-! ## Maps of entries without repetition -/

theorem EnvMap.mem_entries_ofList_iff {entries : List (String × String)} {e : String × String}
    (h : (entries.map (·.1)).Nodup) : e ∈ (ofList entries).entries ↔ e ∈ entries := by
  have hr : (entries.reverse.map (·.1)).Nodup := by
    rw [List.map_reverse]
    exact List.nodup_reverse.mpr h
  rw [← get?_eq_some_iff, get?_ofList, find?_key_eq_some_iff hr, List.mem_reverse]

theorem EnvMap.perm_entries_ofList {entries : List (String × String)}
    (h : (entries.map (·.1)).Nodup) : (ofList entries).entries.Perm entries := by
  have hm : (ofList entries).entries.Nodup :=
    .of_map _ (nodup_of_increasing (increasing_keys (ofList entries)))
  exact (List.perm_ext_iff_of_nodup hm (.of_map _ h)).mpr fun _ => mem_entries_ofList_iff h

namespace EnvRows

/-! ## The place for a new variable -/

/-- The rows without the last one, if nothing is in it. -/
def withoutPlaceholder (rows : List EnvVar) : List EnvVar :=
  if rows.getLast?.any (·.isUntouched) then rows.dropLast else rows

theorem submitted_concat (rows : List EnvVar) (v : EnvVar) :
    submitted (rows ++ [v]) = if v.isUntouched then rows else rows ++ [v] := by
  have hrows :
      rows.zipIdx.filter (fun x => !isPlaceholder (rows ++ [v]) x.2 x.1) = rows.zipIdx := by
    refine List.filter_eq_self.mpr fun x hx => ?_
    have hi : x.2 < rows.length := (List.mem_zipIdx' hx).1
    simp [isPlaceholder, Nat.ne_of_lt hi]
  rw [submitted, List.zipIdx_append, List.filter_append, hrows, List.map_append,
    List.zipIdx_map_fst]
  by_cases hv : v.isUntouched <;> simp [isPlaceholder, hv]

theorem submitted_eq (rows : List EnvVar) : submitted rows = withoutPlaceholder rows := by
  induction rows using List.reverseRecOn with
  | nil => rfl
  | append_singleton rows v => simp [submitted_concat, withoutPlaceholder]

/-- What the place for a new variable is not among is found in the rows that are submitted. -/
theorem filter_submitted {p : EnvVar → Bool} (hp : ∀ v, v.isUntouched = true → p v = false)
    (rows : List EnvVar) : (submitted rows).filter p = rows.filter p := by
  induction rows using List.reverseRecOn with
  | nil => rfl
  | append_singleton rows v =>
    rw [submitted_concat]
    split
    · rename_i hv
      rw [List.filter_append, List.filter_singleton, hp v hv]
      simp
    · rfl

theorem ofVars_submitted (rows : List EnvVar) :
    EnvMap.ofVars (submitted rows) = EnvMap.ofVars rows := by
  have hp : ∀ v : EnvVar, v.isUntouched = true → v.isOwn = false := by
    intro v hv
    simp [EnvVar.isOwn, (EnvVar.isUntouched_iff.mp hv).2.1]
  rw [EnvMap.ofVars, EnvMap.ofVars, filter_submitted hp]

/-! ## Keys -/

/-- The keys of the rows that have one. -/
def keys (rows : List EnvVar) : List String :=
  (rows.filter (·.key ≠ "")).map (·.key)

theorem keys_submitted (rows : List EnvVar) : keys (submitted rows) = keys rows := by
  have hp : ∀ v : EnvVar, v.isUntouched = true → decide (v.key ≠ "") = false := by
    intro v hv
    simp [(EnvVar.isUntouched_iff.mp hv).2.1]
  rw [keys, keys, filter_submitted hp]

theorem count_keys (rows : List EnvVar) (key : String) :
    (keys rows).count key = if key = "" then 0 else (rows.filter (·.key = key)).length := by
  rw [keys, List.count_eq_countP, List.countP_map, List.countP_filter,
    ← List.countP_eq_length_filter]
  split
  · rename_i hk
    subst hk
    simp
  · rename_i hk
    refine List.countP_congr fun v _ => ?_
    simp only [Function.comp_apply, Bool.and_eq_true, beq_iff_eq, decide_eq_true_eq]
    exact and_iff_left_of_imp fun h => h ▸ hk

theorem isRepeated_eq_false_iff {key : String} :
    isRepeated rows key = false ↔ (keys rows).count key ≤ 1 := by
  rw [count_keys]
  by_cases hk : key = "" <;> simp [isRepeated, hk]

theorem nodup_keys_iff : (keys rows).Nodup ↔ ∀ v ∈ rows, isRepeated rows v.key = false := by
  simp only [isRepeated_eq_false_iff, List.nodup_iff_count_le_one]
  refine ⟨fun h v _ => h v.key, fun h key => ?_⟩
  by_cases hm : key ∈ keys rows
  · obtain ⟨v, hv, rfl⟩ := List.mem_map.mp hm
    exact h v (List.mem_filter.mp hv).1
  · rw [List.count_eq_zero.mpr hm]
    exact Nat.zero_le 1

/-- Whether every row of the user's has a key, and no key stands in two rows. -/
structure Sound (rows : List EnvVar) : Prop where
  isKey : ∀ v ∈ rows, v.system = false → EnvVar.isKey v.key = true
  nodup : (keys rows).Nodup

/-! ## What passes -/

theorem keyIssues_eq_nil_iff {index : Nat} :
    keyIssues v index = [] ↔ EnvVar.isKey v.key = true := by
  rw [keyIssues]
  split
  · rename_i hk
    simp [hk, EnvVar.isKey]
  · split <;> simp_all

theorem repetitionIssues_eq_nil_iff : repetitionIssues rows = [] ↔ (keys rows).Nodup := by
  rw [nodup_keys_iff, repetitionIssues, List.map_eq_nil_iff, List.filter_eq_nil_iff]
  simp only [Bool.not_eq_true]
  rw [← List.forall_mem_map (f := Prod.fst) (P := fun v : EnvVar => isRepeated rows v.key = false),
    List.zipIdx_map_fst]

theorem issues_eq_nil_iff : issues rows = [] ↔ Sound (submitted rows) := by
  have hkeys : (∀ x ∈ rows.zipIdx, (if x.1.system || isPlaceholder rows x.2 x.1 then []
      else keyIssues x.1 x.2) = []) ↔
        ∀ v ∈ submitted rows, v.system = false → EnvVar.isKey v.key = true := by
    rw [submitted, List.forall_mem_map]
    simp only [List.mem_filter, and_imp]
    refine forall₂_congr fun x _ => ?_
    cases hs : x.1.system <;> cases hp : isPlaceholder rows x.2 x.1 <;>
      simp [keyIssues_eq_nil_iff]
  rw [issues, List.append_eq_nil_iff, List.flatMap_eq_nil_iff, hkeys, repetitionIssues_eq_nil_iff,
    ← keys_submitted]
  exact ⟨fun h => ⟨h.1, h.2⟩, fun h => ⟨h.isKey, h.nodup⟩⟩

theorem prepare_eq_ok_iff : prepare rows = .ok out ↔ Sound out ∧ submitted rows = out := by
  have hp : prepare rows = .ok out ↔ check rows = .ok () ∧ submitted rows = out := by
    rw [prepare]
    cases check rows <;> simp [Except.map]
  rw [hp, check, Report.verdict_eq_ok_iff, issues_eq_nil_iff]
  exact ⟨fun ⟨h, he⟩ => ⟨he ▸ h, he⟩, fun ⟨h, he⟩ => ⟨he ▸ h, he⟩⟩

/-! ## Sound rows and their map -/

namespace Sound

theorem filter_isOwn (h : Sound rows) : rows.filter (·.isOwn) = rows.filter (!·.system) := by
  refine List.filter_congr fun v hv => ?_
  cases hs : v.system with
  | true => simp [EnvVar.isOwn, hs]
  | false => simp [EnvVar.isOwn, hs, EnvVar.key_ne_of_isKey (h.isKey v hv hs)]

/-- Rows with the same key are the same row. -/
theorem eq_of_key_eq (h : Sound rows) {u : EnvVar} (hu : u ∈ rows) (hv : v ∈ rows)
    (hk : u.key = v.key) (hn : v.key ≠ "") : u = v := by
  have hkey {a : EnvVar} (ha : a ∈ rows) (hn : a.key ≠ "") : a ∈ rows.filter (·.key ≠ "") :=
    List.mem_filter.mpr ⟨ha, by simpa using hn⟩
  exact List.inj_on_of_nodup_map h.nodup (hkey hu (hk ▸ hn)) (hkey hv hn) hk

theorem nodup_own (h : Sound rows) :
    (((rows.filter (·.isOwn)).map fun v => (v.key, v.value)).map (·.1)).Nodup := by
  have hf : rows.filter (·.isOwn) = (rows.filter (·.key ≠ "")).filter (!·.system) := by
    rw [List.filter_filter]
    exact List.filter_congr fun v _ => by simp [EnvVar.isOwn]
  rw [List.map_map, hf]
  exact h.nodup.sublist (List.filter_sublist.map _)

/-- The entries of the map are the user's rows. -/
theorem perm_entries (h : Sound rows) : (EnvMap.ofVars rows).entries.Perm
    ((rows.filter (!·.system)).map fun v => (v.key, v.value)) := by
  rw [← h.filter_isOwn]
  exact EnvMap.perm_entries_ofList h.nodup_own

theorem get?_key (h : Sound rows) (hv : v ∈ rows) (hs : v.system = false) :
    (EnvMap.ofVars rows).get? v.key = some v.value := by
  rw [EnvMap.get?_eq_some_iff, h.perm_entries.mem_iff]
  exact List.mem_map.mpr ⟨v, List.mem_filter.mpr ⟨hv, by rw [hs]; rfl⟩, rfl⟩

theorem notMem_keys (h : Sound rows) (hv : v ∈ rows) (hs : v.system = true) :
    v.key ∉ (EnvMap.ofVars rows).keys := by
  rw [EnvMap.mem_keys_iff, EnvMap.get?_ofVars, Option.not_isSome_iff_eq_none, ownValue?_eq_none_iff]
  intro u hu ho hk
  obtain ⟨hus, hun⟩ := EnvVar.isOwn_iff.mp ho
  rw [h.eq_of_key_eq hu hv hk (hk ▸ hun), hs] at hus
  cases hus

/-- No sound row is the place for a new variable. -/
theorem submitted_eq_self (h : Sound rows) : submitted rows = rows := by
  rw [submitted_eq, withoutPlaceholder, if_neg]
  rw [Option.any_eq_true]
  rintro ⟨v, hv, hu⟩
  obtain ⟨hs, hk, -⟩ := EnvVar.isUntouched_iff.mp hu
  exact EnvVar.key_ne_of_isKey (h.isKey v (List.mem_of_getLast? hv) hs) hk

end Sound

/-- How rows that are submitted stand to those that were filled in, and to the map of both. -/
structure Faithful (rows out : List EnvVar) : Prop where
  out_eq : out = withoutPlaceholder rows
  ofVars_eq : EnvMap.ofVars out = EnvMap.ofVars rows
  /-- The entries are the user's rows, each of them once. -/
  perm_entries : (EnvMap.ofVars out).entries.Perm
    ((out.filter (!·.system)).map fun v => (v.key, v.value))
  get?_key : ∀ v ∈ out, v.system = false → (EnvMap.ofVars out).get? v.key = some v.value
  length_entries : (EnvMap.ofVars out).entries.length = (out.filter (!·.system)).length
  notMem_keys : ∀ v ∈ out, v.system = true → v.key ∉ (EnvMap.ofVars out).keys
  prepare_eq : prepare out = .ok out

/-- Rows that pass are submitted without the place for a new variable, and become the entries of
their map without loss; what is submitted passes again, and nothing more is left out. -/
theorem faithful_of_prepare (h : prepare rows = .ok out) : Faithful rows out := by
  obtain ⟨hs, rfl⟩ := prepare_eq_ok_iff.mp h
  refine ⟨submitted_eq rows, ofVars_submitted rows, hs.perm_entries, fun v => hs.get?_key, ?_,
    fun v => hs.notMem_keys, prepare_eq_ok_iff.mpr ⟨hs, hs.submitted_eq_self⟩⟩
  rw [hs.perm_entries.length_eq, List.length_map]

/-- A variable of the platform, one of the user's and the place for a new one. -/
theorem faithful_of_prepare_threeRows :
    prepare [⟨"NS_APP_ID", "abc", true⟩, ⟨"LEVEL", "info", false⟩, ⟨"", "", false⟩] =
        .ok [⟨"NS_APP_ID", "abc", true⟩, ⟨"LEVEL", "info", false⟩] ∧
      Faithful [⟨"NS_APP_ID", "abc", true⟩, ⟨"LEVEL", "info", false⟩, ⟨"", "", false⟩]
        [⟨"NS_APP_ID", "abc", true⟩, ⟨"LEVEL", "info", false⟩] := by
  have h : prepare [⟨"NS_APP_ID", "abc", true⟩, ⟨"LEVEL", "info", false⟩, ⟨"", "", false⟩] =
      .ok [⟨"NS_APP_ID", "abc", true⟩, ⟨"LEVEL", "info", false⟩] := by decide
  exact ⟨h, faithful_of_prepare h⟩

end EnvRows

end DeploymentConfig
