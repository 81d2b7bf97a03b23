import DeploymentConfig.Proofs.Env.Rows
import DeploymentConfig.Proofs.Text.Numerals
import Mathlib.Data.List.NodupEquivFin

/-!
# What is reported of rows

The check goes over the rows twice, for keys that are no identifiers
(`EnvVar.IsIdentifier`) and for keys that are repeated. Each time it finds at
most one issue of a row, so what it finds is told by the row (`found_inOrder`):
`KeyFault` and `KeyRepetition` say of which rows there is an issue, and which.

* `issues_exact`: the issues are these, the faults first, each by rising index.
-/

namespace DeploymentConfig

variable {rows : List EnvVar} {v : EnvVar} {index : Nat}

namespace EnvVar

/-- Whether a character is an ASCII letter or the underscore. -/
def IsLetter (c : Char) : Prop :=
  ('A' ≤ c ∧ c ≤ 'Z') ∨ ('a' ≤ c ∧ c ≤ 'z') ∨ c = '_'

/-- Whether a text holds ASCII letters, digits and underscores only, and does not begin with a
digit. -/
structure IsIdentifier (key : String) : Prop where
  head : ∃ c, key.toList.head? = some c ∧ IsLetter c
  chars : ∀ c ∈ key.toList, IsLetter c ∨ ('0' ≤ c ∧ c ≤ '9')

theorem isKeyStart_iff {c : Char} : isKeyStart c = true ↔ IsLetter c := by
  have hupper : c.isUpper = true ↔ 'A' ≤ c ∧ c ≤ 'Z' := decide_eq_true_iff
  have hlower : c.isLower = true ↔ 'a' ≤ c ∧ c ≤ 'z' := Text.between_iff 'a' 'z' c
  have halpha : c.isAlpha = (c.isUpper || c.isLower) := rfl
  rw [isKeyStart, halpha, Bool.or_eq_true, Bool.or_eq_true, hupper, hlower, decide_eq_true_eq,
    or_assoc]
  rfl

theorem isKey_iff {key : String} : isKey key = true ↔ IsIdentifier key := by
  rw [isKey]
  cases hk : key.toList with
  | nil => exact iff_of_false Bool.false_ne_true fun h => by simpa [hk] using h.head
  | cons c cs =>
    simp only [Bool.and_eq_true, List.all_eq_true, Bool.or_eq_true, isKeyStart_iff,
      Text.isDigit_iff]
    constructor
    · rintro ⟨hc, hcs⟩
      refine ⟨⟨c, by rw [hk, List.head?_cons], hc⟩, ?_⟩
      rw [hk]
      exact List.forall_mem_cons.mpr ⟨.inl hc, hcs⟩
    · rintro ⟨⟨c', hc', hl⟩, hcs⟩
      rw [hk, List.head?_cons, Option.some.injEq] at hc'
      rw [hk] at hcs
      exact ⟨hc' ▸ hl, (List.forall_mem_cons.mp hcs).2⟩

/-- All the characters lie between `0` and `z`. -/
theorem IsIdentifier.ascii {key : String} (h : IsIdentifier key) :
    ∀ c ∈ key.toList, c.toNat < 128 ∧ c ≠ '\n' := by
  intro c hc
  have hr : '0' ≤ c ∧ c ≤ 'z' := by
    rcases h.chars c hc with (⟨hl, hu⟩ | ⟨hl, hu⟩ | rfl) | ⟨hl, hu⟩
    · exact ⟨Char.le_trans (by decide : '0' ≤ 'A') hl, Char.le_trans hu (by decide : 'Z' ≤ 'z')⟩
    · exact ⟨Char.le_trans (by decide : '0' ≤ 'a') hl, hu⟩
    · decide
    · exact ⟨hl, Char.le_trans hu (by decide : '9' ≤ 'z')⟩
  refine ⟨Nat.lt_of_le_of_lt (m := 'z'.toNat) hr.2 (by decide), ?_⟩
  rintro rfl
  exact absurd hr.1 (by decide)

theorem keyPath_eq (index : Nat) : keyPath index = s!"envVars[{index}].key" := by
  rw [keyPath, itemPath, String.append_assoc]
  rfl

end EnvVar

namespace EnvRows

open EnvVar (keyPath keyPath_eq IsIdentifier)

/-! ## Rows that are reported -/

/-- Whether the user has to give a row a key: it is not a row of the platform's, and not a last row
in which nothing is written. -/
structure NeedsKey (rows : List EnvVar) (index : Nat) (v : EnvVar) : Prop where
  own : v.system = false
  written : ¬ (index + 1 = rows.length ∧ v.key = "" ∧ v.value = "")

/-- The issue of a row that needs a key and has none, or one that is not an identifier. -/
inductive KeyFault (rows : List EnvVar) : Nat → Issue → Prop
  | missing {index : Nat} {v : EnvVar} : rows[index]? = some v → NeedsKey rows index v →
      v.key = "" →
      KeyFault rows index ⟨s!"envVars[{index}].key", .missingRequired, "Key is required"⟩
  | malformed {index : Nat} {v : EnvVar} : rows[index]? = some v → NeedsKey rows index v →
      v.key ≠ "" → ¬ IsIdentifier v.key → KeyFault rows index
        ⟨s!"envVars[{index}].key", .invalidFormat,
          "Key must contain only letters, digits and underscores, and not start with a digit"⟩

/-- The issue of a row whose key stands in another row as well, whosever the rows are. -/
inductive KeyRepetition (rows : List EnvVar) : Nat → Issue → Prop
  | repeated {index other : Nat} {v u : EnvVar} : rows[index]? = some v → v.key ≠ "" →
      rows[other]? = some u → other ≠ index → u.key = v.key → KeyRepetition rows index
        ⟨s!"envVars[{index}].key", .duplicateKey, "Duplicate key " ++ v.key⟩

/-- Whether issues, each with the index of its row, are those of a kind, by rising index. -/
structure InOrder (P : Nat → Issue → Prop) (issues : List (Nat × Issue)) : Prop where
  increasing : (issues.map (·.1)).Pairwise (· < ·)
  mem_iff : ∀ index x, (index, x) ∈ issues ↔ P index x

/-! ## One pass -/

/-- What is found row by row, with the index of the row. -/
def found (issue? : EnvVar → Nat → Option Issue) (rows : List EnvVar) : List (Nat × Issue) :=
  rows.zipIdx.filterMap fun (v, index) => (issue? v index).map (index, ·)

theorem map_snd_found (issue? : EnvVar → Nat → Option Issue) (rows : List EnvVar) :
    (found issue? rows).map (·.2) = rows.zipIdx.filterMap fun (v, index) => issue? v index := by
  rw [found, List.map_filterMap]
  refine List.filterMap_congr fun x _ => ?_
  rw [Option.map_map]
  exact Option.map_id_apply

theorem found_inOrder (issue? : EnvVar → Nat → Option Issue) (rows : List EnvVar) :
    InOrder (fun index x => ∃ v, rows[index]? = some v ∧ issue? v index = some x)
      (found issue? rows) where
  increasing := by
    have hlt : rows.zipIdx.Pairwise fun a b => a.2 < b.2 := by
      rw [← List.pairwise_map (f := Prod.snd) (R := (· < ·)), List.zipIdx_map_snd]
      exact List.pairwise_lt_range'
    rw [found, List.pairwise_map, List.pairwise_filterMap]
    refine hlt.imp fun {a b} hab x hx y hy => ?_
    simp only [Option.map_eq_some_iff] at hx hy
    obtain ⟨-, -, rfl⟩ := hx
    obtain ⟨-, -, rfl⟩ := hy
    exact hab
  mem_iff index x := by
    rw [found, List.mem_filterMap]
    simp only [Option.map_eq_some_iff, Prod.mk.injEq]
    constructor
    · rintro ⟨⟨v, i⟩, hv, y, hy, rfl, rfl⟩
      exact ⟨v, List.mk_mem_zipIdx_iff_getElem?.mp hv, hy⟩
    · rintro ⟨v, hv, hx⟩
      exact ⟨(v, index), List.mk_mem_zipIdx_iff_getElem?.mpr hv, x, hx, rfl, rfl⟩

theorem InOrder.congr {P Q : Nat → Issue → Prop} {found : List (Nat × Issue)} (h : InOrder P found)
    (hpq : ∀ index x, P index x ↔ Q index x) : InOrder Q found :=
  ⟨h.increasing, fun index x => (h.mem_iff index x).trans (hpq index x)⟩

/-! ## Keys that are no identifiers -/

/-- The issue of the key of a row, if it needs one. -/
def keyFault? (rows : List EnvVar) (v : EnvVar) (index : Nat) : Option Issue :=
  if v.system || isPlaceholder rows index v then none else (keyIssues v index).head?

theorem keyFaults_eq (rows : List EnvVar) : (rows.zipIdx.flatMap fun (v, index) =>
    if v.system || isPlaceholder rows index v then [] else keyIssues v index) =
      (found (keyFault? rows) rows).map (·.2) := by
  have hone (v : EnvVar) (index : Nat) :
      keyIssues v index = (keyIssues v index).head?.toList := by
    rw [keyIssues]
    split
    · rfl
    · split <;> rfl
  rw [map_snd_found, List.filterMap_eq_flatMap_toList]
  refine List.flatMap_congr fun x _ => ?_
  simp only [keyFault?]
  split
  · rfl
  · exact hone x.1 x.2

theorem needsKey_iff :
    NeedsKey rows index v ↔ ¬ (v.system || isPlaceholder rows index v) = true := by
  rw [isPlaceholder, Bool.or_eq_true, Bool.and_eq_true, decide_eq_true_eq, EnvVar.isUntouched_iff]
  constructor
  · rintro ⟨hs, hw⟩ (h | ⟨hi, -, hk, hv⟩)
    · exact Bool.false_ne_true (hs.symm.trans h)
    · exact hw ⟨hi, hk, hv⟩
  · intro h
    have hs : v.system = false := Bool.eq_false_iff.mpr fun hs => h (.inl hs)
    refine ⟨hs, ?_⟩
    rintro ⟨hi, hk, hv⟩
    exact h (.inr ⟨hi, hs, hk, hv⟩)

theorem keyFault?_eq_some_iff {x : Issue} : (∃ v, rows[index]? = some v ∧
    keyFault? rows v index = some x) ↔ KeyFault rows index x := by
  constructor
  · rintro ⟨v, hv, hx⟩
    rw [keyFault?, Option.ite_none_left_eq_some, ← needsKey_iff, keyIssues, keyPath_eq] at hx
    obtain ⟨hn, hx⟩ := hx
    split at hx
    · rename_i hk
      cases hx
      exact .missing hv hn hk
    · rename_i hk
      split at hx
      · cases hx
      · rename_i hi
        cases hx
        exact .malformed hv hn hk (mt EnvVar.isKey_iff.mpr hi)
  · rintro (⟨hv, hn, hk⟩ | ⟨hv, hn, hk, hi⟩)
    · refine ⟨_, hv, ?_⟩
      rw [keyFault?, if_neg (needsKey_iff.mp hn), keyIssues, if_pos hk, keyPath_eq]
      rfl
    · refine ⟨_, hv, ?_⟩
      rw [keyFault?, if_neg (needsKey_iff.mp hn), keyIssues, if_neg hk,
        if_neg (mt EnvVar.isKey_iff.mp hi), keyPath_eq]
      rfl

/-! ## Keys that are repeated -/

/-- An item is counted twice if it stands at another place as well. -/
theorem two_le_count_iff {α : Type} [DecidableEq α] {xs : List α} {a : α} {i : Nat}
    (hi : xs[i]? = some a) : 2 ≤ xs.count a ↔ ∃ j, xs[j]? = some a ∧ j ≠ i := by
  rw [← List.duplicate_iff_two_le_count, List.duplicate_iff_exists_distinct_get]
  constructor
  · rintro ⟨n, m, hnm, hn, hm⟩
    by_cases h : n.val = i
    · exact ⟨m, by simp [hm], fun hmi => Nat.ne_of_lt hnm (h.trans hmi.symm)⟩
    · exact ⟨n, by simp [hn], h⟩
  · rintro ⟨j, hj, hne⟩
    obtain ⟨hil, hi⟩ := List.getElem?_eq_some_iff.mp hi
    obtain ⟨hjl, hj⟩ := List.getElem?_eq_some_iff.mp hj
    rcases Nat.lt_or_gt_of_ne hne with hlt | hlt
    · exact ⟨⟨j, hjl⟩, ⟨i, hil⟩, hlt, hj.symm, hi.symm⟩
    · exact ⟨⟨i, hil⟩, ⟨j, hjl⟩, hlt, hi.symm, hj.symm⟩

theorem isRepeated_iff (hv : rows[index]? = some v) : isRepeated rows v.key = true ↔
    v.key ≠ "" ∧ ∃ other u, rows[other]? = some u ∧ other ≠ index ∧ u.key = v.key := by
  have hk : (rows.map (·.key))[index]? = some v.key := by rw [List.getElem?_map, hv]; rfl
  have hc : (rows.filter (·.key = v.key)).length = (rows.map (·.key)).count v.key := by
    rw [List.count_eq_countP, List.countP_map, ← List.countP_eq_length_filter]
    exact List.countP_congr fun u _ => by simp
  rw [isRepeated, Bool.and_eq_true, decide_eq_true_eq, decide_eq_true_eq, hc, Nat.lt_iff_add_one_le,
    two_le_count_iff hk]
  refine and_congr_right fun _ => exists_congr fun other => ?_
  rw [List.getElem?_map, Option.map_eq_some_iff]
  constructor
  · rintro ⟨⟨u, hu, huv⟩, hne⟩
    exact ⟨u, hu, hne, huv⟩
  · rintro ⟨u, hu, hne, huv⟩
    exact ⟨⟨u, hu, huv⟩, hne⟩

/-- The issue of the key of a row, if it is repeated. -/
def keyRepetition? (rows : List EnvVar) (v : EnvVar) (index : Nat) : Option Issue :=
  if isRepeated rows v.key then
    some ⟨keyPath index, .duplicateKey, "Duplicate key " ++ v.key⟩
  else none

theorem repetitionIssues_eq (rows : List EnvVar) :
    repetitionIssues rows = (found (keyRepetition? rows) rows).map (·.2) := by
  rw [map_snd_found, repetitionIssues, ← List.filterMap_eq_map, List.filterMap_filter]
  rfl

theorem repeated_eq (rows : List EnvVar) :
    repeated rows = (found (keyRepetition? rows) rows).map (·.1) := by
  rw [found, List.map_filterMap, repeated, ← List.filterMap_eq_map, List.filterMap_filter]
  refine List.filterMap_congr fun x _ => ?_
  simp only [keyRepetition?]
  split <;> rfl

theorem keyRepetition?_eq_some_iff {x : Issue} : (∃ v, rows[index]? = some v ∧
    keyRepetition? rows v index = some x) ↔ KeyRepetition rows index x := by
  simp only [keyRepetition?, Option.ite_none_right_eq_some, Option.some.injEq, keyPath_eq]
  constructor
  · rintro ⟨v, hv, hr, rfl⟩
    obtain ⟨hk, other, u, hu, hne, huv⟩ := (isRepeated_iff hv).mp hr
    exact .repeated hv hk hu hne huv
  · rintro ⟨hv, hk, hu, hne, huv⟩
    exact ⟨_, hv, (isRepeated_iff hv).mpr ⟨hk, _, _, hu, hne, huv⟩, rfl⟩

/-! ## All issues -/

/-- The issues of rows are those of the keys that are missing or malformed, and then those of the
keys that are repeated, both by rising index; rows pass if there are none of either. The repeated
indices are those of the second part. No key that passes holds a newline or a letter outside
ASCII. -/
theorem issues_exact (rows : List EnvVar) :
    ∃ faults repetitions : List (Nat × Issue),
      issues rows = faults.map (·.2) ++ repetitions.map (·.2) ∧
      InOrder (KeyFault rows) faults ∧ InOrder (KeyRepetition rows) repetitions ∧
      repeated rows = repetitions.map (·.1) ∧
      (check rows = .ok () ↔ faults = [] ∧ repetitions = []) ∧
      (¬ (faults = [] ∧ repetitions = []) → check rows = .error ⟨issues rows⟩) ∧
      ∀ key, IsIdentifier key → ∀ c ∈ key.toList, c.toNat < 128 ∧ c ≠ '\n' := by
  have hi : issues rows = (found (keyFault? rows) rows).map (·.2) ++
      (found (keyRepetition? rows) rows).map (·.2) := by
    rw [issues, keyFaults_eq, repetitionIssues_eq]
  have hn : issues rows = [] ↔
      found (keyFault? rows) rows = [] ∧ found (keyRepetition? rows) rows = [] := by
    rw [hi, List.append_eq_nil_iff, List.map_eq_nil_iff, List.map_eq_nil_iff]
  refine ⟨_, _, hi, (found_inOrder _ rows).congr fun _ _ => keyFault?_eq_some_iff,
    (found_inOrder _ rows).congr fun _ _ => keyRepetition?_eq_some_iff, repeated_eq rows, ?_,
    fun h => ?_, fun key hk => hk.ascii⟩
  · rw [check, Report.verdict_eq_ok_iff, hn]
  · exact Report.verdict_eq_error_iff.mpr ⟨mt hn.mp h, rfl⟩

/-- A key of the platform's that the user has taken as well, one that begins with a digit, and two
empty rows. -/
def fiveRows : List EnvVar :=
  [⟨"A", "x", true⟩, ⟨"A", "y", false⟩, ⟨"1B", "", false⟩, ⟨"", "", false⟩, ⟨"", "", false⟩]

theorem issues_exact_fiveRows :
    check fiveRows = .error ⟨[
        ⟨"envVars[2].key", .invalidFormat,
          "Key must contain only letters, digits and underscores, and not start with a digit"⟩,
        ⟨"envVars[3].key", .missingRequired, "Key is required"⟩,
        ⟨"envVars[0].key", .duplicateKey, "Duplicate key A"⟩,
        ⟨"envVars[1].key", .duplicateKey, "Duplicate key A"⟩]⟩ ∧
      repeated fiveRows = [0, 1] := by
  obtain ⟨faults, repetitions, -, hf, -, -, -, he, -⟩ := issues_exact fiveRows
  have hmissing : (3, ⟨"envVars[3].key", .missingRequired, "Key is required"⟩) ∈ faults :=
    (hf.mem_iff _ _).mpr (.missing rfl ⟨rfl, by decide⟩ rfl)
  refine ⟨(he fun h => ?_).trans (by decide), by decide⟩
  exact List.ne_nil_of_mem hmissing h.1

end EnvRows

end DeploymentConfig
