import DeploymentConfig.Env.Basic

/-!
# Variable maps

A map from keys to values whose entries are sorted by key, in the order of code
points. Sorting is part of the type, so two maps with the same lookups are equal
(`EnvMap.ext_get?`).

* `get?_insert`, `get?_erase`: what the two operations do to a lookup;
* `mem_keys_iff`: the keys are those with a value.
-/

namespace DeploymentConfig

/-- Entries under increasing keys. -/
abbrev SortedByKey (entries : List (String × String)) : Prop :=
  entries.Pairwise fun a b => a.1 < b.1

/-- Puts an entry in its place, for that of its key if there is one. -/
def insertEntry (key value : String) : List (String × String) → List (String × String)
  | [] => [(key, value)]
  | entry :: entries =>
    if key < entry.1 then (key, value) :: entry :: entries
    else if key = entry.1 then (key, value) :: entries
    else entry :: insertEntry key value entries

theorem mem_insertEntry {key value : String} {entries : List (String × String)}
    {e : String × String} (h : e ∈ insertEntry key value entries) :
    e = (key, value) ∨ e ∈ entries := by
  induction entries with
  | nil => simpa [insertEntry] using h
  | cons entry entries ih =>
    simp only [insertEntry] at h
    split at h
    · simpa using h
    · split at h
      · simp only [List.mem_cons] at h ⊢
        exact h.imp_right .inr
      · simp only [List.mem_cons] at h ⊢
        rcases h with h | h
        · exact .inr (.inl h)
        · exact (ih h).imp_right .inr

theorem sortedByKey_insertEntry {key value : String} {entries : List (String × String)}
    (h : SortedByKey entries) : SortedByKey (insertEntry key value entries) := by
  induction entries with
  | nil => exact List.pairwise_singleton _ _
  | cons entry entries ih =>
    obtain ⟨hentry, hentries⟩ := List.pairwise_cons.1 h
    simp only [insertEntry]
    split
    · rename_i hlt
      refine List.pairwise_cons.2 ⟨fun e he => ?_, h⟩
      rcases List.mem_cons.1 he with rfl | he
      · exact hlt
      · exact String.lt_trans hlt (hentry e he)
    · rename_i hge
      split
      · rename_i heq
        exact List.pairwise_cons.2 ⟨fun e he => heq ▸ hentry e he, hentries⟩
      · rename_i hne
        refine List.pairwise_cons.2 ⟨fun e he => ?_, ih hentries⟩
        rcases mem_insertEntry he with rfl | he
        · exact Decidable.byContradiction fun h =>
            hne (String.le_antisymm (String.not_lt.1 h) (String.not_lt.1 hge))
        · exact hentry e he

structure EnvMap where
  entries : List (String × String)
  sorted : SortedByKey entries
  deriving DecidableEq

namespace EnvMap

def empty : EnvMap :=
  ⟨[], .nil⟩

/-- The value under a key. -/
def get? (m : EnvMap) (key : String) : Option String :=
  (m.entries.find? (·.1 = key)).map (·.2)

def keys (m : EnvMap) : List String :=
  m.entries.map (·.1)

def insert (m : EnvMap) (key value : String) : EnvMap :=
  ⟨insertEntry key value m.entries, sortedByKey_insertEntry m.sorted⟩

def erase (m : EnvMap) (key : String) : EnvMap :=
  ⟨m.entries.filter (·.1 ≠ key), m.sorted.filter _⟩

/-- The map of a list of entries, of which later ones win. -/
def ofList (entries : List (String × String)) : EnvMap :=
  entries.foldl (fun m e => m.insert e.1 e.2) empty

/-- The user's variables in a list of rows, of which later ones win. -/
def ofVars (vars : List EnvVar) : EnvMap :=
  ofList ((vars.filter (·.isOwn)).map fun v => (v.key, v.value))

theorem find?_insertEntry {key value key' : String} {entries : List (String × String)}
    (h : SortedByKey entries) :
    (insertEntry key value entries).find? (·.1 = key') =
      if key = key' then some (key, value) else entries.find? (·.1 = key') := by
  induction entries with
  | nil => by_cases hk : key = key' <;> simp [insertEntry, hk]
  | cons entry entries ih =>
    obtain ⟨hentry, hentries⟩ := List.pairwise_cons.1 h
    simp only [insertEntry]
    split
    · by_cases hk : key = key' <;> simp [List.find?_cons, hk]
    · split
      · rename_i heq
        by_cases hk : key = key' <;> simp [← heq, hk]
      · rename_i hne
        by_cases he : entry.1 = key'
        · have : key ≠ key' := fun h => hne (h.trans he.symm)
          simp [he, this]
        · simpa [he] using ih hentries

theorem get?_insert {m : EnvMap} {key value key' : String} :
    (m.insert key value).get? key' = if key = key' then some value else m.get? key' := by
  simp only [get?, insert, find?_insertEntry m.sorted]
  split <;> rfl

theorem get?_erase {m : EnvMap} {key key' : String} :
    (m.erase key).get? key' = if key = key' then none else m.get? key' := by
  simp only [get?, erase, List.find?_filter]
  split
  · rename_i h
    subst h
    simp
  · rename_i h
    congr 2
    funext e
    by_cases he : e.1 = key' <;> simp [he, Ne.symm h]

theorem mem_keys_iff {m : EnvMap} {key : String} : key ∈ m.keys ↔ (m.get? key).isSome := by
  simp [keys, get?]

theorem ext_get? {m n : EnvMap} (h : ∀ key, m.get? key = n.get? key) : m = n := by
  obtain ⟨es, hes⟩ := m
  obtain ⟨fs, hfs⟩ := n
  simp only [get?, EnvMap.mk.injEq] at h ⊢
  induction es generalizing fs with
  | nil =>
    cases fs with
    | nil => rfl
    | cons f fs => simpa using h f.1
  | cons e es ih =>
    obtain ⟨he, hes⟩ := List.pairwise_cons.1 hes
    cases fs with
    | nil => simpa using h e.1
    | cons f fs =>
      obtain ⟨hf, hfs'⟩ := List.pairwise_cons.1 hfs
      have hne {e : String × String} {es : List (String × String)}
          (he : ∀ a ∈ es, e.1 < a.1) : es.find? (·.1 = e.1) = none := by
        simp only [List.find?_eq_none, decide_eq_true_eq]
        exact fun a ha hea => String.lt_irrefl e.1 (hea ▸ he a ha)
      have hkey : e.1 = f.1 := by
        apply Decidable.byContradiction
        intro hne
        have h₁ := h e.1
        have h₂ := h f.1
        simp only [List.find?_cons, decide_true, Ne.symm hne, hne, decide_false] at h₁ h₂
        have ⟨a, ha, hae⟩ : ∃ a ∈ fs, a.1 = e.1 := by
          cases hfind : fs.find? (·.1 = e.1) with
          | none => simp [hfind] at h₁
          | some a =>
            exact ⟨a, List.mem_of_find?_eq_some hfind, by simpa using List.find?_some hfind⟩
        have ⟨b, hb, hbf⟩ : ∃ b ∈ es, b.1 = f.1 := by
          cases hfind : es.find? (·.1 = f.1) with
          | none => simp [hfind] at h₂
          | some b =>
            exact ⟨b, List.mem_of_find?_eq_some hfind, by simpa using List.find?_some hfind⟩
        exact String.lt_irrefl _ (String.lt_trans (hbf ▸ he b hb) (hae ▸ hf a ha))
      have hhead : e = f := by
        have := h e.1
        simp only [List.find?_cons, decide_true, hkey] at this
        exact Prod.ext hkey (by simpa using this)
      subst hhead
      refine congrArg (e :: ·) (ih hes fs hfs' fun key => ?_)
      by_cases hk : e.1 = key
      · rw [← hk, hne he, hne hf]
      · simpa [List.find?_cons, hk] using h key

end EnvMap

end DeploymentConfig
