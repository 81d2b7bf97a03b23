import DeploymentConfig.Json.Basic

/-!
# Values in which the last member wins

Dropping repeated members drops the same ones whatever members stand between
them (`filter_membersLastWin`), and none where no name is repeated
(`membersLastWin_of_nodup`). A value that can be held stays one
(`isReadable_lastWins`).
-/

namespace DeploymentConfig.Json

theorem areReadable_iff {items : List Json} :
    areReadable items = true ↔ ∀ item ∈ items, item.isReadable = true := by
  induction items with
  | nil => simp [areReadable]
  | cons item items ih => simp [areReadable, ih]

theorem membersReadable_iff {members : List (String × Json)} :
    membersReadable members = true ↔ ∀ m ∈ members, m.2.isReadable = true := by
  induction members with
  | nil => simp [membersReadable]
  | cons m members ih => simp [membersReadable, ih]

/-- A member, in whose value the last of repeated members wins. -/
def memberLastWins (m : String × Json) : String × Json :=
  (m.1, m.2.lastWins)

theorem itemsLastWin_eq_map (items : List Json) : itemsLastWin items = items.map lastWins := by
  induction items with
  | nil => rfl
  | cons item items ih => rw [itemsLastWin, ih, List.map_cons]

theorem filter_membersLastWin (p : String → Bool) (members : List (String × Json)) :
    (membersLastWin members).filter (p ·.1) = membersLastWin (members.filter (p ·.1)) := by
  induction members with
  | nil => rfl
  | cons m members ih =>
    obtain ⟨name, value⟩ := m
    cases hp : p name with
    | false =>
      simp only [membersLastWin, List.filter_cons, hp]
      split
      · simpa using ih
      · simpa [hp] using ih
    | true =>
      -- The members that decide whether this one is dropped have its name, so none is filtered out.
      have ha : (members.filter (p ·.1)).any (·.1 = name) = members.any (·.1 = name) := by
        rw [List.any_filter]
        congr 1
        funext m
        by_cases h : m.1 = name <;> simp [h, hp]
      simp only [membersLastWin, List.filter_cons, hp, ite_true, ha]
      split
      · exact ih
      · simp [hp, ih]

theorem membersLastWin_of_nodup {members : List (String × Json)}
    (h : (members.map (·.1)).Nodup) : membersLastWin members = members.map memberLastWins := by
  induction members with
  | nil => rfl
  | cons m members ih =>
    obtain ⟨name, value⟩ := m
    obtain ⟨hn, h⟩ := List.nodup_cons.mp h
    have ha : members.any (·.1 = name) = false := by
      simp only [List.any_eq_false, decide_eq_true_eq]
      exact fun m hm he => hn (List.mem_map.mpr ⟨m, hm, he⟩)
    simp [membersLastWin, ha, ih h, memberLastWins]

theorem mem_membersLastWin {m : String × Json} {members : List (String × Json)}
    (h : m ∈ membersLastWin members) : ∃ m' ∈ members, m = memberLastWins m' := by
  induction members with
  | nil => simp [membersLastWin] at h
  | cons m₀ members ih =>
    have later (h : m ∈ membersLastWin members) : ∃ m' ∈ m₀ :: members, m = memberLastWins m' :=
      let ⟨m', hm', he⟩ := ih h
      ⟨m', List.mem_cons_of_mem _ hm', he⟩
    rw [membersLastWin] at h
    split at h
    · exact later h
    · rcases List.mem_cons.mp h with rfl | h
      · exact ⟨m₀, List.mem_cons_self, rfl⟩
      · exact later h

mutual

theorem isReadable_lastWins : ∀ {value : Json}, value.isReadable = true →
    value.lastWins.isReadable = true
  | .array items, h => by
    rw [lastWins, isReadable]
    exact areReadable_itemsLastWin (by rwa [isReadable] at h)
  | .object members, h => by
    rw [lastWins, isReadable]
    exact membersReadable_membersLastWin (by rwa [isReadable] at h)
  | .null, h | .bool _, h | .integer _, h | .decimal _, h | .string _, h | .unrepresentable, h => h

theorem areReadable_itemsLastWin : ∀ {items : List Json}, areReadable items = true →
    areReadable (itemsLastWin items) = true
  | [], _ => rfl
  | item :: items, h => by
    rw [areReadable, Bool.and_eq_true] at h
    rw [itemsLastWin, areReadable, isReadable_lastWins h.1, areReadable_itemsLastWin h.2]
    rfl

theorem membersReadable_membersLastWin : ∀ {members : List (String × Json)},
    membersReadable members = true → membersReadable (membersLastWin members) = true
  | [], _ => rfl
  | (name, value) :: members, h => by
    rw [membersReadable, Bool.and_eq_true] at h
    rw [membersLastWin]
    split
    · exact membersReadable_membersLastWin h.2
    · rw [membersReadable, isReadable_lastWins h.1, membersReadable_membersLastWin h.2]
      rfl

end

end DeploymentConfig.Json
