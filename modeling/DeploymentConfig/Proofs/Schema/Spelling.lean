import DeploymentConfig.Proofs.Json.LastWins
import DeploymentConfig.Schema.Basic
import Mathlib.Data.List.Forall2

/-!
# Spellings

The written form of a value may be varied at every depth (`Schema.Spells`): the
members of an object may stand in any order and among others that the schema
does not know, a field may stand under one of its other names, and one that
holds its default may be missing.

A well-formed schema (`Schema.WellFormed`) can tell its fields, its variants and
its choices apart. Then no spelling repeats a name (`Fields.nodup_of_spells`), so
that the last of repeated members may win without loss (`Schema.spells_lastWins`).
-/

namespace DeploymentConfig

/-- The names under which the fields of a record are found. -/
def Fields.names : {α : Type} → Fields α → List String
  | _, .nil => []
  | _, .field name others _ _ rest => (name :: others) ++ rest.names
  | _, .elided name _ rest => name :: rest.names

/-- An object that holds some members of its own, and others under none of the names. Those have
values that can be held. -/
def Json.HasMembers (names : List String) (own : List (String × Json)) (value : Json) : Prop :=
  ∃ members extra, value = .object members ∧ members.Perm (own ++ extra) ∧
    ∀ m ∈ extra, m.1 ∉ names ∧ m.2.isReadable = true

mutual

/-- Whether a JSON value is one of the spellings of a value. A name outside the variants of an open
union has none. -/
def Schema.Spells : {α : Type} → Schema α → α → Json → Prop
  | _, .text, s, value => value = .string s
  | _, .flag, b, value => value = .bool b
  | _, .integer, n, value => value = .integer n.toInt
  | _, .optional _, none, value => value = .null
  | _, .optional item, some a, value => item.Spells a value
  | _, .list item, as, value =>
    ∃ items, value = .array items ∧ List.Forall₂ item.Spells as items
  | _, .choice nameOf _, a, value => value = .string (nameOf a)
  | _, .record fields parts _ _, a, value =>
    ∃ own, fields.Spells (parts a) own ∧ value.HasMembers fields.names own
  | _, .union tag variants parts _ _, a, value => variants.Spells tag (parts a) value
  | _, .openUnion tag variants parts _ _, a, value =>
    match parts a with
    | .inl b => variants.Spells tag b value
    | .inr _ => False

/-- Whether members are those of a record, in the order of its fields. -/
def Fields.Spells : {α : Type} → Fields α → α → List (String × Json) → Prop
  | _, .nil, _, own => own = []
  | _, .field name others default schema rest, (a, b), own =>
    (default = some a ∧ rest.Spells b own) ∨
      ∃ n ∈ name :: others, ∃ value own', schema.Spells a value ∧ rest.Spells b own' ∧
        own = (n, value) :: own'
  | _, .elided _ _ rest, (none, b), own => rest.Spells b own
  | _, .elided name schema rest, (some a, b), own =>
    ∃ value own', schema.Spells a value ∧ rest.Spells b own' ∧ own = (name, value) :: own'

def Variants.Spells : {α : Type} → String → Variants α → α → Json → Prop
  | _, _, .nil, a, _ => nomatch a
  | _, tag, .variant name fields _, .inl a, value =>
    ∃ own, fields.Spells a own ∧
      value.HasMembers (tag :: fields.names) ((tag, .string name) :: own)
  | _, tag, .variant _ _ rest, .inr b, value => rest.Spells tag b value

end

/-- Whether null is a spelling of some value. -/
def Schema.isNullable : {α : Type} → Schema α → Bool
  | _, .optional _ => true
  | _, _ => false

mutual

/-- Whether no two parts of a schema are taken for each other. -/
def Schema.WellFormed : {α : Type} → Schema α → Prop
  | _, .text | _, .flag | _, .integer => True
  | _, .optional item => item.isNullable = false ∧ item.WellFormed
  | _, .list item => item.WellFormed
  | _, .choice nameOf values => ∀ a, values.find? (nameOf · = nameOf a) = some a
  | _, .record fields .. => fields.WellFormed
  | _, .union tag variants .. | _, .openUnion tag variants .. => variants.WellFormed tag

def Fields.WellFormed : {α : Type} → Fields α → Prop
  | _, .nil => True
  | _, .field name others _ schema rest =>
    (∀ n ∈ name :: others, n ∉ rest.names) ∧ schema.WellFormed ∧ rest.WellFormed
  | _, .elided name schema rest =>
    name ∉ rest.names ∧ schema.isNullable = false ∧ schema.WellFormed ∧ rest.WellFormed

def Variants.WellFormed : {α : Type} → String → Variants α → Prop
  | _, _, .nil => True
  | _, tag, .variant name fields rest =>
    name ∉ rest.names ∧ tag ∉ fields.names ∧ fields.WellFormed ∧ rest.WellFormed tag

end

/-! ## Members -/

section Members

variable {names : List String} {own members : List (String × Json)} {value : Json}

theorem filter_names_eq_self (h : ∀ m ∈ own, m.1 ∈ names) :
    own.filter (names.contains ·.1) = own :=
  List.filter_eq_self.mpr fun m hm => List.contains_iff_mem.mpr (h m hm)

theorem filter_names_eq_nil (h : ∀ m ∈ own, m.1 ∉ names) : own.filter (names.contains ·.1) = [] :=
  List.filter_eq_nil_iff.mpr fun m hm hc => h m hm (List.contains_iff_mem.mp hc)

namespace Json.HasMembers

theorem self (names : List String) (own : List (String × Json)) :
    (Json.object own).HasMembers names own :=
  ⟨own, [], rfl, by rw [List.append_nil], fun _ h => absurd h List.not_mem_nil⟩

/-- What an object has under the names. -/
theorem perm_filter (h : (Json.object members).HasMembers names own)
    (hn : ∀ m ∈ own, m.1 ∈ names) : (members.filter (names.contains ·.1)).Perm own := by
  obtain ⟨_, extra, hv, hp, he⟩ := h
  cases hv
  have hf := hp.filter (names.contains ·.1)
  rwa [List.filter_append, filter_names_eq_self hn, filter_names_eq_nil fun m hm => (he m hm).1,
    List.append_nil] at hf

theorem isReadable (h : value.HasMembers names own) (ho : ∀ m ∈ own, m.2.isReadable = true) :
    value.isReadable = true := by
  obtain ⟨members, extra, rfl, hp, he⟩ := h
  rw [Json.isReadable, membersReadable_iff]
  intro m hm
  rcases List.mem_append.mp (hp.mem_iff.mp hm) with hm | hm
  · exact ho m hm
  · exact (he m hm).2

theorem lastWins (h : value.HasMembers names own) (hn : ∀ m ∈ own, m.1 ∈ names)
    (hd : (own.map (·.1)).Nodup) : value.lastWins.HasMembers names (own.map memberLastWins) := by
  obtain ⟨members, extra, rfl, hp, he⟩ := id h
  have hf := h.perm_filter hn
  refine ⟨membersLastWin members, (membersLastWin members).filter (!names.contains ·.1),
    by rw [Json.lastWins], ?_, fun m hm => ?_⟩
  · -- What is dropped stands under other names.
    have hm : (membersLastWin members).filter (names.contains ·.1) =
        (members.filter (names.contains ·.1)).map memberLastWins := by
      rw [filter_membersLastWin, membersLastWin_of_nodup ((hf.map (·.1)).nodup_iff.mpr hd)]
    have hs := List.filter_append_perm (names.contains ·.1) (membersLastWin members)
    rw [hm] at hs
    exact hs.symm.trans ((hf.map memberLastWins).append_right _)
  · obtain ⟨hm, hnot⟩ := List.mem_filter.mp hm
    have hnot : m.1 ∉ names := by simpa using hnot
    obtain ⟨m', hm', rfl⟩ := mem_membersLastWin hm
    refine ⟨hnot, isReadable_lastWins ?_⟩
    rcases List.mem_append.mp (hp.mem_iff.mp hm') with ho | hx
    · exact absurd (hn m' ho) hnot
    · exact (he m' hx).2

end Json.HasMembers

end Members

/-! ## Names -/

theorem Fields.mem_names_of_spells {α : Type} {fields : Fields α} {a : α}
    {own : List (String × Json)} (h : fields.Spells a own) : ∀ m ∈ own, m.1 ∈ fields.names := by
  match fields, a, h with
  | .nil, _, h =>
    cases h
    exact fun _ h => absurd h List.not_mem_nil
  | .field name others default schema rest, (a, b), h =>
    rcases h with ⟨-, h⟩ | ⟨n, hn, value, own', -, hr, rfl⟩
    · exact fun m hm => List.mem_append_right _ (mem_names_of_spells h m hm)
    · exact List.forall_mem_cons.mpr ⟨List.mem_append_left _ hn,
        fun m hm => List.mem_append_right _ (mem_names_of_spells hr m hm)⟩
  | .elided _ _ rest, (none, b), h =>
    have hr : rest.Spells b own := h
    exact fun m hm => List.mem_cons_of_mem _ (mem_names_of_spells hr m hm)
  | .elided name schema rest, (some a, b), h =>
    obtain ⟨value, own', -, hr, rfl⟩ := h
    exact List.forall_mem_cons.mpr ⟨List.mem_cons_self,
      fun m hm => List.mem_cons_of_mem _ (mem_names_of_spells hr m hm)⟩

/-- A member of a record's, and those of the fields after it. -/
theorem Fields.nodup_cons_of_spells {α : Type} {fields : Fields α} {a : α}
    {own : List (String × Json)} {n : String} (h : fields.Spells a own) (hn : n ∉ fields.names)
    (hd : (own.map (·.1)).Nodup) : (n :: own.map (·.1)).Nodup := by
  refine List.nodup_cons.mpr ⟨fun hc => ?_, hd⟩
  obtain ⟨m, hm, rfl⟩ := List.mem_map.mp hc
  exact hn (mem_names_of_spells h m hm)

theorem Fields.nodup_of_spells {α : Type} {fields : Fields α} {a : α} {own : List (String × Json)}
    (hw : fields.WellFormed) (h : fields.Spells a own) : (own.map (·.1)).Nodup := by
  match fields, a, hw, h with
  | .nil, _, _, h =>
    cases h
    exact List.nodup_nil
  | .field name others default schema rest, (a, b), hw, h =>
    obtain ⟨hn, -, hw⟩ := hw
    rcases h with ⟨-, h⟩ | ⟨n, hm, value, own', -, hr, rfl⟩
    · exact nodup_of_spells hw h
    · exact nodup_cons_of_spells hr (hn n hm) (nodup_of_spells hw hr)
  | .elided _ _ rest, (none, b), hw, h =>
    obtain ⟨-, -, -, hw⟩ := hw
    have hr : rest.Spells b own := h
    exact nodup_of_spells hw hr
  | .elided name schema rest, (some a, b), hw, h =>
    obtain ⟨hn, -, -, hw⟩ := hw
    obtain ⟨value, own', -, hr, rfl⟩ := h
    exact nodup_cons_of_spells hr hn (nodup_of_spells hw hr)

/-! ## Values that are not null -/

theorem Variants.exists_object_of_spells {α : Type} {tag : String} {variants : Variants α} {a : α}
    {value : Json} (h : variants.Spells tag a value) : ∃ members, value = .object members := by
  match variants, a, h with
  | .nil, a, _ => exact a.elim
  | .variant .., .inl _, h =>
    obtain ⟨_, _, members, _, hv, _⟩ := h
    exact ⟨members, hv⟩
  | .variant _ _ rest, .inr b, h =>
    have hr : rest.Spells tag b value := h
    exact exists_object_of_spells hr

theorem Schema.ne_null_of_spells {α : Type} {schema : Schema α} {a : α} {value : Json}
    (hn : schema.isNullable = false) (h : schema.Spells a value) : value ≠ .null := by
  rintro rfl
  match schema, a, hn, h with
  | .list item, as, _, h =>
    obtain ⟨_, hv, -⟩ := h
    cases hv
  | .record fields parts _ _, a, _, h =>
    obtain ⟨_, -, _, _, hv, -⟩ := h
    cases hv
  | .union tag variants parts _ _, a, _, h =>
    obtain ⟨_, hv⟩ := Variants.exists_object_of_spells h
    cases hv
  | .openUnion tag variants parts _ _, a, _, h =>
    rw [Spells] at h
    split at h
    · obtain ⟨_, hv⟩ := Variants.exists_object_of_spells h
      cases hv
    · exact h

/-! ## Reading a spelling as a value of its own -/

mutual

theorem Schema.isReadable_of_spells {α : Type} {schema : Schema α} {a : α} {value : Json}
    (h : schema.Spells a value) : value.isReadable = true := by
  match schema, a, h with
  | .text, _, h | .flag, _, h | .integer, _, h | .choice .., _, h | .optional _, none, h =>
    cases h
    rfl
  | .optional item, some a, h =>
    have ha : item.Spells a value := h
    exact Schema.isReadable_of_spells ha
  | .list item, as, h =>
    obtain ⟨items, rfl, hs⟩ := h
    have hr := (hs.imp fun _ _ hv => And.intro (Schema.isReadable_of_spells hv) hv).flip
    rw [Json.isReadable, Json.areReadable_iff]
    exact ((List.forall₂_and_left _ _).mp hr).1
  | .record fields parts _ _, a, h =>
    obtain ⟨own, ho, h⟩ := h
    exact h.isReadable (Fields.isReadable_of_spells ho)
  | .union tag variants parts _ _, a, h => exact Variants.isReadable_of_spells h
  | .openUnion tag variants parts _ _, a, h =>
    rw [Schema.Spells] at h
    split at h
    · exact Variants.isReadable_of_spells h
    · exact h.elim

theorem Fields.isReadable_of_spells {α : Type} {fields : Fields α} {a : α}
    {own : List (String × Json)} (h : fields.Spells a own) :
    ∀ m ∈ own, m.2.isReadable = true := by
  match fields, a, h with
  | .nil, _, h =>
    cases h
    exact fun _ h => absurd h List.not_mem_nil
  | .field name others default schema rest, (a, b), h =>
    rcases h with ⟨-, hr⟩ | ⟨n, -, value, own', hv, hr, rfl⟩
    · exact Fields.isReadable_of_spells hr
    · exact List.forall_mem_cons.mpr
        ⟨Schema.isReadable_of_spells hv, Fields.isReadable_of_spells hr⟩
  | .elided _ _ rest, (none, b), h =>
    have hr : rest.Spells b own := h
    exact Fields.isReadable_of_spells hr
  | .elided name schema rest, (some a, b), h =>
    obtain ⟨value, own', hv, hr, rfl⟩ := h
    exact List.forall_mem_cons.mpr ⟨Schema.isReadable_of_spells hv, Fields.isReadable_of_spells hr⟩

theorem Variants.isReadable_of_spells {α : Type} {tag : String} {variants : Variants α} {a : α}
    {value : Json} (h : variants.Spells tag a value) : value.isReadable = true := by
  match variants, a, h with
  | .nil, a, _ => exact a.elim
  | .variant name fields _, .inl a, h =>
    obtain ⟨own, ho, h⟩ := h
    exact h.isReadable (List.forall_mem_cons.mpr ⟨rfl, Fields.isReadable_of_spells ho⟩)
  | .variant _ _ rest, .inr b, h =>
    have hr : rest.Spells tag b value := h
    exact Variants.isReadable_of_spells hr

end

mutual

theorem Schema.spells_lastWins {α : Type} {schema : Schema α} {a : α} {value : Json}
    (hw : schema.WellFormed) (h : schema.Spells a value) : schema.Spells a value.lastWins := by
  match schema, a, hw, h with
  | .text, _, _, h | .flag, _, _, h | .integer, _, _, h | .choice .., _, _, h
  | .optional _, none, _, h =>
    cases h
    rfl
  | .optional item, some a, hw, h =>
    have ha : item.Spells a value := h
    change item.Spells a value.lastWins
    exact Schema.spells_lastWins hw.2 ha
  | .list item, as, hw, h =>
    obtain ⟨items, rfl, hs⟩ := h
    have hi : item.WellFormed := hw
    refine ⟨items.map Json.lastWins, by rw [Json.lastWins, Json.itemsLastWin_eq_map], ?_⟩
    exact List.forall₂_map_right_iff.mpr (hs.imp fun _ _ hv => Schema.spells_lastWins hi hv)
  | .record fields parts _ _, a, hw, h =>
    obtain ⟨own, ho, hm⟩ := h
    exact ⟨_, Fields.spells_lastWins hw ho,
      hm.lastWins (Fields.mem_names_of_spells ho) (Fields.nodup_of_spells hw ho)⟩
  | .union tag variants parts _ _, a, hw, h => exact Variants.spells_lastWins hw h
  | .openUnion tag variants parts _ _, a, hw, h =>
    rw [Schema.Spells] at h ⊢
    split at h
    · exact Variants.spells_lastWins hw h
    · exact h.elim

theorem Fields.spells_lastWins {α : Type} {fields : Fields α} {a : α} {own : List (String × Json)}
    (hw : fields.WellFormed) (h : fields.Spells a own) :
    fields.Spells a (own.map Json.memberLastWins) := by
  match fields, a, hw, h with
  | .nil, _, _, h =>
    cases h
    rfl
  | .field name others default schema rest, (a, b), hw, h =>
    obtain ⟨-, hs, hw⟩ := hw
    rcases h with ⟨hd, hr⟩ | ⟨n, hn, value, own', hv, hr, rfl⟩
    · exact .inl ⟨hd, Fields.spells_lastWins hw hr⟩
    · exact .inr ⟨n, hn, _, _, Schema.spells_lastWins hs hv, Fields.spells_lastWins hw hr, rfl⟩
  | .elided _ _ rest, (none, b), hw, h =>
    obtain ⟨-, -, -, hw⟩ := hw
    have hr : rest.Spells b own := h
    change rest.Spells b (own.map Json.memberLastWins)
    exact Fields.spells_lastWins hw hr
  | .elided name schema rest, (some a, b), hw, h =>
    obtain ⟨-, -, hs, hw⟩ := hw
    obtain ⟨value, own', hv, hr, rfl⟩ := h
    exact ⟨_, _, Schema.spells_lastWins hs hv, Fields.spells_lastWins hw hr, rfl⟩

theorem Variants.spells_lastWins {α : Type} {tag : String} {variants : Variants α} {a : α}
    {value : Json} (hw : variants.WellFormed tag) (h : variants.Spells tag a value) :
    variants.Spells tag a value.lastWins := by
  match variants, a, hw, h with
  | .nil, a, _, _ => exact a.elim
  | .variant name fields _, .inl a, hw, h =>
    obtain ⟨-, ht, hw, -⟩ := hw
    obtain ⟨own, ho, hm⟩ := h
    exact ⟨_, Fields.spells_lastWins hw ho, hm.lastWins
      (List.forall_mem_cons.mpr ⟨List.mem_cons_self,
        fun m hm => List.mem_cons_of_mem _ (Fields.mem_names_of_spells ho m hm)⟩)
      (Fields.nodup_cons_of_spells ho ht (Fields.nodup_of_spells hw ho))⟩
  | .variant _ _ rest, .inr b, hw, h =>
    obtain ⟨-, -, -, hw⟩ := hw
    have hr : rest.Spells tag b value := h
    change rest.Spells tag b value.lastWins
    exact Variants.spells_lastWins hw hr

end

end DeploymentConfig
