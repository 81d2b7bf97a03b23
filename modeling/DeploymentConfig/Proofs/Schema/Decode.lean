import DeploymentConfig.Proofs.Schema.Encode
import DeploymentConfig.Schema.Decode

/-!
# Reading a spelling

Under a well-formed schema every spelling of a value is read as that value
(`Schema.decode_of_spells`). Hence what is written is read again, and so is every
variation of it (`Schema.Recovers`). A record with two members for one field is
refused (`Schema.decode_record_of_both`).

A record is found among the members of an object by taking the names of its
fields apart, field after field: the first field finds at most its own member,
and the others find theirs without it (`perm_filter_of_cons`,
`perm_filter_of_later`).
-/

namespace DeploymentConfig

variable {α β : Type}

/-! ## Members of a record's fields -/

section Filter

variable {names first rest : List String} {own members : List (String × Json)}

theorem perm_filter_of_subset (h : (members.filter (names.contains ·.1)).Perm own)
    (hs : ∀ n ∈ first, n ∈ names) :
    (members.filter (first.contains ·.1)).Perm (own.filter (first.contains ·.1)) := by
  have hf := h.filter (first.contains ·.1)
  rw [List.filter_filter] at hf
  refine (List.Perm.of_eq (List.filter_congr fun m _ => ?_)).trans hf
  cases hc : first.contains m.1 with
  | false => rfl
  | true => rw [List.contains_iff_mem.mpr (hs _ (List.contains_iff_mem.mp hc)), Bool.and_self]

/-- The members of a record whose first field has none. -/
theorem perm_filter_of_later (h : (members.filter ((first ++ rest).contains ·.1)).Perm own)
    (hd : ∀ n ∈ first, n ∉ rest) (ho : ∀ m ∈ own, m.1 ∈ rest) :
    (members.filter (first.contains ·.1)).Perm [] ∧
      (members.filter (rest.contains ·.1)).Perm own := by
  have hf := perm_filter_of_subset h fun n hn => List.mem_append_left rest hn
  have hr := perm_filter_of_subset h fun n hn => List.mem_append_right first hn
  rw [filter_names_eq_nil fun m hm hn => hd _ hn (ho m hm)] at hf
  rw [filter_names_eq_self ho] at hr
  exact ⟨hf, hr⟩

/-- The members of a record whose first field has one. -/
theorem perm_filter_of_cons {n : String} {value : Json}
    (h : (members.filter ((first ++ rest).contains ·.1)).Perm ((n, value) :: own))
    (hn : n ∈ first) (hd : ∀ n ∈ first, n ∉ rest) (ho : ∀ m ∈ own, m.1 ∈ rest) :
    (members.filter (first.contains ·.1)).Perm [(n, value)] ∧
      (members.filter (rest.contains ·.1)).Perm own := by
  have hf := perm_filter_of_subset h fun n hn => List.mem_append_left rest hn
  have hr := perm_filter_of_subset h fun n hn => List.mem_append_right first hn
  rw [List.filter_cons, if_pos (List.contains_iff_mem.mpr hn),
    filter_names_eq_nil fun m hm hn => hd _ hn (ho m hm)] at hf
  rw [List.filter_cons, if_neg fun hc => hd n hn (List.contains_iff_mem.mp hc),
    filter_names_eq_self ho] at hr
  exact ⟨hf, hr⟩

end Filter

namespace Fields

variable {names : List String} {members : List (String × Json)} {default : Option α}
  {decode : Json → Option α}

theorem find?_eq_default (h : (members.filter (names.contains ·.1)).Perm []) :
    find? names members default decode = default := by
  rw [find?, h.eq_nil]

theorem find?_eq_decode {n : String} {value : Json}
    (h : (members.filter (names.contains ·.1)).Perm [(n, value)]) :
    find? names members default decode = decode value := by
  rw [find?, h.eq_singleton]

theorem find?_eq_none {m m' : String × Json} (hm : m ∈ members) (hm' : m' ∈ members)
    (hn : m.1 ∈ names) (hn' : m'.1 ∈ names) (h : m.1 ≠ m'.1) :
    find? names members default decode = none := by
  have hf : m ∈ members.filter (names.contains ·.1) :=
    List.mem_filter.mpr ⟨hm, List.contains_iff_mem.mpr hn⟩
  have hf' : m' ∈ members.filter (names.contains ·.1) :=
    List.mem_filter.mpr ⟨hm', List.contains_iff_mem.mpr hn'⟩
  rw [find?]
  generalize members.filter (names.contains ·.1) = found at hf hf' ⊢
  match found, hf, hf' with
  | [_], hf, hf' =>
    rw [List.mem_singleton.mp hf, List.mem_singleton.mp hf'] at h
    exact absurd rfl h
  | _ :: _ :: _, _, _ => rfl

theorem decode_elided (d : Dialect) {name : String} {schema : Schema α} {rest : Fields β}
    {value : Json} {a : α} {b : β}
    (h : (members.filter ([name].contains ·.1)).Perm [(name, value)]) (hn : value ≠ .null)
    (ha : schema.decode d value = some a) (hb : rest.decode d members = some b) :
    (Fields.elided name schema rest).decode d members = some (some a, b) := by
  rw [Fields.decode, find?_eq_decode h, hb]
  cases value with
  | null => exact absurd rfl hn
  | bool | integer | decimal | string | array | object | unrepresentable =>
    simp only [ha]
    rfl

end Fields

/-! ## Spellings -/

theorem Schema.decode_optional (d : Dialect) (item : Schema α) {value : Json} (h : value ≠ .null) :
    (Schema.optional item).decode d value = (item.decode d value).map some := by
  cases value with
  | null => exact absurd rfl h
  | bool | integer | decimal | string | array | object | unrepresentable =>
    rw [Schema.decode]
    rintro _ _ _ _ ⟨⟩

theorem mapM_eq_some_of_forall₂ {f : β → Option α} {R : α → β → Prop} {as : List α} {bs : List β}
    (h : List.Forall₂ R as bs) (hf : ∀ a b, R a b → f b = some a) : bs.mapM f = some as := by
  induction h with
  | nil => rfl
  | cons hab _ ih =>
    rw [List.mapM_cons, hf _ _ hab, ih]
    rfl

theorem Json.member?_of_filter {name : String} {members : List (String × Json)} {value : Json}
    (h : members.filter (·.1 = name) = [(name, value)]) :
    (Json.object members).member? name = some value := by
  rw [member?, ← List.head?_filter, List.filter_reverse, h]
  rfl

theorem Variants.decodeTagged_of_filter (d : Dialect) {variants : Variants α} {tag name : String}
    {members : List (String × Json)} (h : members.filter (·.1 = tag) = [(tag, .string name)]) :
    variants.decodeTagged d tag (.object members) = variants.decode d name (.members members) := by
  rw [decodeTagged, h]

mutual

theorem Schema.decode_of_spells (d : Dialect) {α : Type} {schema : Schema α} {a : α} {value : Json}
    (hw : schema.WellFormed) (h : schema.Spells a value) : schema.decode d value = some a := by
  match schema, a, hw, h with
  | .text, _, _, h | .flag, _, _, h | .optional _, none, _, h =>
    cases h
    rw [Schema.decode]
  | .integer, n, _, h =>
    cases h
    rw [Schema.decode, if_pos ⟨n.minValue_le_toInt, n.toInt_le⟩, Int32.ofInt_toInt]
  | .choice nameOf values, a, hw, h =>
    cases h
    rw [Schema.decode]
    exact hw a
  | .optional item, some a, hw, h =>
    have ha : item.Spells a value := h
    rw [Schema.decode_optional d item (Schema.ne_null_of_spells hw.1 ha),
      Schema.decode_of_spells d hw.2 ha, Option.map_some]
  | .list item, as, hw, h =>
    obtain ⟨items, rfl, hs⟩ := h
    have hi : item.WellFormed := hw
    rw [Schema.decode]
    exact mapM_eq_some_of_forall₂ hs fun _ _ hv => Schema.decode_of_spells d hi hv
  | .record fields parts build build_parts, a, hw, h =>
    obtain ⟨own, ho, hm⟩ := h
    obtain ⟨members, -, rfl, -⟩ := id hm
    have hp := hm.perm_filter (Fields.mem_names_of_spells ho)
    rw [Schema.decode, Fields.decode_of_spells d hw ho hp, Option.map_some, build_parts]
  | .union tag variants parts build build_parts, a, hw, h =>
    have hr := Variants.isReadable_of_spells h
    obtain ⟨name, members, rfl, -, ht, hv⟩ := Variants.decode_of_spells d hw h
    rw [Schema.decode, if_pos hr, Variants.decodeTagged_of_filter d ht, hv, Option.map_some,
      build_parts]
  | .openUnion tag variants parts build build_parts, a, hw, h =>
    rw [Schema.Spells] at h
    split at h
    · rename_i b hb
      have hr := Variants.isReadable_of_spells h
      obtain ⟨name, members, rfl, hn, ht, -⟩ := Variants.decode_of_spells d hw h
      -- The name is looked up in the value as it is, the variant in the one without repetitions.
      obtain ⟨name', members', hv', -, ht', hd⟩ :=
        Variants.decode_of_spells d hw (Variants.spells_lastWins hw h)
      rw [Schema.decode, if_pos hr, Json.member?_of_filter ht]
      simp only [List.contains_iff_mem.mpr hn, ite_true, hv',
        Variants.decodeTagged_of_filter d ht', hd, Option.map_some, ← hb, build_parts]
    · exact h.elim

theorem Fields.decode_of_spells (d : Dialect) {α : Type} {fields : Fields α} {a : α}
    {own members : List (String × Json)} (hw : fields.WellFormed) (h : fields.Spells a own)
    (hm : (members.filter (fields.names.contains ·.1)).Perm own) :
    fields.decode d members = some a := by
  match fields, a, hw, h, hm with
  | .nil, _, _, _, _ => rw [Fields.decode]
  | .field name others default schema rest, (a, b), hw, h, hm =>
    obtain ⟨hd, hs, hw⟩ := hw
    rcases h with ⟨ha, hr⟩ | ⟨n, hn, value, own', hv, hr, rfl⟩
    · obtain ⟨hf, hm⟩ := perm_filter_of_later hm hd (Fields.mem_names_of_spells hr)
      rw [Fields.decode, Fields.find?_eq_default hf, ha, Fields.decode_of_spells d hw hr hm]
      rfl
    · obtain ⟨hf, hm⟩ := perm_filter_of_cons hm hn hd (Fields.mem_names_of_spells hr)
      rw [Fields.decode, Fields.find?_eq_decode hf, Schema.decode_of_spells d hs hv,
        Fields.decode_of_spells d hw hr hm]
      rfl
  | .elided name schema rest, (none, b), hw, h, hm =>
    obtain ⟨hn, -, -, hw⟩ := hw
    have hd : ∀ n ∈ [name], n ∉ rest.names := List.forall_mem_singleton.mpr hn
    have hr : rest.Spells b own := h
    obtain ⟨hf, hm⟩ := perm_filter_of_later hm hd (Fields.mem_names_of_spells hr)
    rw [Fields.decode, Fields.find?_eq_default hf, Fields.decode_of_spells d hw hr hm]
    rfl
  | .elided name schema rest, (some a, b), hw, h, hm =>
    obtain ⟨hn, hnull, hs, hw⟩ := hw
    have hd : ∀ n ∈ [name], n ∉ rest.names := List.forall_mem_singleton.mpr hn
    obtain ⟨value, own', hv, hr, rfl⟩ := h
    obtain ⟨hf, hm⟩ :=
      perm_filter_of_cons hm List.mem_cons_self hd (Fields.mem_names_of_spells hr)
    exact Fields.decode_elided d hf (Schema.ne_null_of_spells hnull hv)
      (Schema.decode_of_spells d hs hv) (Fields.decode_of_spells d hw hr hm)

theorem Variants.decode_of_spells (d : Dialect) {α : Type} {tag : String} {variants : Variants α}
    {a : α} {value : Json} (hw : variants.WellFormed tag) (h : variants.Spells tag a value) :
    ∃ name members, value = .object members ∧ name ∈ variants.names ∧
      members.filter (·.1 = tag) = [(tag, .string name)] ∧
      variants.decode d name (.members members) = some a := by
  match variants, a, hw, h with
  | .nil, a, _, _ => exact a.elim
  | .variant name fields rest, .inl a, hw, h =>
    obtain ⟨-, htag, hw, -⟩ := hw
    obtain ⟨own, ho, hm⟩ := h
    obtain ⟨members, -, rfl, -⟩ := id hm
    have hn := Fields.mem_names_of_spells ho
    have hp := hm.perm_filter (List.forall_mem_cons.mpr
      ⟨List.mem_cons_self, fun m hmem => List.mem_cons_of_mem _ (hn m hmem)⟩)
    have hd : ∀ n ∈ [tag], n ∉ fields.names := List.forall_mem_singleton.mpr htag
    obtain ⟨ht, hf⟩ := perm_filter_of_cons hp List.mem_cons_self hd hn
    refine ⟨name, members, rfl, List.mem_cons_self, ?_, ?_⟩
    · simpa using ht.eq_singleton
    · rw [Variants.decode, if_pos rfl]
      simp only [Fields.decode_of_spells d hw ho hf, Option.map_some]
  | .variant name fields rest, .inr b, hw, h =>
    obtain ⟨hn, -, -, hw⟩ := hw
    have hr : rest.Spells tag b value := h
    obtain ⟨chosen, members, hv, hc, ht, hd⟩ := Variants.decode_of_spells d hw hr
    refine ⟨chosen, members, hv, List.mem_cons_of_mem _ hc, ht, ?_⟩
    have hne : chosen ≠ name := fun he => hn (he ▸ hc)
    rw [Variants.decode, if_neg hne, hd, Option.map_some]

end

/-- A value is written, and read again from what is written and from every other spelling. -/
structure Schema.Recovers (schema : Schema α) (a : α) : Prop where
  written : ∃ value, schema.encode a = some value ∧ schema.Spells a value ∧
    schema.ofJson? value = some a
  spelled : ∀ value, schema.Spells a value → schema.ofJson? value = some a

theorem Schema.WellFormed.recovers {schema : Schema α} {a : α} (hw : schema.WellFormed)
    (ha : schema.Writable a) : schema.Recovers a :=
  have spelled (value : Json) (h : schema.Spells a value) : schema.ofJson? value = some a :=
    Schema.decode_of_spells .json hw h
  let ⟨value, he, hs⟩ := Schema.exists_encode ha
  ⟨⟨value, he, hs, spelled value hs⟩, spelled⟩

theorem Schema.WellFormed.recovers_of_isClosed {schema : Schema α} (hw : schema.WellFormed)
    (hc : schema.isClosed = true) (a : α) : schema.Recovers a :=
  hw.recovers (Schema.writable_of_isClosed hc a)

/-! ## Two members for one field -/

/-- The names of each field. -/
def Fields.groups : {α : Type} → Fields α → List (List String)
  | _, .nil => []
  | _, .field name others _ _ rest => (name :: others) :: rest.groups
  | _, .elided name _ rest => [name] :: rest.groups

theorem Fields.decode_of_twice (d : Dialect) {α : Type} {fields : Fields α} {names : List String}
    {members : List (String × Json)} {m m' : String × Json} (hg : names ∈ fields.groups)
    (hm : m ∈ members) (hm' : m' ∈ members) (hn : m.1 ∈ names) (hn' : m'.1 ∈ names)
    (h : m.1 ≠ m'.1) : fields.decode d members = none := by
  match fields, hg with
  | .field name others default schema rest, hg =>
    rw [Fields.decode]
    rcases List.mem_cons.mp hg with rfl | hg
    · rw [find?_eq_none hm hm' hn hn' h]
      rfl
    · rw [Fields.decode_of_twice d hg hm hm' hn hn' h]
      cases find? (name :: others) members default (schema.decode d) <;> rfl
  | .elided name schema rest, hg =>
    rw [Fields.decode]
    rcases List.mem_cons.mp hg with rfl | hg
    · rw [find?_eq_none hm hm' hn hn' h]
      rfl
    · rw [Fields.decode_of_twice d hg hm hm' hn hn' h]
      cases find? [name] members (some none) _ <;> rfl

/-- An object with both names of a field. -/
theorem Schema.decode_record_of_both (d : Dialect) {fields : Fields β} {parts : α → β}
    {build : β → α} {hb : ∀ a, build (parts a) = a} {name other : String}
    {members : List (String × Json)} {v v' : Json} (hg : [name, other] ∈ fields.groups)
    (hne : name ≠ other) (hm : (name, v) ∈ members) (hm' : (other, v') ∈ members) :
    (Schema.record fields parts build hb).decode d (.object members) = none := by
  rw [Schema.decode, Fields.decode_of_twice d hg hm hm' List.mem_cons_self
    (List.mem_cons_of_mem _ List.mem_cons_self) hne, Option.map_none]

end DeploymentConfig
