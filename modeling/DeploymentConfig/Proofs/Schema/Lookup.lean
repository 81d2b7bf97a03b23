import DeploymentConfig.Proofs.Schema.Decode

/-!
# Reading by lookup

A value that is read for its own sake keeps the last of repeated members, so that
its members are told by lookup (`Json.filter_membersLastWin_eq`). A record is plain
(`Fields.IsPlain`) if each of its fields is a text or a flag that may be missing.
What is read of it agrees with the object on every member that would be written
(`Json.Shows`), and whatever agrees is read (`Fields.decode_eq_some_iff`); a
union of plain records is told by its tag besides
(`Variants.decodeTagged_eq_some_iff`).
-/

namespace DeploymentConfig

namespace Json

/-! ## Members of a value in which the last one wins -/

theorem contains_singleton (name : String) :
    (fun m : String × Json => [name].contains m.1) = fun m => decide (m.1 = name) := by
  funext m
  simp

theorem member?_object (name : String) (members : List (String × Json)) :
    (object members).member? name = (members.filter (·.1 = name)).getLast?.map (·.2) := by
  rw [member?, ← List.head?_filter, List.filter_reverse, List.head?_reverse]

theorem exists_object_of_member? {name : String} {value v : Json}
    (h : value.member? name = some v) : ∃ members, value = .object members := by
  cases value with
  | object members => exact ⟨members, rfl⟩
  | null | bool | integer | decimal | string | array | unrepresentable => cases h

theorem membersLastWin_of_forall_eq {name : String} {members : List (String × Json)}
    (h : ∀ m ∈ members, m.1 = name) :
    membersLastWin members = (members.getLast?.map memberLastWins).toList := by
  induction members with
  | nil => rfl
  | cons m members ih =>
    obtain ⟨hm, h⟩ := List.forall_mem_cons.mp h
    cases members with
    | nil => rfl
    | cons m' members =>
      have ha : (m' :: members).any (·.1 = m.1) = true :=
        List.any_eq_true.mpr ⟨m', List.mem_cons_self, by simp [hm, h m' List.mem_cons_self]⟩
      rw [membersLastWin, if_pos ha, ih h, List.getLast?_cons_cons]

theorem filter_membersLastWin_eq (name : String) (members : List (String × Json)) :
    (membersLastWin members).filter (·.1 = name) =
      (((object members).member? name).map fun value => (name, value.lastWins)).toList := by
  have hall : ∀ m ∈ members.filter (·.1 = name), m.1 = name := fun m hm => by
    simpa using (List.mem_filter.mp hm).2
  rw [filter_membersLastWin (fun n => decide (n = name)), membersLastWin_of_forall_eq hall,
    member?_object, Option.map_map]
  cases hl : (members.filter (·.1 = name)).getLast? with
  | none => rfl
  | some m =>
    have hm : m.1 = name := hall m (List.mem_of_getLast? hl)
    simp [memberLastWins, hm]

/-! ## Members and defaults -/

/-- Whether a value is what a text or a flag is when it is missing. -/
def isDefault (value : Json) : Prop :=
  value = .bool false ∨ value = .string ""

/-- Whether an object has a member, or lacks it and the member is what is then assumed. -/
def Shows (value : Json) (m : String × Json) : Prop :=
  value.member? m.1 = some m.2 ∨ (value.member? m.1 = none ∧ m.2.isDefault)

end Json

variable {α β : Type}

/-- Whether values are texts or flags, with the usual default. -/
def Schema.IsPlain : {α : Type} → Schema α → Option α → Prop
  | _, .text, default => default = some ""
  | _, .flag, default => default = some false
  | _, _, _ => False

/-- Whether every field is plain and has one name. -/
def Fields.IsPlain : {α : Type} → Fields α → Prop
  | _, .nil => True
  | _, .field _ others default schema rest => others = [] ∧ schema.IsPlain default ∧ rest.IsPlain
  | _, .elided .. => False

/-- Whether every variant is plain. -/
def Variants.IsPlain : {α : Type} → Variants α → Prop
  | _, .nil => True
  | _, .variant _ fields rest => fields.IsPlain ∧ rest.IsPlain

theorem Fields.find?_lastWins (name : String) (members : List (String × Json)) (default : Option α)
    (decode : Json → Option α) :
    find? [name] (Json.membersLastWin members) default decode =
      match (Json.object members).member? name with
      | none => default
      | some value => decode value.lastWins := by
  rw [find?, Json.contains_singleton, Json.filter_membersLastWin_eq]
  cases (Json.object members).member? name <;> rfl

theorem Schema.decode_lastWins_eq_some_iff (d : Dialect) {schema : Schema α} {default : Option α}
    (h : schema.IsPlain default) {value : Json} {a : α} :
    schema.decode d value.lastWins = some a ↔ schema.encode a = some value := by
  match schema, default, a, h with
  | .text, _, s, _ => cases value <;> simp [decode, encode, Json.lastWins, eq_comm]
  | .flag, _, b, _ => cases value <;> simp [decode, encode, Json.lastWins, eq_comm]

theorem Schema.default_eq_some_iff {schema : Schema α} {default : Option α}
    (h : schema.IsPlain default) {a : α} :
    default = some a ↔ ∃ value, schema.encode a = some value ∧ value.isDefault := by
  match schema, default, a, h with
  | .text, _, s, h => cases h; simp [encode, Json.isDefault, eq_comm]
  | .flag, _, b, h => cases h; simp [encode, Json.isDefault, eq_comm]

theorem Schema.find?_eq_some_iff (d : Dialect) {schema : Schema α} {default : Option α}
    (h : schema.IsPlain default) {name : String} {members : List (String × Json)} {a : α} :
    Fields.find? [name] (Json.membersLastWin members) default (schema.decode d) = some a ↔
      ∃ value, schema.encode a = some value ∧ (Json.object members).Shows (name, value) := by
  rw [Fields.find?_lastWins]
  simp only [Json.Shows]
  cases hm : (Json.object members).member? name with
  | none => simpa using default_eq_some_iff h
  | some value => simpa [eq_comm] using decode_lastWins_eq_some_iff d h

/-! ## Records and unions -/

theorem Fields.encode_field_eq_some_iff {name : String} {others : List String} {default : Option α}
    {schema : Schema α} {rest : Fields β} {a : α} {b : β} {own : List (String × Json)} :
    (Fields.field name others default schema rest).encode (a, b) = some own ↔
      ∃ value own', schema.encode a = some value ∧ rest.encode b = some own' ∧
        own = (name, value) :: own' := by
  rw [Fields.encode]
  cases schema.encode a <;> cases rest.encode b <;> simp [eq_comm]

theorem Fields.decode_field_eq_some_iff (d : Dialect) {name : String} {others : List String}
    {default : Option α} {schema : Schema α} {rest : Fields β} {a : α} {b : β}
    {members : List (String × Json)} :
    (Fields.field name others default schema rest).decode d members = some (a, b) ↔
      find? (name :: others) members default (schema.decode d) = some a ∧
        rest.decode d members = some b := by
  rw [Fields.decode]
  cases find? (name :: others) members default (schema.decode d) <;>
    cases rest.decode d members <;> simp

/-- A plain record is read as the one that would be written as members that the object shows. -/
theorem Fields.decode_eq_some_iff (d : Dialect) {α : Type} {fields : Fields α} {a : α}
    {members : List (String × Json)} (h : fields.IsPlain) :
    fields.decode d (Json.membersLastWin members) = some a ↔
      ∃ own, fields.encode a = some own ∧ ∀ m ∈ own, (Json.object members).Shows m := by
  match fields, a, h with
  | .nil, _, _ => simp [decode, encode]
  | .field name others default schema rest, (a, b), h =>
    obtain ⟨rfl, hs, hr⟩ := h
    rw [decode_field_eq_some_iff, Schema.find?_eq_some_iff d hs, Fields.decode_eq_some_iff d hr]
    simp only [encode_field_eq_some_iff]
    constructor
    · rintro ⟨⟨value, hv, hm⟩, own, ho, hown⟩
      exact ⟨_, ⟨value, own, hv, ho, rfl⟩, List.forall_mem_cons.mpr ⟨hm, hown⟩⟩
    · rintro ⟨_, ⟨value, own, hv, ho, rfl⟩, hall⟩
      obtain ⟨hm, hown⟩ := List.forall_mem_cons.mp hall
      exact ⟨⟨value, hv, hm⟩, own, ho, hown⟩

theorem Variants.mem_names_of_encode {α : Type} {variants : Variants α} {tag name : String} {a : α}
    {own : List (String × Json)} (h : variants.encode tag a = some ((tag, .string name) :: own)) :
    name ∈ variants.names := by
  match variants, a, h with
  | .variant name' fields rest, .inl a, h =>
    rw [Variants.encode, Option.map_eq_some_iff] at h
    obtain ⟨_, -, h⟩ := h
    cases h
    exact List.mem_cons_self
  | .variant _ _ rest, .inr b, h =>
    rw [Variants.encode] at h
    exact List.mem_cons_of_mem _ (mem_names_of_encode h)

/-- A plain variant is read under its own name, as the value that would be written as members that
the object shows. -/
theorem Variants.decode_eq_some_iff (d : Dialect) {α : Type} {variants : Variants α} {tag : String}
    (hw : variants.WellFormed tag) (h : variants.IsPlain) {chosen : String} {a : α}
    {members : List (String × Json)} :
    variants.decode d chosen (.members (Json.membersLastWin members)) = some a ↔
      ∃ own, variants.encode tag a = some ((tag, .string chosen) :: own) ∧
        ∀ m ∈ own, (Json.object members).Shows m := by
  match variants, a, hw, h with
  | .variant name fields rest, .inl a, _, h =>
    have hf : fields.decode d (Json.membersLastWin members) = some a ↔
        ∃ own, fields.encode a = some own ∧ ∀ m ∈ own, (Json.object members).Shows m :=
      Fields.decode_eq_some_iff d h.1
    rw [Variants.decode, Variants.encode]
    split
    · rename_i hc
      subst hc
      simp [hf]
    · rename_i hc
      simp [Ne.symm hc]
  | .variant name fields rest, .inr b, hw, h =>
    obtain ⟨hn, -, -, hw⟩ := hw
    have hr : rest.decode d chosen (.members (Json.membersLastWin members)) = some b ↔
        ∃ own, rest.encode tag b = some ((tag, .string chosen) :: own) ∧
          ∀ m ∈ own, (Json.object members).Shows m :=
      Variants.decode_eq_some_iff d hw h.2
    rw [Variants.decode, Variants.encode, ← hr]
    split
    · rename_i hc
      subst hc
      have hb : rest.decode d chosen (.members (Json.membersLastWin members)) ≠ some b := by
        intro hd
        obtain ⟨own, ho, -⟩ := hr.mp hd
        exact hn (mem_names_of_encode ho)
      simpa using hb
    · simp

/-- The name of the variant is the text under the tag. -/
theorem Variants.decodeTagged_eq_some_iff (d : Dialect) {variants : Variants α} {tag : String}
    (hw : variants.WellFormed tag) (h : variants.IsPlain) {a : α} {members : List (String × Json)} :
    variants.decodeTagged d tag (.object (Json.membersLastWin members)) = some a ↔
      ∃ name own, (Json.object members).member? tag = some (.string name) ∧
        variants.encode tag a = some ((tag, .string name) :: own) ∧
          ∀ m ∈ own, (Json.object members).Shows m := by
  rw [decodeTagged, Json.filter_membersLastWin_eq]
  cases hm : (Json.object members).member? tag with
  | none => simp
  | some value =>
    cases value with
    | string name => simp [Json.lastWins, Variants.decode_eq_some_iff d hw h]
    | null | bool | integer | decimal | array | object | unrepresentable => simp [Json.lastWins]

/-! ## Open unions -/

section OpenUnion

variable {tag : String} {variants : Variants β} {parts : α → β ⊕ String} {build : β ⊕ String → α}
  {hb : ∀ a, build (parts a) = a} {value : Json}

/-- Whether a value has a text under the tag that is no variant's name. -/
def Json.IsUnlisted (value : Json) (tag : String) (names : List String) (name : String) : Prop :=
  value.member? tag = some (.string name) ∧ name ∉ names

theorem Json.IsUnlisted.eq {names : List String} {name name' : String}
    (h : value.IsUnlisted tag names name) (h' : value.IsUnlisted tag names name') :
    name = name' := by
  have he := h.1.symm.trans h'.1
  cases he
  rfl

theorem Schema.decode_openUnion_of_not_isReadable (d : Dialect) (h : value.isReadable = false) :
    (Schema.openUnion tag variants parts build hb).decode d value = none := by
  rw [Schema.decode, if_neg (Bool.eq_false_iff.mp h)]

theorem Schema.decode_openUnion_of_isUnlisted (d : Dialect) {name : String}
    (hr : value.isReadable = true) (h : value.IsUnlisted tag variants.names name) :
    (Schema.openUnion tag variants parts build hb).decode d value = some (build (.inr name)) := by
  have hn : variants.names.contains name = false := by simpa using h.2
  rw [Schema.decode, if_pos hr, h.1]
  simp only [hn, Bool.false_eq_true, ite_false]

theorem Schema.decode_openUnion_of_listed (d : Dialect) (hr : value.isReadable = true)
    (h : ¬ ∃ name, value.IsUnlisted tag variants.names name) :
    (Schema.openUnion tag variants parts build hb).decode d value =
      (variants.decodeTagged d tag value.lastWins).map fun b => build (.inl b) := by
  rw [Schema.decode, if_pos hr]
  split
  · rename_i name hm
    have hn : name ∈ variants.names := Decidable.byContradiction fun hn => h ⟨name, hm, hn⟩
    simp only [List.contains_iff_mem.mpr hn, ite_true]
  · rfl

end OpenUnion

end DeploymentConfig
