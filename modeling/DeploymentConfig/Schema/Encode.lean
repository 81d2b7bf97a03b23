import DeploymentConfig.Schema.Basic

/-!
# Writing by a schema

Every field is written, under its own name and in order, an elided one without
value apart; the name of a union's variant comes first. Only a name outside the
variants of an open union has no written form (`Schema.encode_openUnion_inr`).
-/

namespace DeploymentConfig

mutual

/-- The JSON value that stands for a value. -/
def Schema.encode : {α : Type} → Schema α → α → Option Json
  | _, .text, s => some (.string s)
  | _, .flag, b => some (.bool b)
  | _, .integer, n => some (.integer n.toInt)
  | _, .optional _, none => some .null
  | _, .optional item, some a => item.encode a
  | _, .list item, as => (as.mapM item.encode).map .array
  | _, .choice nameOf _, a => some (.string (nameOf a))
  | _, .record fields parts _ _, a => (fields.encode (parts a)).map .object
  | _, .union tag variants parts _ _, a => (variants.encode tag (parts a)).map .object
  | _, .openUnion tag variants parts _ _, a =>
    match parts a with
    | .inl b => (variants.encode tag b).map .object
    | .inr _ => none

/-- The members that stand for a record. -/
def Fields.encode : {α : Type} → Fields α → α → Option (List (String × Json))
  | _, .nil, _ => some []
  | _, .field name _ _ schema rest, (a, b) => do
    let value ← schema.encode a
    let members ← rest.encode b
    some ((name, value) :: members)
  | _, .elided _ _ rest, (none, b) => rest.encode b
  | _, .elided name schema rest, (some a, b) => do
    let value ← schema.encode a
    let members ← rest.encode b
    some ((name, value) :: members)

/-- The members that stand for a value of a union: the variant's name, then its fields. -/
def Variants.encode : {α : Type} → String → Variants α → α → Option (List (String × Json))
  | _, _, .nil, a => nomatch a
  | _, tag, .variant name fields _, .inl a =>
    (fields.encode a).map ((tag, .string name) :: ·)
  | _, tag, .variant _ _ rest, .inr b => rest.encode tag b

end

theorem Schema.encode_openUnion_inr {α β : Type} {tag : String} {variants : Variants β}
    {parts : α → β ⊕ String} {build : β ⊕ String → α} {h : ∀ a, build (parts a) = a}
    {a : α} {name : String} (ha : parts a = .inr name) :
    (Schema.openUnion tag variants parts build h).encode a = none := by
  simp [Schema.encode, ha]

end DeploymentConfig
