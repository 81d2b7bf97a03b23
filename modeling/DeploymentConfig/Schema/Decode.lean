import DeploymentConfig.Schema.Basic

/-!
# Reading by a schema

A record is read from an object, whose members may stand in any order and among
others that the record does not know, or from an array of its fields in their
order. A field found twice, under whichever of its names, is refused; one that
is not found takes its default (`Fields.find?`). A `Dialect` holds the two
points on which the text formats differ.

A union is read whole before its variant is chosen, so it refuses what no
reader can hold even where a record would skip it.
-/

namespace DeploymentConfig

/-- What a text format admits beside the form that is written. -/
structure Dialect where
  /-- Whether an array may hold more items than its record has fields. -/
  surplus : Bool
  /-- What may stand for nothing: a choice is also read from an object whose one member has the
  chosen name and holds nothing. -/
  isNothing : Json → Bool

namespace Dialect

def json : Dialect where
  surplus := false
  isNothing
    | .null => true
    | _ => false

def toml : Dialect where
  surplus := true
  isNothing
    | .array [] | .object [] => true
    | _ => false

end Dialect

/-- The fields of a record by name, or in their order. -/
inductive Content where
  | members (members : List (String × Json))
  | items (items : List Json)

/-- What `decode` makes of the members with one of the names, of which there may be one at most. -/
def Fields.find? {α : Type} (names : List String) (members : List (String × Json))
    (default : Option α) (decode : Json → Option α) : Option α :=
  match members.filter (names.contains ·.1) with
  | [] => default
  | [(_, value)] => decode value
  | _ => none

mutual

/-- The value that a JSON value stands for. -/
def Schema.decode (d : Dialect) : {α : Type} → Schema α → Json → Option α
  | _, .text, .string s => some s
  | _, .text, _ => none
  | _, .flag, .bool b => some b
  | _, .flag, _ => none
  | _, .integer, .integer n =>
    if Int32.minValue.toInt ≤ n ∧ n ≤ Int32.maxValue.toInt then some (.ofInt n) else none
  | _, .integer, _ => none
  | _, .optional _, .null => some none
  | _, .optional item, value => (item.decode d value).map some
  | _, .list item, .array items => items.mapM (item.decode d)
  | _, .list _, _ => none
  | _, .choice nameOf values, .string name => values.find? (nameOf · = name)
  | _, .choice nameOf values, .object [(name, content)] =>
    if d.isNothing content then values.find? (nameOf · = name) else none
  | _, .choice _ _, _ => none
  | _, .record fields _ build _, .object members => (fields.decode d members).map build
  | _, .record fields _ build _, .array items => (fields.decodeItems d items).map build
  | _, .record .., _ => none
  | _, .union tag variants _ build _, value =>
    if value.isReadable then (variants.decodeTagged d tag value).map build else none
  | _, .openUnion tag variants _ build _, value =>
    if value.isReadable then
      match value.member? tag with
      | some (.string name) =>
        if variants.names.contains name then
          (variants.decodeTagged d tag value.lastWins).map (build <| .inl ·)
        else some (build (.inr name))
      | _ => (variants.decodeTagged d tag value.lastWins).map (build <| .inl ·)
    else none

def Fields.decode (d : Dialect) : {α : Type} → Fields α → List (String × Json) → Option α
  | _, .nil, _ => some ()
  | _, .field name others default schema rest, members => do
    let a ← Fields.find? (name :: others) members default (schema.decode d)
    let b ← rest.decode d members
    some (a, b)
  | _, .elided name schema rest, members => do
    let a ← Fields.find? [name] members (some none) fun
      | .null => some none
      | value => (schema.decode d value).map some
    let b ← rest.decode d members
    some (a, b)

/-- Reads the fields in their order. Those that have a default may be missing at the end. -/
def Fields.decodeItems (d : Dialect) : {α : Type} → Fields α → List Json → Option α
  | _, .nil, items => if items.isEmpty || d.surplus then some () else none
  | _, .field _ _ default schema rest, items => do
    let a ← match items with
      | [] => default
      | value :: _ => schema.decode d value
    let b ← rest.decodeItems d items.tail
    some (a, b)
  | _, .elided _ schema rest, items => do
    let a ← match items with
      | [] | .null :: _ => some none
      | value :: _ => (schema.decode d value).map some
    let b ← rest.decodeItems d items.tail
    some (a, b)

/-- Reads a value of a union: an object with the variant's name as a member, or an array with the
variant's name in front. -/
def Variants.decodeTagged (d : Dialect) {α : Type} (variants : Variants α) (tag : String) :
    Json → Option α
  | .object members =>
    match members.filter (·.1 = tag) with
    | [(_, .string name)] => variants.decode d name (.members members)
    | _ => none
  | .array (.string name :: items) => variants.decode d name (.items items)
  | _ => none

/-- Reads the variant with a name. -/
def Variants.decode (d : Dialect) : {α : Type} → Variants α → String → Content → Option α
  | _, .nil, _, _ => none
  | _, .variant name fields rest, chosen, content =>
    if chosen = name then
      match content with
      | .members members => (fields.decode d members).map .inl
      | .items items => (fields.decodeItems d items).map .inl
    else (rest.decode d chosen content).map .inr

end

/-- The value that a JSON value stands for, read as JSON is. -/
def Schema.ofJson? {α : Type} (schema : Schema α) (value : Json) : Option α :=
  schema.decode .json value

end DeploymentConfig
