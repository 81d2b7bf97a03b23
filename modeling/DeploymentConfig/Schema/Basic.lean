import DeploymentConfig.Json.Basic

/-!
# Schemas

A `Schema α` says how the values of a type are written in JSON. It is data: a
value is written by one function of the schema (`Schema.encode`) and read by
another (`Schema.decode`), so that a type's format is stated once.

* a record is a product of fields (`Fields`), each with its names and perhaps a
  default;
* a union is a sum of records (`Variants`), told apart by a member that holds
  the variant's name. An open union keeps a name that no variant has;
* `parts` and `build` carry a structure or an inductive type to that product or
  sum and back, and lose nothing on the way.
-/

namespace DeploymentConfig

mutual

inductive Schema : Type → Type 1 where
  | text : Schema String
  | flag : Schema Bool
  | integer : Schema Int32
  /-- Null, or a value. -/
  | optional {α : Type} (item : Schema α) : Schema (Option α)
  | list {α : Type} (item : Schema α) : Schema (List α)
  /-- One of finitely many values, by its name. -/
  | choice {α : Type} (nameOf : α → String) (values : List α) : Schema α
  | record {α β : Type} (fields : Fields β) (parts : α → β) (build : β → α)
      (build_parts : ∀ a, build (parts a) = a := by intro _; rfl) : Schema α
  | union {α β : Type} (tag : String) (variants : Variants β) (parts : α → β) (build : β → α)
      (build_parts : ∀ a, build (parts a) = a := by intro a; cases a <;> rfl) : Schema α
  /-- A union that keeps a name outside its variants. Such a value is read but not written. -/
  | openUnion {α β : Type} (tag : String) (variants : Variants β) (parts : α → β ⊕ String)
      (build : β ⊕ String → α)
      (build_parts : ∀ a, build (parts a) = a := by intro a; cases a <;> rfl) : Schema α

/-- The fields of a record, in the order in which they are written. -/
inductive Fields : Type → Type 1 where
  | nil : Fields Unit
  /-- A field under its name, which is the one written, or one of its other names. It may be missing
  if it has a default. -/
  | field {α β : Type} (name : String) (others : List String) (default : Option α)
      (schema : Schema α) (rest : Fields β) : Fields (α × β)
  /-- A field that is left out when it has no value. -/
  | elided {α β : Type} (name : String) (schema : Schema α) (rest : Fields β) :
      Fields (Option α × β)

/-- The variants of a union, each a record. -/
inductive Variants : Type → Type 1 where
  | nil : Variants Empty
  | variant {α β : Type} (name : String) (fields : Fields α) (rest : Variants β) :
      Variants (α ⊕ β)

end

namespace Fields

variable {α β : Type}

/-- A field that must be present. -/
abbrev required (name : String) (schema : Schema α) (rest : Fields β) : Fields (α × β) :=
  .field name [] none schema rest

/-- A field that may be missing. -/
abbrev defaulted (name : String) (default : α) (schema : Schema α) (rest : Fields β) :
    Fields (α × β) :=
  .field name [] (some default) schema rest

end Fields

/-- The names of the variants. -/
def Variants.names : {α : Type} → Variants α → List String
  | _, .nil => []
  | _, .variant name _ rest => name :: rest.names

end DeploymentConfig
