import DeploymentConfig.Json.Basic
import DeploymentConfig.Json.Quoted

/-!
# Writing JSON

Two layouts: `compact`, on one line without spaces, and `pretty`, one part a
line with two spaces a level, where an empty container stays on one line. Both
write the members of an object in their order.
-/

namespace DeploymentConfig.Json

mutual

/-- The text of a value on one line. -/
def compact : Json → String
  | .null | .unrepresentable => "null"
  | .bool b => if b then "true" else "false"
  | .integer n => Text.decimal n
  | .decimal text => text
  | .string s => Quoted.quote s
  | .array items => "[" ++ ",".intercalate (compactItems items) ++ "]"
  | .object members => "\x7b" ++ ",".intercalate (compactMembers members) ++ "\x7d"

def compactItems : List Json → List String
  | [] => []
  | item :: items => item.compact :: compactItems items

def compactMembers : List (String × Json) → List String
  | [] => []
  | (name, value) :: members =>
    (Quoted.quote name ++ ":" ++ value.compact) :: compactMembers members

end

/-- A line break and the indentation of a level. -/
def newline (level : Nat) : String :=
  .ofList ('\n' :: .replicate (2 * level) ' ')

/-- A container whose parts stand on lines of their own. -/
def bracketed (first last : String) (level : Nat) (parts : List String) : String :=
  match parts with
  | [] => first ++ last
  | parts =>
    first ++ newline (level + 1) ++ ("," ++ newline (level + 1)).intercalate parts ++ newline level
      ++ last

mutual

/-- The text of a value with one part a line, inside `level` containers. -/
def prettyAt (level : Nat) : Json → String
  | .array items => bracketed "[" "]" level (prettyItems (level + 1) items)
  | .object members => bracketed "\x7b" "\x7d" level (prettyMembers (level + 1) members)
  | value => value.compact

def prettyItems (level : Nat) : List Json → List String
  | [] => []
  | item :: items => item.prettyAt level :: prettyItems level items

def prettyMembers (level : Nat) : List (String × Json) → List String
  | [] => []
  | (name, value) :: members =>
    (Quoted.quote name ++ ": " ++ value.prettyAt level) :: prettyMembers level members

end

/-- The text of a value with one part a line. -/
def pretty (value : Json) : String :=
  value.prettyAt 0

end DeploymentConfig.Json
