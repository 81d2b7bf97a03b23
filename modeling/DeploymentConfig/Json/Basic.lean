/-!
# JSON values

A value keeps the members of an object in the order of the text, repetitions
included: what a repetition means is decided by who reads the value. A
record refuses it; a value read for its own sake keeps the last (`lastWins`).

`unrepresentable` stands for a value whose syntax is right but which no reader
can hold. It may be skipped, but not read (`isReadable`).
-/

namespace DeploymentConfig

inductive Json where
  | null
  | bool (value : Bool)
  | integer (value : Int)
  /-- A number with a fraction, an exponent or a negative zero, as written. -/
  | decimal (text : String)
  | string (value : String)
  | array (items : List Json)
  | object (members : List (String × Json))
  /-- A text with half a surrogate pair, a number beyond the largest double, an object with such a
  text among its names, or a container nested too deep. -/
  | unrepresentable

namespace Json

mutual

/-- Whether every part of a value can be held. -/
def isReadable : Json → Bool
  | .unrepresentable => false
  | .array items => areReadable items
  | .object members => membersReadable members
  | _ => true

def areReadable : List Json → Bool
  | [] => true
  | item :: items => item.isReadable && areReadable items

def membersReadable : List (String × Json) → Bool
  | [] => true
  | (_, value) :: members => value.isReadable && membersReadable members

end

mutual

/-- A value in which a repeated name keeps its last member only, at every depth. -/
def lastWins : Json → Json
  | .array items => .array (itemsLastWin items)
  | .object members => .object (membersLastWin members)
  | value => value

def itemsLastWin : List Json → List Json
  | [] => []
  | item :: items => item.lastWins :: itemsLastWin items

def membersLastWin : List (String × Json) → List (String × Json)
  | [] => []
  | (name, value) :: members =>
    if members.any (·.1 = name) then membersLastWin members
    else (name, value.lastWins) :: membersLastWin members

end

/-- The member of an object with a name, the last of them if it is repeated. -/
def member? (name : String) : Json → Option Json
  | .object members => (members.reverse.find? (·.1 = name)).map (·.2)
  | _ => none

end Json

end DeploymentConfig
