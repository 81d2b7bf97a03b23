import DeploymentConfig.Json.Basic

/-!
# Tables under construction

The statements of a TOML text fill in one table. What a later statement may
still add to depends on how a table came about (`Origin`), so a table under
construction keeps that in mind:

* a header opens a table once, but may open one that other headers imply;
* a dotted key adds to the table of other dotted keys, and to no table that a
  header opened;
* a value, inline tables among them, is closed.
-/

namespace DeploymentConfig.Toml

/-- How a table came about. -/
inductive Origin where
  /-- It has a header, or is an item of an array of tables. -/
  | header
  /-- The header of another table passes through it. -/
  | implied
  /-- A dotted key passes through it. -/
  | dotted
  deriving DecidableEq

inductive Node where
  | value (value : Json)
  | table (origin : Origin) (members : List (String × Node))
  /-- An array of tables, last item first. -/
  | tables (items : List (List (String × Node)))

abbrev Members := List (String × Node)

/-- Changes the member under a key, which may be new. -/
def alter (key : String) (change : Option Node → Option Node) : Members → Option Members
  | [] => (change none).map fun node => [(key, node)]
  | (name, node) :: members =>
    if name = key then (change (some node)).map fun node => (name, node) :: members
    else (alter key change members).map ((name, node) :: ·)

/-- Changes the members of a table that is being passed through: those of a table, or of the last
item of an array of tables. A table that is not there is made. -/
def enter (origin : Origin) (change : Members → Option Members) : Option Node → Option Node
  | none => (change []).map (.table origin)
  | some (.table origin members) => (change members).map (.table origin)
  | some (.tables (item :: items)) => (change item).map fun item => .tables (item :: items)
  | some (.tables []) => none
  | some (.value _) => none

/-- Adds a value under a key with the tables before it. -/
def insert (node : Node) (members : Members) : List String → Option Members
  | [] => none
  | [key] => alter key (fun | none => some node | some _ => none) members
  | table :: key :: path =>
    alter table (fun
      | some (.table .header _) => none
      | some (.table .implied inner) =>
        if path.isEmpty then none else (insert node inner (key :: path)).map (.table .implied)
      | some (.tables (item :: items)) =>
        if path.isEmpty then none
        else (insert node item (key :: path)).map fun item => .tables (item :: items)
      | other => enter .dotted (insert node · (key :: path)) other) members

/-- Opens the table of a header. -/
def openTable (members : Members) : List String → Option Members
  | [] => none
  | [key] =>
    alter key (fun
      | none => some (.table .header [])
      | some (.table .implied inner) => some (.table .header inner)
      | _ => none) members
  | key :: path => alter key (enter .implied (openTable · path)) members

/-- Opens a new item of the array of tables of a header. -/
def openItem (members : Members) : List String → Option Members
  | [] => none
  | [key] =>
    alter key (fun
      | none => some (.tables [[]])
      | some (.tables items) => some (.tables ([] :: items))
      | _ => none) members
  | key :: path => alter key (enter .implied (openItem · path)) members

/-- Changes the members of the table that a header has opened. -/
def within (change : Members → Option Members) (members : Members) : List String → Option Members
  | [] => change members
  | key :: path => alter key (enter .implied (within change · path)) members

mutual

/-- The value of a node, complete or not. -/
def Node.json : Node → Json
  | .value value => value
  | .table _ members => .object (membersJson members)
  | .tables items => .array (itemsJson items).reverse

def membersJson : Members → List (String × Json)
  | [] => []
  | (key, node) :: members => (key, node.json) :: membersJson members

def itemsJson : List Members → List Json
  | [] => []
  | item :: items => .object (membersJson item) :: itemsJson items

end

end DeploymentConfig.Toml
