import DeploymentConfig.Json.Token

/-!
# Reading JSON

`Json.ofText?` reads a text strictly: one value, white space around it, nothing
else. Tokens move a `Reading` on, which keeps the containers that are open as a
stack of frames, so that nesting of any depth is read. A container at depth
`maxDepth` or below is checked but not held.
-/

namespace DeploymentConfig.Json

/-- The depth from which containers are not held. The outermost one has depth 1. -/
def maxDepth : Nat :=
  128

/-- An open container, its parts latest first. -/
inductive Frame where
  | items (done : List Json)
  /-- An object between two members. -/
  | members (done : List (Option String × Json))
  /-- An object in the middle of a member, whose name has been read. -/
  | member (done : List (Option String × Json)) (name : Option String)

/-- What the next token has to be. -/
inductive Expected where
  /-- A value, or the end of an array that has just been opened. -/
  | value (closable : Bool)
  /-- A name, or the end of an object that has just been opened. -/
  | name (closable : Bool)
  | colon
  /-- A comma, or the end of the container. -/
  | separator
  /-- The end of the text. -/
  | nothing (value : Json)

/-- How far the tokens have been read: the open containers, innermost first, and their number. -/
structure Reading where
  frames : List Frame
  depth : Nat
  expected : Expected

namespace Reading

def start : Reading :=
  ⟨[], 0, .value false⟩

/-- Puts a value that is complete into the innermost container. -/
def deliver? (frames : List Frame) (depth : Nat) (value : Json) : Option Reading :=
  match frames with
  | [] => some ⟨[], depth, .nothing value⟩
  | .items done :: frames => some ⟨.items (value :: done) :: frames, depth, .separator⟩
  | .member done name :: frames =>
    some ⟨.members ((name, value) :: done) :: frames, depth, .separator⟩
  | .members _ :: _ => none

/-- An object from its members, latest first; without value if some name is. -/
def object (done : List (Option String × Json)) : Json :=
  match done.reverse.mapM fun (name, value) => name.map (·, value) with
  | some members => .object members
  | none => .unrepresentable

/-- Closes the innermost container, if the token is its end. -/
def close? (r : Reading) (token : Token) : Option Reading :=
  let held (value : Json) := if r.depth < maxDepth then value else .unrepresentable
  match r.frames, token with
  | .items done :: frames, .closeArray => deliver? frames (r.depth - 1) (held (.array done.reverse))
  | .members done :: frames, .closeObject => deliver? frames (r.depth - 1) (held (object done))
  | _, _ => none

def next? (r : Reading) (token : Token) : Option Reading :=
  match r.expected, token with
  | .value _, .openArray => some ⟨.items [] :: r.frames, r.depth + 1, .value true⟩
  | .value _, .openObject => some ⟨.members [] :: r.frames, r.depth + 1, .name true⟩
  | .value _, .text value => deliver? r.frames r.depth (value.elim .unrepresentable .string)
  | .value _, .scalar value => deliver? r.frames r.depth value
  | .value true, token => r.close? token
  | .name _, .text name =>
    match r.frames with
    | .members done :: frames => some ⟨.member done name :: frames, r.depth, .colon⟩
    | _ => none
  | .name true, token => r.close? token
  | .colon, .colon => some { r with expected := .value false }
  | .separator, .comma =>
    match r.frames with
    | .items _ :: _ => some { r with expected := .value false }
    | _ => some { r with expected := .name false }
  | .separator, token => r.close? token
  | _, _ => none

/-- The value, if the text is complete. -/
def result? (r : Reading) : Option Json :=
  match r.expected with
  | .nothing value => some value
  | _ => none

end Reading

def ofTokens? (tokens : List Token) : Option Json :=
  (tokens.foldlM Reading.next? .start).bind Reading.result?

/-- The value that a text writes. -/
def ofText? (s : String) : Option Json :=
  (Token.ofText? s).bind ofTokens?

end DeploymentConfig.Json
