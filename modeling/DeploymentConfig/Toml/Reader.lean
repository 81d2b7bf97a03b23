import DeploymentConfig.Toml.Quoted
import DeploymentConfig.Toml.Scalar
import DeploymentConfig.Toml.Table

/-!
# Reading TOML

`Toml.ofText?` reads a configuration text of version 1.0 into one object. A text
is a row of lines, each empty, a header, or a key with its value; comments stand
at the end of a line. Only arrays and text in tripled quotes run over several
lines.

Values nest, and keys are dotted, less than `maxDepth` deep. A byte order mark
in front of the text is skipped.
-/

namespace DeploymentConfig.Toml

/-- The depth that values and keys may not reach. -/
def maxDepth : Nat :=
  80

/-! ## Space -/

def skipSpaces (cs : List Char) : List Char :=
  cs.dropWhile fun c => c = ' ' || c = '\t'

/-- Skips a comment, if there is one. Refuses control characters in it. -/
def comment? : List Char → Option (List Char)
  | '#' :: cs =>
    match cs.dropWhile isPrintable with
    | [] => some []
    | '\n' :: rest => some ('\n' :: rest)
    | '\r' :: '\n' :: rest => some ('\r' :: '\n' :: rest)
    | _ => none
  | cs => some cs

/-- Skips the rest of a line, on which only a comment may stand, and its end. -/
def lineEnd? (cs : List Char) : Option (List Char) :=
  (comment? (skipSpaces cs)).bind fun
    | [] => some []
    | '\n' :: cs | '\r' :: '\n' :: cs => some cs
    | _ => none

/-- Skips spaces, comments and line breaks, over at most `fuel` lines. -/
def skipLines? : Nat → List Char → Option (List Char)
  | 0, _ => none
  | fuel + 1, cs =>
    (comment? (skipSpaces cs)).bind fun
      | '\n' :: cs | '\r' :: '\n' :: cs => skipLines? fuel cs
      | cs => some cs

/-! ## Keys -/

def isBareKeyChar (c : Char) : Bool :=
  c.isAlphanum || c = '_' || c = '-'

/-- One part of a key: bare, or quoted on one line. -/
def keyPart? (cs : List Char) : Split :=
  match cs.span isBareKeyChar with
  | ([], _) => Quoted.ofLine? cs
  | split => some split

/-- A key of at most `fuel` parts with points between them. -/
def key? : Nat → List Char → Option (List String × List Char)
  | 0, _ => none
  | fuel + 1, cs =>
    (keyPart? (skipSpaces cs)).bind fun (part, cs) =>
      match skipSpaces cs with
      | '.' :: cs => (key? fuel cs).map fun (parts, cs) => (.ofList part :: parts, cs)
      | cs => some ([.ofList part], cs)

/-- A key that is not too long, as it stands in front of a value or in a header. -/
def path? (cs : List Char) : Option (List String × List Char) :=
  key? (maxDepth - 1) cs

/-! ## Values -/

mutual

/-- A value, at most `depth` containers deep, and what follows it. The fuel bounds the length of
what is read. -/
def value? (depth : Nat) : Nat → List Char → Option (Json × List Char)
  | 0, _ => none
  | fuel + 1, cs =>
    match cs with
    | '[' :: cs =>
      if depth = 0 then none
      else (skipLines? fuel cs).bind fun cs =>
        (items? (depth - 1) fuel cs).map fun (items, cs) => (.array items, cs)
    | '\x7b' :: cs =>
      if depth = 0 then none
      else (inline? (depth - 1) fuel (skipSpaces cs)).map fun (members, cs) =>
        (.object (membersJson members), cs)
    | '"' :: _ | '\'' :: _ =>
      (Quoted.ofChars? cs).map fun (text, cs) => (.string (.ofList text), cs)
    | cs =>
      let (word, cs) := word cs
      (ofWord? word).map (·, cs)

/-- The items of an array up to its end. A comma may follow the last one. -/
def items? (depth : Nat) : Nat → List Char → Option (List Json × List Char)
  | 0, _ => none
  | _, ']' :: cs => some ([], cs)
  | fuel + 1, cs => do
    let (item, cs) ← value? depth fuel cs
    match ← skipLines? fuel cs with
    | ',' :: cs => do
      let cs ← skipLines? fuel cs
      let (items, cs) ← items? depth fuel cs
      some (item :: items, cs)
    | ']' :: cs => some ([item], cs)
    | _ => none

/-- The members of an inline table up to its end. -/
def inline? (depth : Nat) : Nat → List Char → Option (Members × List Char)
  | 0, _ => none
  | _, '\x7d' :: cs => some ([], cs)
  | fuel + 1, cs => pairs? depth fuel [] cs

/-- The pairs of an inline table, of which the first ones have been read. -/
def pairs? (depth : Nat) : Nat → Members → List Char → Option (Members × List Char)
  | 0, _, _ => none
  | fuel + 1, members, cs => do
    let (path, cs) ← path? cs
    match cs with
    | '=' :: cs => do
      let (value, cs) ← value? depth fuel (skipSpaces cs)
      let members ← insert (.value value) members path
      match skipSpaces cs with
      | ',' :: cs => pairs? depth fuel members cs
      | '\x7d' :: cs => some (members, cs)
      | _ => none
    | _ => none

end

/-! ## Lines -/

/-- The tables read so far, and the header under which the next pairs stand. -/
structure State where
  root : Members
  header : List String

/-- Reads a header behind its opening bracket. -/
def header? (s : State) : List Char → Option (State × List Char)
  | '[' :: cs => do
    let (path, cs) ← path? cs
    match cs with
    | ']' :: ']' :: cs => do
      let root ← openItem s.root path
      some (⟨root, path⟩, cs)
    | _ => none
  | cs => do
    let (path, cs) ← path? cs
    match cs with
    | ']' :: cs => do
      let root ← openTable s.root path
      some (⟨root, path⟩, cs)
    | _ => none

/-- Reads a key and its value. -/
def pair? (fuel : Nat) (s : State) (cs : List Char) : Option (State × List Char) := do
  let (path, cs) ← path? cs
  match cs with
  | '=' :: cs => do
    let (value, cs) ← value? (maxDepth - 1) fuel (skipSpaces cs)
    let root ← within (insert (.value value) · path) s.root s.header
    some ({ s with root }, cs)
  | _ => none

/-- Reads what stands on a line. -/
def line? (fuel : Nat) (s : State) (cs : List Char) : Option (State × List Char) :=
  match skipSpaces cs with
  | [] => some (s, [])
  | '#' :: cs => some (s, '#' :: cs)
  | '\n' :: cs => some (s, '\n' :: cs)
  | '\r' :: cs => some (s, '\r' :: cs)
  | '[' :: cs => header? s cs
  | cs => pair? fuel s cs

/-- Reads lines up to the end of the text. -/
def lines? : Nat → State → List Char → Option State
  | _, s, [] => some s
  | 0, _, _ => none
  | fuel + 1, s, cs => do
    let (s, cs) ← line? fuel s cs
    lines? fuel s (← lineEnd? cs)

/-- The object that a text writes. -/
def ofText? (text : String) : Option Json :=
  let cs := match text.toList with
    | '\uFEFF' :: cs => cs
    | cs => cs
  (lines? (cs.length + 1) ⟨[], []⟩ cs).map fun s => .object (membersJson s.root)

end DeploymentConfig.Toml
