import DeploymentConfig.Json.Number
import DeploymentConfig.Json.Quoted

/-!
# JSON tokens

A text is cut into tokens in one pass (`Token.ofText?`): each character moves a
`Scan` on, and `Scan.finish?` closes the last word. White space is the four
characters of the standard; a character of no other kind belongs to a word, and a
word has to be a literal or a number (`Token.ofWord?`).
-/

namespace DeploymentConfig.Json

inductive Token where
  | openArray
  | closeArray
  | openObject
  | closeObject
  | comma
  | colon
  /-- A quoted text, `none` if it holds half a surrogate pair. -/
  | text (value : Option String)
  | scalar (value : Json)

namespace Token

/-- The tokens that are one character. -/
def ofMark? : Char → Option Token
  | '[' => some .openArray
  | ']' => some .closeArray
  | '\x7b' => some .openObject
  | '\x7d' => some .closeObject
  | ',' => some .comma
  | ':' => some .colon
  | _ => none

def ofWord? (cs : List Char) : Option Token :=
  if cs = ['n', 'u', 'l', 'l'] then some (.scalar .null)
  else if cs = ['t', 'r', 'u', 'e'] then some (.scalar (.bool true))
  else if cs = ['f', 'a', 'l', 's', 'e'] then some (.scalar (.bool false))
  else (ofNumber? cs).map .scalar

def ofQuoted? (cs : List Char) : Option Token :=
  (Quoted.units? cs).map fun units => .text ((Quoted.join? units).map .ofList)

def isSpace (c : Char) : Bool :=
  c = ' ' || c = '\n' || c = '\t' || c = '\r'

end Token

/-- What the characters since the last token are part of, latest first. -/
inductive Pending where
  | nothing
  | word (chars : List Char)
  /-- `escaped` after a backslash that the next character belongs to. -/
  | quoted (chars : List Char) (escaped : Bool)

/-- How far a text has been cut: the tokens found, latest first, and the characters since. -/
structure Scan where
  tokens : List Token
  pending : Pending

namespace Scan

def start : Scan :=
  ⟨[], .nothing⟩

/-- Closes the word, if the last characters are one. -/
def finish? (s : Scan) : Option (List Token) :=
  match s.pending with
  | .nothing => some s.tokens
  | .word cs => (Token.ofWord? cs.reverse).map (· :: s.tokens)
  | .quoted .. => none

def next? (s : Scan) (c : Char) : Option Scan :=
  match s.pending with
  | .quoted cs true => some { s with pending := .quoted (c :: cs) false }
  | .quoted cs false =>
    if c = '"' then (Token.ofQuoted? cs.reverse).map (⟨· :: s.tokens, .nothing⟩)
    else some { s with pending := .quoted (c :: cs) (c = '\\') }
  | pending =>
    match Token.ofMark? c with
    | some mark => s.finish?.map (⟨mark :: ·, .nothing⟩)
    | none =>
      if Token.isSpace c then s.finish?.map (⟨·, .nothing⟩)
      else if c = '"' then s.finish?.map (⟨·, .quoted [] false⟩)
      else match pending with
        | .word cs => some { s with pending := .word (c :: cs) }
        | _ => some { s with pending := .word [c] }

end Scan

/-- The tokens of a text, first one first. -/
def Token.ofText? (s : String) : Option (List Token) :=
  ((s.toList.foldlM Scan.next? .start).bind Scan.finish?).map List.reverse

end DeploymentConfig.Json
