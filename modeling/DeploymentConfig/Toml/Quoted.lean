import DeploymentConfig.Text.Numeral

/-!
# Quoted text in TOML

Four kinds: basic text between `"` knows escapes, literal text between `'` does
not, and each may run over several lines between tripled quotes. Each reader
starts behind the opening quotes and gives the text and what follows the closing
ones.

In a text of several lines a line break is one line feed, whichever way it is
written; the first one, right behind the opening quotes, does not count. One or
two quotes may stand right before the three that close the text.
-/

namespace DeploymentConfig.Toml

/-- Whether a character may stand in a line: all but the control characters, the tab apart. -/
def isPrintable (c : Char) : Bool :=
  c = '\t' || (0x20 ≤ c.toNat && c.toNat ≠ 0x7F)

/-- A text that has been read, and what follows it. -/
abbrev Split := Option (List Char × List Char)

/-- Puts a character in front of a text that has been read. -/
def Split.cons (c : Char) (s : Split) : Split :=
  s.map fun (text, rest) => (c :: text, rest)

namespace Quoted

/-- The character of a one-letter escape. -/
def short? : Char → Option Char
  | 'b' => some '\x08'
  | 't' => some '\t'
  | 'n' => some '\n'
  | 'f' => some '\x0c'
  | 'r' => some '\r'
  | '"' => some '"'
  | '\\' => some '\\'
  | _ => none

/-- The character whose code point some hexadecimal digits write. -/
def scalar? (digits : List Char) : Option Char :=
  (Text.natural? 16 digits).bind fun n =>
    if h : n.isValidChar then some (Char.ofNatAux n h) else none

/-- Basic text on one line. -/
def basic? : List Char → Split
  | [] => none
  | '\\' :: 'u' :: a :: b :: c :: d :: cs =>
    (scalar? [a, b, c, d]).bind fun char => (basic? cs).cons char
  | '\\' :: 'U' :: a :: b :: c :: d :: e :: f :: g :: h :: cs =>
    (scalar? [a, b, c, d, e, f, g, h]).bind fun char => (basic? cs).cons char
  | '\\' :: c :: cs => (short? c).bind fun char => (basic? cs).cons char
  | c :: cs =>
    if c = '"' then some ([], cs)
    else if c ≠ '\\' ∧ isPrintable c then (basic? cs).cons c
    else none

/-- Literal text on one line. -/
def literal? : List Char → Split
  | [] => none
  | c :: cs =>
    if c = '\'' then some ([], cs)
    else if isPrintable c then (literal? cs).cons c
    else none

/-- What follows three quotes in a row: the end of the text, with up to two quotes that belong to
it. -/
def closing? (quote : Char) : List Char → Split
  | a :: b :: c :: cs =>
    if a = quote then
      if b = quote then if c = quote then none else some ([quote, quote], c :: cs)
      else some ([quote], b :: c :: cs)
    else some ([], a :: b :: c :: cs)
  | [a, b] =>
    if a = quote then if b = quote then some ([quote, quote], []) else some ([quote], [b])
    else some ([], [a, b])
  | [a] => if a = quote then some ([quote], []) else some ([], [a])
  | [] => some ([], [])

/-- Where the reader of a basic text over several lines stands. -/
inductive Place where
  | text
  /-- Behind a backslash at the end of a line, where only white space may follow. -/
  | lineEnd
  /-- In the white space behind such a line, which is skipped. -/
  | indent

/-- The place behind a line break that is skipped. -/
def Place.after : List Char → Place
  | ' ' :: _ | '\t' :: _ | '\n' :: _ | '\r' :: '\n' :: _ => .indent
  | _ => .text

/-- Basic text over several lines. -/
def basicLines? : Place → List Char → Split
  | .text, '"' :: '"' :: '"' :: cs => closing? '"' cs
  | .text, '\\' :: 'u' :: a :: b :: c :: d :: cs =>
    (scalar? [a, b, c, d]).bind fun char => (basicLines? .text cs).cons char
  | .text, '\\' :: 'U' :: a :: b :: c :: d :: e :: f :: g :: h :: cs =>
    (scalar? [a, b, c, d, e, f, g, h]).bind fun char => (basicLines? .text cs).cons char
  | .text, '\\' :: c :: cs =>
    if c = ' ' ∨ c = '\t' ∨ c = '\n' ∨ c = '\r' then basicLines? .lineEnd (c :: cs)
    else (short? c).bind fun char => (basicLines? .text cs).cons char
  | .text, '\r' :: '\n' :: cs => (basicLines? .text cs).cons '\n'
  | .text, c :: cs =>
    if c = '\n' ∨ (c ≠ '\\' ∧ isPrintable c) then (basicLines? .text cs).cons c else none
  | .lineEnd, '\r' :: '\n' :: cs => basicLines? (.after cs) cs
  | .lineEnd, c :: cs =>
    if c = '\n' then basicLines? (.after cs) cs
    else if c = ' ' ∨ c = '\t' then basicLines? .lineEnd cs
    else none
  | .indent, '\r' :: '\n' :: cs => basicLines? (.after cs) cs
  | .indent, _ :: cs => basicLines? (.after cs) cs
  | _, [] => none

/-- Literal text over several lines. -/
def literalLines? : List Char → Split
  | [] => none
  | '\'' :: '\'' :: '\'' :: cs => closing? '\'' cs
  | '\r' :: '\n' :: cs => (literalLines? cs).cons '\n'
  | c :: cs => if c = '\n' ∨ isPrintable c then (literalLines? cs).cons c else none

/-- Drops the line break right behind the opening quotes. -/
def dropLineBreak : List Char → List Char
  | '\r' :: '\n' :: cs | '\n' :: cs => cs
  | cs => cs

/-- A quoted text of either kind, on one line. -/
def ofLine? : List Char → Split
  | '"' :: cs => basic? cs
  | '\'' :: cs => literal? cs
  | _ => none

/-- A quoted text of any kind. -/
def ofChars? : List Char → Split
  | '"' :: '"' :: '"' :: cs => basicLines? .text (dropLineBreak cs)
  | '\'' :: '\'' :: '\'' :: cs => literalLines? (dropLineBreak cs)
  | cs => ofLine? cs

end Quoted

end DeploymentConfig.Toml
