import DeploymentConfig.Json.Number

/-!
# Unquoted values in TOML

A boolean, a number or a date is one word. An integer fits 64 bits and may be
written in four bases, with single underscores between digits; a float has a
fraction, an exponent or a name; a date may have a time, and a time a distance
from universal time.

A date has no counterpart in JSON. It becomes an object, so that only a record
is read from it.
-/

namespace DeploymentConfig.Toml

/-! ## Numbers -/

/-- Drops underscores, each of which must stand between two digits. -/
def joinDigits? (isDigit : Char → Bool) : List Char → Option (List Char)
  | [] => none
  | [c] => if isDigit c then some [c] else none
  | c :: '_' :: cs => if isDigit c then (joinDigits? isDigit cs).map (c :: ·) else none
  | c :: cs => if isDigit c then (joinDigits? isDigit cs).map (c :: ·) else none

/-- Decimal digits without a leading zero. -/
def whole? (cs : List Char) : Option (List Char) :=
  match joinDigits? Char.isDigit cs with
  | some ('0' :: _ :: _) => none
  | digits => digits

/-- Splits a sign off. -/
def sign : List Char → Bool × List Char
  | '-' :: cs => (true, cs)
  | '+' :: cs => (false, cs)
  | cs => (false, cs)

/-- A number in a base that is not ten. -/
def based? (base : Nat) (cs : List Char) : Option Int :=
  ((joinDigits? (fun c => (Text.digit? base c).isSome) cs).bind (Text.natural? base)).map Int.ofNat

def integer? (cs : List Char) : Option Int :=
  let value : Option Int := match cs with
    | '0' :: 'x' :: cs => based? 16 cs
    | '0' :: 'o' :: cs => based? 8 cs
    | '0' :: 'b' :: cs => based? 2 cs
    | cs =>
      let (negative, cs) := sign cs
      ((whole? cs).bind (Text.natural? 10)).map fun n => if negative then -n else n
  value.filter fun n => Int64.minValue.toInt ≤ n ∧ n ≤ Int64.maxValue.toInt

/-- Splits at the first character of a kind. -/
def splitAt (p : Char → Bool) (cs : List Char) : List Char × Option (List Char) :=
  match cs.span (!p ·) with
  | (before, _ :: after) => (before, some after)
  | (before, []) => (before, none)

/-- The exponent of a float, 0 if there is none. -/
def exponent? : Option (List Char) → Option Int
  | none => some 0
  | some cs =>
    let (negative, cs) := sign cs
    ((joinDigits? Char.isDigit cs).bind (Text.natural? 10)).map fun n => if negative then -n else n

/-- The fraction of a float. -/
def fraction? : Option (List Char) → Option (List Char)
  | none => some []
  | some cs => joinDigits? Char.isDigit cs

/-- Whether a word is a float. A positive one may not be too large. -/
def isFloat (cs : List Char) : Bool :=
  let (negative, digits) := sign cs
  if digits = ['i', 'n', 'f'] ∨ digits = ['n', 'a', 'n'] then true
  else
    let (mantissa, exponent) := splitAt (fun c => c = 'e' || c = 'E') digits
    let (whole, fraction) := splitAt (· = '.') mantissa
    match whole? whole, fraction? fraction, exponent? exponent with
    | some ws, some fs, some e =>
      (fraction.isSome || exponent.isSome) &&
        (negative || !Json.Number.isInfinite ⟨negative, ws, fs, some e⟩)
    | _, _, _ => false

/-! ## Dates and times -/

/-- Whether two digits write a number within bounds. -/
def isTwoDigits (low high : Nat) (cs : List Char) : Bool :=
  cs.length = 2 && cs.all Char.isDigit && (Text.natural? 10 cs).any fun n => low ≤ n && n ≤ high

def isLeapYear (year : Nat) : Bool :=
  year % 4 = 0 && (year % 100 ≠ 0 || year % 400 = 0)

def daysIn (year month : Nat) : Nat :=
  if month = 2 then if isLeapYear year then 29 else 28
  else if month = 4 ∨ month = 6 ∨ month = 9 ∨ month = 11 then 30
  else 31

/-- Whether ten characters write a day that exists. -/
def isDate (cs : List Char) : Bool :=
  match cs with
  | [y₁, y₂, y₃, y₄, '-', m₁, m₂, '-', d₁, d₂] =>
    match Text.natural? 10 [y₁, y₂, y₃, y₄], Text.natural? 10 [m₁, m₂] with
    | some year, some month =>
      isTwoDigits 1 12 [m₁, m₂] && isTwoDigits 1 (daysIn year month) [d₁, d₂]
    | _, _ => false
  | _ => false

/-- Whether a text is nothing, or a point and digits. -/
def isSecondsFraction : List Char → Bool
  | [] => true
  | '.' :: c :: cs => (c :: cs).all Char.isDigit
  | _ => false

/-- Whether a text is a time of day. A minute may have a leap second. -/
def isTime : List Char → Bool
  | h₁ :: h₂ :: ':' :: m₁ :: m₂ :: ':' :: s₁ :: s₂ :: cs =>
    isTwoDigits 0 23 [h₁, h₂] && isTwoDigits 0 59 [m₁, m₂] && isTwoDigits 0 60 [s₁, s₂]
      && isSecondsFraction cs
  | _ => false

/-- Whether a text is a distance from universal time. -/
def isOffset : List Char → Bool
  | [h₁, h₂, ':', m₁, m₂] => isTwoDigits 0 23 [h₁, h₂] && isTwoDigits 0 59 [m₁, m₂]
  | _ => false

/-- Whether a text is a time of day, perhaps with a distance from universal time. -/
def isZonedTime (cs : List Char) : Bool :=
  match cs.span fun c => c.isDigit || c = ':' || c = '.' with
  | (time, []) => isTime time
  | (time, ['Z']) | (time, ['z']) => isTime time
  | (time, '+' :: offset) | (time, '-' :: offset) => isTime time && isOffset offset
  | _ => false

/-- Whether a word is a date, a time, or both. -/
def isDateTime (cs : List Char) : Bool :=
  if isTime cs then true
  else match cs.splitAt 10 with
    | (date, []) => isDate date
    | (date, c :: time) => (c = 'T' || c = 't' || c = ' ') && isDate date && isZonedTime time

/-! ## Words -/

/-- Whether a character can be part of an unquoted value. -/
def isWordChar (c : Char) : Bool :=
  c.isAlphanum || c = '+' || c = '-' || c = '_' || c = '.' || c = ':'

/-- Splits the word off that a text begins with. A date and a time may have a space between them. -/
def word (cs : List Char) : List Char × List Char :=
  match cs.span isWordChar with
  | (date, ' ' :: c :: rest) =>
    if isDate date ∧ c.isDigit then
      let (time, rest) := (c :: rest).span isWordChar
      (date ++ ' ' :: time, rest)
    else (date, ' ' :: c :: rest)
  | split => split

/-- The value of a word. -/
def ofWord? (cs : List Char) : Option Json :=
  if cs = ['t', 'r', 'u', 'e'] then some (.bool true)
  else if cs = ['f', 'a', 'l', 's', 'e'] then some (.bool false)
  else match integer? cs with
    | some n => some (.integer n)
    | none =>
      if isFloat cs then some (.decimal (.ofList cs))
      else if isDateTime cs then some (.object [("datetime", .string (.ofList cs))])
      else none

end DeploymentConfig.Toml
