import DeploymentConfig.Json.Basic
import DeploymentConfig.Text.Numeral

/-!
# JSON numbers

A number is a sign, a whole part without leading zeros, and perhaps a fraction
and an exponent (`Number.ofChars?`). Without the last two it is an integer,
negative zero apart.

A number is held as a double, and has no value if that is infinite
(`Number.overflows`). The double is the product of two: of the leading digits, as
many as fit 64 bits, and of a power of ten. Next to the largest double that is
not always the double nearest to the number (`Number.isInfinite`).
-/

namespace DeploymentConfig.Json

/-- A number as written, without the point and the letter of the exponent. -/
structure Number where
  negative : Bool
  whole : List Char
  /-- Empty if no point was written. -/
  fraction : List Char
  exponent : Option Int

namespace Number

/-- Splits the whole part off: one zero, or digits that begin with another one. -/
def whole? (cs : List Char) : Option (List Char × List Char) :=
  match cs.span Char.isDigit with
  | ([], _) => none
  | ('0' :: _ :: _, _) => none
  | split => some split

/-- Splits a fraction off: nothing, or a point and at least one digit. -/
def fraction? : List Char → Option (List Char × List Char)
  | '.' :: cs =>
    match cs.span Char.isDigit with
    | ([], _) => none
    | split => some split
  | cs => some ([], cs)

/-- Reads what follows the fraction: nothing, or an exponent. -/
def exponent? : List Char → Option (Option Int)
  | [] => some none
  | c :: cs => if c = 'e' ∨ c = 'E' then (Text.integer? cs).map some else none

def ofChars? (cs : List Char) : Option Number := do
  let (negative, cs) := match cs with
    | '-' :: cs => (true, cs)
    | cs => (false, cs)
  let (whole, cs) ← whole? cs
  let (fraction, cs) ← fraction? cs
  let exponent ← exponent? cs
  some { negative, whole, fraction, exponent }

/-- Whether a point or an exponent was written. -/
def isFractional (n : Number) : Bool :=
  !n.fraction.isEmpty || n.exponent.isSome

/-- The number of the digits alone. -/
def significand (n : Number) : Nat :=
  (Text.natural? 10 (n.whole ++ n.fraction)).getD 0

/-- The power of ten by which the digits alone are multiplied. -/
def scale (n : Number) : Int :=
  n.exponent.getD 0 - n.fraction.length

/-- Half way from the largest double to the next power of two: from here on a number rounds to
infinity. -/
def limit : Nat :=
  1 <<< 1024 - 1 <<< 970

/-- Whether the double nearest to a number is infinite. The number of places left of the point
decides, unless it is that of `limit`. -/
def isInfinite (n : Number) : Bool :=
  let places : Int := ((n.whole ++ n.fraction).dropWhile (· = '0')).length + n.scale
  if n.significand = 0 ∨ places < 309 then false
  else if 309 < places then true
  else limit * Nat.pow 10 (-n.scale).toNat ≤ n.significand * Nat.pow 10 n.scale.toNat

/-- Appends digits to a number as long as it stays below 2⁶⁴. Gives the number of digits left over
as well. -/
def appendFitting (m : Nat) : List Char → Nat × Nat
  | [] => (m, 0)
  | c :: cs =>
    let next := m * 10 + (Text.digitValue? c).getD 0
    if next < UInt64.size then appendFitting next cs else (m, cs.length + 1)

/-- A number rounded to its 53 leading bits, a tie to the even neighbour. -/
def roundBits (m : Nat) : Nat :=
  let unit := 1 <<< (m.log2 + 1 - 53)
  let rest := m % unit
  let up := unit < 2 * rest ∨ (unit = 2 * rest ∧ m / unit % 2 = 1)
  unit * (m / unit + if up then 1 else 0)

/-- Whether a number has no double. Digits of the whole part that are left over count as zeros,
those of the fraction not at all. -/
def overflows (n : Number) : Bool :=
  let (m, zeros) := appendFitting 0 n.whole
  let (m, dropped) := appendFitting m n.fraction
  let scale : Int := n.scale + zeros + dropped
  if m = 0 ∨ scale < 0 then false
  else if 308 < scale then true
  else limit ≤ roundBits m * roundBits (Nat.pow 10 scale.toNat)

end Number

/-- The value of a number that is written as `cs`. -/
def ofNumber? (cs : List Char) : Option Json := do
  let n ← Number.ofChars? cs
  if n.overflows then some .unrepresentable
  else if n.isFractional ∨ (n.negative ∧ n.significand = 0) then some (.decimal (.ofList cs))
  else if n.negative then some (.integer (-n.significand))
  else some (.integer n.significand)

end DeploymentConfig.Json
