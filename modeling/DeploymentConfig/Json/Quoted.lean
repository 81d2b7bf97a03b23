import DeploymentConfig.Text.Numeral

/-!
# Quoted text

Between two quotes a text is written with escapes. `units?` undoes them, giving
16-bit units where four hexadecimal digits are written and code points
elsewhere; `join?` puts surrogate pairs together, and fails on half a pair.
`escape` writes only the escapes that are needed: of `"`, of the backslash and
of the control characters below U+0020.
-/

namespace DeploymentConfig.Json.Quoted

/-- The number that four hexadecimal digits write. -/
def unit? (a b c d : Char) : Option Nat :=
  Text.natural? 16 [a, b, c, d]

/-- The code of a one-letter escape. -/
def short? (c : Char) : Option Nat :=
  match c with
  | '"' | '\\' | '/' => some c.toNat
  | 'b' => some 0x08
  | 'f' => some 0x0C
  | 'n' => some 0x0A
  | 'r' => some 0x0D
  | 't' => some 0x09
  | _ => none

/-- Undoes the escapes. Refuses an escape that does not exist and a bare control character. -/
def units? : List Char → Option (List Nat)
  | [] => some []
  | '\\' :: 'u' :: a :: b :: c :: d :: cs => do
    let unit ← unit? a b c d
    let units ← units? cs
    some (unit :: units)
  | '\\' :: c :: cs => do
    let unit ← short? c
    let units ← units? cs
    some (unit :: units)
  | c :: cs => if c = '\\' ∨ c.toNat < 0x20 then none else (units? cs).map (c.toNat :: ·)

/-- Puts surrogate pairs together. Refuses a surrogate that is not in a pair. -/
def join? : List Nat → Option (List Char)
  | [] => some []
  | [unit] => if h : unit.isValidChar then some [Char.ofNatAux unit h] else none
  | unit :: low :: units =>
    if 0xD800 ≤ unit ∧ unit < 0xDC00 then
      if 0xDC00 ≤ low ∧ low < 0xE000 then
        (join? units).map (.ofNat (0x10000 + (unit - 0xD800) * 0x400 + (low - 0xDC00)) :: ·)
      else none
    else if h : unit.isValidChar then (join? (low :: units)).map (Char.ofNatAux unit h :: ·)
    else none

/-- A hexadecimal digit, in lower case. -/
def hexDigit (n : Nat) : Char :=
  Nat.digitChar (n % 16)

def escapeChar (c : Char) : List Char :=
  if c = '"' then ['\\', '"']
  else if c = '\\' then ['\\', '\\']
  else if 0x20 ≤ c.toNat then [c]
  else match c.toNat with
    | 0x08 => ['\\', 'b']
    | 0x09 => ['\\', 't']
    | 0x0A => ['\\', 'n']
    | 0x0C => ['\\', 'f']
    | 0x0D => ['\\', 'r']
    | n => ['\\', 'u', '0', '0', hexDigit (n / 16), hexDigit n]

/-- The text between the quotes. -/
def escape (s : String) : String :=
  .ofList (s.toList.flatMap escapeChar)

/-- A text in quotes. -/
def quote (s : String) : String :=
  "\"" ++ escape s ++ "\""

end DeploymentConfig.Json.Quoted
