/-!
# Numerals

A numeral in a base is a non-empty row of ASCII digits of that base, of any
length. Its value is read digit by digit, so leading zeros change nothing. A
signed numeral may have one sign in front (`integer?`).
-/

namespace DeploymentConfig.Text

/-- The value of a character as a digit: 0–9, then the letters of either case. -/
def digitValue? (c : Char) : Option Nat :=
  if '0' ≤ c ∧ c ≤ '9' then some (c.toNat - 48)
  else if 'a' ≤ c ∧ c ≤ 'z' then some (c.toNat - 87)
  else if 'A' ≤ c ∧ c ≤ 'Z' then some (c.toNat - 55)
  else none

/-- The value of a digit of a base. -/
def digit? (base : Nat) (c : Char) : Option Nat :=
  (digitValue? c).filter (· < base)

/-- Appends digits to a number already read. -/
def digits? (base : Nat) (start : Nat) (cs : List Char) : Option Nat :=
  cs.foldlM (fun n c => (digit? base c).map (n * base + ·)) start

/-- The value of a numeral. -/
def natural? (base : Nat) (cs : List Char) : Option Nat :=
  if cs.isEmpty then none else digits? base 0 cs

/-- The value of a decimal numeral with at most one sign. -/
def integer? : List Char → Option Int
  | '+' :: cs => (natural? 10 cs).map Int.ofNat
  | '-' :: cs => (natural? 10 cs).map (- Int.ofNat ·)
  | cs => (natural? 10 cs).map Int.ofNat

/-- The decimal numeral of a number. -/
def decimal (n : Int) : String :=
  match n with
  | .ofNat n => .ofList (Nat.toDigits 10 n)
  | .negSucc n => .ofList ('-' :: Nat.toDigits 10 (n + 1))

end DeploymentConfig.Text
