/-!
# Decimal numerals

Natural numbers written in decimal digits. Writing uses no leading zero; reading takes any number
of them, one optional plus sign, and refuses whatever exceeds a given limit.
-/

namespace Deferral.Text

/-- The value of a decimal digit. -/
def digitValue (c : Char) : Nat :=
  c.toNat - '0'.toNat

/-- The number that a string of decimal digits denotes. -/
def ofDigits (s : List Char) : Nat :=
  s.foldl (fun n c => 10 * n + digitValue c) 0

/-- The decimal digits of a number, without a leading zero. -/
def decimal (n : Nat) : List Char :=
  Nat.toDigits 10 n

/-- The number that a non-empty string of decimal digits denotes, if it is at most `limit`. -/
def readDigits? (limit : Nat) (s : List Char) : Option Nat :=
  if s ≠ [] ∧ s.all Char.isDigit then
    let n := ofDigits s
    if n ≤ limit then some n else none
  else none

/-- Reads an optional plus sign and decimal digits that denote a number of at most `limit`. -/
def readNatural? (limit : Nat) : List Char → Option Nat
  | '+' :: rest => readDigits? limit rest
  | s => readDigits? limit s

/-- The greatest number of 64 bits. -/
def maxWord : Nat := 0xFFFFFFFFFFFFFFFF

/-- The greatest signed number of 64 bits. -/
def maxSigned : Nat := 0x7FFFFFFFFFFFFFFF

/-- A hexadecimal digit's value, if the character is one. -/
def hexDigit? (c : Char) : Option Nat :=
  if c.isDigit then some (c.toNat - '0'.toNat)
  else if 'a' ≤ c ∧ c ≤ 'f' then some (c.toNat - 'a'.toNat + 10)
  else if 'A' ≤ c ∧ c ≤ 'F' then some (c.toNat - 'A'.toNat + 10)
  else none

end Deferral.Text
