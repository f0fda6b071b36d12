import Deferral.Text.Decimal

/-!
# Numbers of double precision

Numbers of 53 binary digits, as the rational numbers that they are. What a computation makes of them
is its exact result, rounded. None of those here is so great or so small that its exponent would not
fit, and none is negative.

A number is written in as few decimal digits as it takes to read it again as it is. The point stands
among them or close to them; a number far from its digits is written with an exponent.
-/

namespace Deferral.Text

/-- The natural number next to a number. A half goes to the even neighbour. -/
def nearest (q : Rat) : Nat :=
  let n := q.floor.toNat
  let rest := q - n
  if rest < 1 / 2 ∨ rest = 1 / 2 ∧ n % 2 = 0 then n else n + 1

/-- The exponent of the first digit of a positive number. -/
def exponent (base : Nat) (q : Rat) : Int :=
  -- The numbers of digits above and below the line leave two exponents to choose from.
  let e : Int := (Nat.toDigits base q.num.toNat).length - (Nat.toDigits base q.den).length
  if (base : Rat) ^ e ≤ q then e else e - 1

/-- The number of double precision next to a number. -/
def double (q : Rat) : Rat :=
  let unit := (2 : Rat) ^ (exponent 2 q - 52)
  nearest (q / unit) * unit

/-- A decimal numeral: its digits, and the exponent of the last one. -/
structure Scientific where
  /-- The digits, as a number. -/
  digits : Nat
  /-- The exponent of the last digit. -/
  exponent : Int
  deriving DecidableEq, Repr

namespace Scientific

/-- The number that a numeral stands for. -/
def value (s : Scientific) : Rat :=
  s.digits * 10 ^ s.exponent

/-- The numeral with so many digits next to a positive number. -/
def rounded (count : Nat) (q : Rat) : Scientific :=
  let e := Text.exponent 10 q + 1 - count
  ⟨nearest (q / 10 ^ e), e⟩

/-- The numerals with so many digits on both sides of a positive number, the nearer one first. -/
def neighbours (count : Nat) (q : Rat) : List Scientific :=
  let s := rounded count q
  let n := (q / 10 ^ s.exponent).floor.toNat
  [s, ⟨n, s.exponent⟩, ⟨n + 1, s.exponent⟩]

/-- A numeral with as few digits as it takes to read the number again. It never takes more than
17. -/
def shortest (q : Rat) : Scientific :=
  let candidates := (List.range 17).flatMap fun k => neighbours (k + 1) q
  (candidates.find? fun s => double s.value = q).getD (rounded 17 q)

/-- The text of a numeral. -/
def text (s : Scientific) : List Char :=
  let ds := decimal s.digits
  let point : Int := ds.length + s.exponent
  if 0 ≤ s.exponent ∧ point ≤ 16 then ds ++ List.replicate s.exponent.toNat '0' ++ ['.', '0']
  else if 0 < point ∧ point ≤ 16 then ds.take point.toNat ++ '.' :: ds.drop point.toNat
  else if -5 < point ∧ point ≤ 0 then ['0', '.'] ++ List.replicate (-point).toNat '0' ++ ds
  else
    let places := if ds.length = 1 then [] else '.' :: ds.drop 1
    let sign := if point - 1 < 0 then ['-'] else []
    ds.take 1 ++ places ++ 'e' :: sign ++ decimal (point - 1).natAbs

end Scientific

end Deferral.Text
