import Deferral.Text.Decimal

/-!
# Durations

Spans of time, counted in nanoseconds, and their shortest exact text. The unit is the greatest of
`s`, `ms`, `µs` and `ns` that the duration reaches, and the fraction has as many places as it
needs.
-/

namespace Deferral

/-- A span of time. -/
structure Duration where
  /-- The length in nanoseconds. -/
  nanoseconds : Nat
  deriving DecidableEq, Repr

namespace Duration

/-- Nanoseconds in a second. -/
def second : Nat := 1000000000

/-- Nanoseconds in a millisecond. -/
def millisecond : Nat := 1000000

/-- Nanoseconds in a microsecond. -/
def microsecond : Nat := 1000

/-- The empty span. -/
def zero : Duration := ⟨0⟩

/-- The duration of `s` seconds and `n` nanoseconds. -/
def ofParts (s n : Nat) : Duration := ⟨s * second + n⟩

/-- The duration of `s` seconds. -/
def ofSeconds (s : Nat) : Duration := ofParts s 0

/-- The duration of `n` milliseconds. -/
def ofMilliseconds (n : Nat) : Duration := ⟨n * millisecond⟩

/-- The whole seconds of a duration. -/
def seconds (d : Duration) : Nat := d.nanoseconds / second

/-- What a duration has beyond its whole seconds, in nanoseconds. -/
def subsecond (d : Duration) : Nat := d.nanoseconds % second

/-- The longest duration whose seconds have 64 bits. -/
def max : Duration := ofParts Text.maxWord (second - 1)

/-- The latest time of day, in nanoseconds. -/
def latest : Nat := (Text.maxSigned + 1) * second - 1

/-- The time of day at which a wait is up that begins now, unless that is beyond the latest. -/
def deadline? (d : Duration) (now : Nat) : Option Nat :=
  if now + d.nanoseconds ≤ latest then some (now + d.nanoseconds) else none

/-- A number written with `width` digits. -/
def padded (width n : Nat) : List Char :=
  let digits := Text.decimal n
  List.replicate (width - digits.length) '0' ++ digits

/-- A fraction of `width` places after a point, without trailing zeros, and nothing for zero. -/
def fraction (width n : Nat) : List Char :=
  if n = 0 then []
  else '.' :: ((padded width n).reverse.dropWhile (· == '0')).reverse

/-- A count of nanoseconds in units of `10 ^ places` nanoseconds. -/
def inUnit (places n : Nat) (unit : List Char) : List Char :=
  let scale := Nat.pow 10 places
  Text.decimal (n / scale) ++ fraction places (n % scale) ++ unit

/-- The text of a duration, as characters. -/
def characters (d : Duration) : List Char :=
  let n := d.nanoseconds
  if second ≤ n then inUnit 9 n ['s']
  else if millisecond ≤ n then inUnit 6 n ['m', 's']
  else if microsecond ≤ n then inUnit 3 n ['\u00b5', 's']
  else inUnit 0 n ['n', 's']

/-- The shortest exact text of a duration. -/
def text (d : Duration) : String :=
  String.ofList d.characters

end Duration

end Deferral
