import Deferral.Toml.Lexeme

/-!
# TOML numbers and times

Integers of 64 bits in four bases, floats, of which only that they are not too large matters, and
dates and times, of which only that they exist matters.
-/

namespace Deferral.Toml

/-- Read digits after the first one; an underscore may stand between two digits. -/
def digitsRest (digit : Char → Bool) : List Char → Option (List Char × List Char)
  | [] => some ([], [])
  | c :: rest =>
    if digit c then andThen c (digitsRest digit rest)
    else if c = '_' then
      match rest with
      | d :: _ => if digit d then digitsRest digit rest else none
      | [] => none
    else some ([], c :: rest)

/-- Read digits, with underscores between them. -/
def digits? (digit : Char → Bool) : List Char → Option (List Char × List Char)
  | c :: rest => if digit c then andThen c (digitsRest digit rest) else none
  | [] => none

/-- Read a decimal number without a superfluous zero in front. -/
def decimal? : List Char → Option (List Char × List Char)
  | '0' :: rest => some (['0'], rest)
  | s => digits? Char.isDigit s

/-- The number that digits of some base denote. -/
def ofBase (base : Nat) (s : List Char) : Nat :=
  s.foldl (fun n c => base * n + (Text.hexDigit? c).getD 0) 0

/-- A digit of the given base, up to sixteen. -/
def isDigitOf (base : Nat) (c : Char) : Bool :=
  match Text.hexDigit? c with
  | some d => d < base
  | none => false

/-- The integer, if it has 64 bits. -/
def integer? (n : Int) : Option Item :=
  if -(Text.maxSigned + 1) ≤ n ∧ n ≤ Text.maxSigned then some (.integer n) else none

/-- Whether `n * 10 ^ (up - down)` rounds to a float beyond the greatest one. -/
def isTooLarge (n up down : Nat) : Bool :=
  let width := (Text.decimal n).length
  if n = 0 then false
  else if down + 310 < width + up then true
  else if width + up < down + 300 then false
  else (Nat.pow 2 1024 - Nat.pow 2 970) * Nat.pow 10 down ≤ n * Nat.pow 10 up

/-- Read the exponent of a float, and tell how far it moves the point to the right and to the
left. -/
def exponent? (s : List Char) : Option ((Nat × Nat) × List Char) :=
  let read (left : Bool) (s : List Char) : Option ((Nat × Nat) × List Char) := do
    let (ds, rest) ← digits? Char.isDigit s
    let n := Text.ofDigits ds
    some (if left then (0, n) else (n, 0), rest)
  match s with
  | '-' :: rest => read true rest
  | '+' :: rest => read false rest
  | rest => read false rest

/-- Read what follows the whole part of a number. -/
def afterWhole? (negative : Bool) (whole : List Char) (s : List Char) :
    Option (Item × List Char) :=
  let isExponent (c : Char) : Bool := c = 'e' || c = 'E'
  let float (frac : List Char) (up down : Nat) (rest : List Char) : Option (Item × List Char) :=
    if !negative && isTooLarge (Text.ofDigits (whole ++ frac)) up (down + frac.length) then none
    else some (.float, rest)
  match s with
  | '.' :: rest => do
    let (frac, rest) ← digits? Char.isDigit rest
    match rest with
    | c :: rest' =>
      if isExponent c then
        let ((up, down), rest) ← exponent? rest'
        float frac up down rest
      else float frac 0 0 rest
    | [] => float frac 0 0 []
  | c :: rest =>
    if isExponent c then do
      let ((up, down), rest) ← exponent? rest
      float [] up down rest
    else do
      let n : Int := Text.ofDigits whole
      some (← integer? (if negative then -n else n), s)
  | [] => do
    let n : Int := Text.ofDigits whole
    some (← integer? (if negative then -n else n), [])

/-- Read a number after its sign. -/
def unsigned? (negative : Bool) : List Char → Option (Item × List Char)
  | 'i' :: 'n' :: 'f' :: rest | 'n' :: 'a' :: 'n' :: rest => some (.float, rest)
  | s => do
    let (whole, rest) ← decimal? s
    afterWhole? negative whole rest

/-- Read an integer in the given base after its mark. -/
def based? (base : Nat) (s : List Char) : Option (Item × List Char) := do
  let (ds, rest) ← digits? (isDigitOf base) s
  some (← integer? (ofBase base ds), rest)

/-- Read a number. -/
def number? : List Char → Option (Item × List Char)
  | '+' :: rest => unsigned? false rest
  | '-' :: rest => unsigned? true rest
  | '0' :: 'x' :: rest => based? 16 rest
  | '0' :: 'o' :: rest => based? 8 rest
  | '0' :: 'b' :: rest => based? 2 rest
  | s => unsigned? false s

/-- Read exactly `n` digits as a number. -/
def fixed? (n : Nat) (s : List Char) : Option (Nat × List Char) :=
  let ds := s.take n
  if ds.length = n ∧ ds.all Char.isDigit then some (Text.ofDigits ds, s.drop n) else none

/-- Read exactly two digits as a number from `lo` to `hi`. -/
def pair? (lo hi : Nat) (s : List Char) : Option (Nat × List Char) := do
  let (n, rest) ← fixed? 2 s
  if lo ≤ n ∧ n ≤ hi then some (n, rest) else none

/-- Skip a given character. -/
def skip? (c : Char) : List Char → Option (List Char)
  | d :: rest => if c = d then some rest else none
  | [] => none

/-- The number of days in a month. -/
def daysIn (year month : Nat) : Nat :=
  let leap := year % 4 = 0 ∧ (year % 100 ≠ 0 ∨ year % 400 = 0)
  if month = 2 then if leap then 29 else 28
  else if month = 4 ∨ month = 6 ∨ month = 9 ∨ month = 11 then 30
  else 31

/-- Read what follows the year and the hyphen of a date. -/
def dateRest? (year : Nat) (s : List Char) : Option (List Char) := do
  let (month, s) ← pair? 1 12 s
  let s ← skip? '-' s
  let (_, s) ← pair? 1 (daysIn year month) s
  some s

/-- Read what follows the hour and the colon of a time. -/
def timeRest? (s : List Char) : Option (List Char) := do
  let (_, s) ← pair? 0 59 s
  let s ← skip? ':' s
  let (_, s) ← pair? 0 60 s
  match s with
  | '.' :: d :: rest =>
    if d.isDigit then some (rest.dropWhile Char.isDigit) else some s
  | s => some s

/-- Read the hour and the colon of a time. -/
def hour? (s : List Char) : Option (List Char) := do
  let (_, s) ← pair? 0 23 s
  skip? ':' s

/-- Read the offset of a time, if there is one. -/
def offset? : List Char → Option (List Char)
  | 'Z' :: rest | 'z' :: rest => some rest
  | '+' :: rest | '-' :: rest => do
    let (_, s) ← pair? 0 23 rest
    let s ← skip? ':' s
    let (_, s) ← pair? 0 59 s
    some s
  | s => some s

/-- Read the time after a date, if there is one. -/
def timeOfDay? (s : List Char) : Option (List Char) :=
  match s with
  | c :: rest =>
    if c = 'T' || c = 't' || c = ' ' then
      match hour? rest with
      | some rest => do offset? (← timeRest? rest)
      | none => some s
    else some s
  | [] => some []

/-- Read a number, a date or a time. -/
def numberOrMoment? (s : List Char) : Option (Item × List Char) :=
  match (do let (year, s) ← fixed? 4 s; some (year, ← skip? '-' s) : Option (Nat × List Char)),
    hour? s with
  | some (year, rest), _ => do some (.moment, ← timeOfDay? (← dateRest? year rest))
  | none, some rest => do some (.moment, ← timeRest? rest)
  | none, none => number? s

end Deferral.Toml
