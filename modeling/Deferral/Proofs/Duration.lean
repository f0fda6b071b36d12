import Deferral.Duration
import Deferral.Proofs.Text.Decimal
import Mathlib.Data.List.TakeWhile

/-!
# Durations and their texts

The text of a duration is a decimal numeral with a unit behind it. The unit changes with the
magnitude and the numeral has as many places as it needs, but nothing is rounded: `nanosecondsOf`
reads the number of nanoseconds off the text again.

A wait for so long that the seconds of the time at which it would be up exceed 63 bits has no
deadline.

Main statements:
* `nanosecondsOf_characters`: a duration is read from its text.
* `text_injective`: different durations have different texts.
* `deadline?_eq_none_iff`: which waits have no deadline.
-/

namespace Deferral.Duration

open Text

variable {width n : Nat} {c : Char} {unit : List Char}

/-! ## Reading -/

/-- How many decimal places behind a unit reach down to nanoseconds. -/
def placesOf (unit : List Char) : Nat :=
  if unit = ['s'] then 9 else if unit = ['m', 's'] then 6 else if unit = ['\u00b5', 's'] then 3 else 0

/-- The places behind a point, and what is behind them. -/
def splitPoint : List Char → List Char × List Char
  | '.' :: rest => (rest.takeWhile Char.isDigit, rest.dropWhile Char.isDigit)
  | rest => ([], rest)

/-- The number of nanoseconds that is told by digits, perhaps a point with places
behind it, and a unit. -/
def nanosecondsOf (s : List Char) : Nat :=
  let (places, unit) := splitPoint (s.dropWhile Char.isDigit)
  ofDigits (s.takeWhile Char.isDigit ++ places) * 10 ^ (placesOf unit - places.length)

/-! ## Places -/

/-- The places that are written behind the point. -/
def places (width n : Nat) : List Char :=
  ((padded width n).reverse.dropWhile (· == '0')).reverse

/-- The digits of a number are digits, with zeros before them. -/
theorem isDigit_of_mem_padded (h : c ∈ padded width n) : c.isDigit = true := by
  rcases List.mem_append.mp h with hzero | hdigit
  · rw [List.eq_of_mem_replicate hzero]
    rfl
  · exact isDigit_of_mem_decimal hdigit

/-- The places of a fraction are digits. -/
theorem isDigit_of_mem_places (h : c ∈ places width n) : c.isDigit = true := by
  have hplace := (List.dropWhile_sublist _).mem (List.mem_reverse.mp h)
  exact isDigit_of_mem_padded (List.mem_reverse.mp hplace)

/-- A number below the power of ten has no more digits than there is width. -/
theorem length_padded (hwidth : 0 < width) (h : n < 10 ^ width) :
    (padded width n).length = width := by
  have hle : (decimal n).length ≤ width := (Nat.length_toDigits_le_iff (by decide) hwidth).mpr h
  rw [padded, List.length_append, List.length_replicate]
  omega

/-- The zeros before the digits of a number do not change it. -/
theorem ofDigits_padded (width n : Nat) : ofDigits (padded width n) = n := by
  rw [padded, ofDigits_replicate_append, ofDigits_decimal]

/-- Behind the places that are written there would be nothing but zeros. -/
theorem padded_eq_places_append (width n : Nat) :
    ∃ k, padded width n = places width n ++ List.replicate k '0' := by
  have hzeros : ∀ c ∈ (padded width n).reverse.takeWhile (· == '0'), c = '0' := by
    intro c hc
    have hzero := List.mem_takeWhile_imp hc
    exact beq_iff_eq.mp hzero
  refine ⟨((padded width n).reverse.takeWhile (· == '0')).length, ?_⟩
  have hsplit : places width n ++ ((padded width n).reverse.takeWhile (· == '0')).reverse =
      padded width n := by
    rw [places, ← List.reverse_append, List.takeWhile_append_dropWhile, List.reverse_reverse]
  rw [← List.reverse_replicate, ← List.eq_replicate_of_mem hzeros, hsplit]

/-- The digits of whole units with the places behind them are worth the whole, up to the zeros
that were not written. -/
theorem ofDigits_append_places (hwidth : 0 < width) (h : n < 10 ^ width) (whole : Nat) :
    ofDigits (decimal whole ++ places width n) * 10 ^ (width - (places width n).length) =
      whole * 10 ^ width + n := by
  obtain ⟨k, hk⟩ := padded_eq_places_append width n
  have hlength := length_padded hwidth h
  rw [hk, List.length_append, List.length_replicate] at hlength
  have hmissing : width - (places width n).length = k := by omega
  calc ofDigits (decimal whole ++ places width n) * 10 ^ (width - (places width n).length)
      = ofDigits (decimal whole ++ places width n ++ List.replicate k '0') := by
        rw [ofDigits_append _ (List.replicate k '0'), ofDigits_replicate_zero,
          List.length_replicate, Nat.add_zero, hmissing]
    _ = ofDigits (decimal whole ++ padded width n) := by rw [List.append_assoc, ← hk]
    _ = whole * 10 ^ width + n := by
        rw [ofDigits_append, ofDigits_decimal, ofDigits_padded, length_padded hwidth h]

/-! ## Units -/

/-- What is written begins neither with a digit nor with a point, as a unit does. -/
def EndsNumeral (s : List Char) : Prop :=
  ∀ c ∈ s.head?, c.isDigit = false ∧ c ≠ '.'

theorem endsNumeral_cons (h : c.isDigit = false ∧ c ≠ '.') (rest : List Char) :
    EndsNumeral (c :: rest) := by
  intro first hfirst
  rw [← Option.some.inj hfirst]
  exact h

/-- The digits of a text end before anything else. -/
theorem takeWhile_isDigit_append {ds rest : List Char} (hds : ∀ c ∈ ds, c.isDigit = true)
    (hrest : ∀ c ∈ rest.head?, c.isDigit = false) :
    (ds ++ rest).takeWhile Char.isDigit = ds ∧ (ds ++ rest).dropWhile Char.isDigit = rest := by
  have hstop : rest.takeWhile Char.isDigit = [] ∧ rest.dropWhile Char.isDigit = rest := by
    cases rest with
    | nil => exact ⟨rfl, rfl⟩
    | cons c rest => simp [hrest c rfl]
  rw [List.takeWhile_append_of_pos hds, List.dropWhile_append_of_pos hds, hstop.1, hstop.2,
    List.append_nil]
  exact ⟨rfl, rfl⟩

/-- Without a point there are no places. -/
theorem splitPoint_of_endsNumeral (h : EndsNumeral unit) : splitPoint unit = ([], unit) := by
  rw [splitPoint.eq_2 unit]
  rintro rest rfl
  exact (h '.' rfl).2 rfl

/-- The places behind a point end where the unit begins. -/
theorem splitPoint_point_append {ds : List Char} (hds : ∀ c ∈ ds, c.isDigit = true)
    (h : EndsNumeral unit) : splitPoint ('.' :: (ds ++ unit)) = (ds, unit) := by
  have hsplit := takeWhile_isDigit_append hds fun c hc => (h c hc).1
  rw [splitPoint, hsplit.1, hsplit.2]

/-- What is counted in a unit is read again. -/
theorem nanosecondsOf_inUnit (h : EndsNumeral unit) (n : Nat) :
    nanosecondsOf (inUnit (placesOf unit) n unit) = n := by
  have hdigits : ∀ c ∈ decimal (n / 10 ^ placesOf unit), c.isDigit = true :=
    fun c hc => isDigit_of_mem_decimal hc
  have hdiv : n / 10 ^ placesOf unit * 10 ^ placesOf unit + n % 10 ^ placesOf unit = n :=
    Nat.div_add_mod' n _
  rw [inUnit, Nat.pow_eq, fraction]
  by_cases hzero : n % 10 ^ placesOf unit = 0
  · -- Whole units are written without a point.
    obtain ⟨htake, hdrop⟩ := takeWhile_isDigit_append hdigits fun c hc => (h c hc).1
    rw [if_pos hzero, List.append_nil, nanosecondsOf, htake, hdrop, splitPoint_of_endsNumeral h]
    rw [hzero, Nat.add_zero] at hdiv
    simpa [ofDigits_decimal] using hdiv
  · -- The point ends the digits of the whole units, and the unit those of the fraction.
    have hpos : 0 < placesOf unit := by
      by_contra hnone
      have hnone' : placesOf unit = 0 := by omega
      rw [hnone', Nat.pow_zero, Nat.mod_one] at hzero
      exact hzero rfl
    have hlt : n % 10 ^ placesOf unit < 10 ^ placesOf unit := Nat.mod_lt _ (Nat.pow_pos (by decide))
    have hpoint : ∀ c ∈ ('.' :: (places (placesOf unit) (n % 10 ^ placesOf unit) ++ unit)).head?,
        c.isDigit = false := by simp
    obtain ⟨htake, hdrop⟩ := takeWhile_isDigit_append hdigits hpoint
    rw [if_neg hzero, ← places, List.append_assoc, List.cons_append, nanosecondsOf, htake, hdrop,
      splitPoint_point_append (fun c hc => isDigit_of_mem_places hc) h]
    exact (ofDigits_append_places hpos hlt _).trans hdiv

/-- The text of a duration counts its nanoseconds in one of the units. -/
theorem characters_eq (d : Duration) :
    ∃ unit, EndsNumeral unit ∧ d.characters = inUnit (placesOf unit) d.nanoseconds unit := by
  rw [characters]
  split
  · exact ⟨['s'], endsNumeral_cons (by decide) _, rfl⟩
  · split
    · exact ⟨['m', 's'], endsNumeral_cons (by decide) _, rfl⟩
    · split
      · exact ⟨['\u00b5', 's'], endsNumeral_cons (by decide) _, rfl⟩
      · exact ⟨['n', 's'], endsNumeral_cons (by decide) _, rfl⟩

/-- A duration is read from its text. -/
theorem nanosecondsOf_characters (d : Duration) : nanosecondsOf d.characters = d.nanoseconds := by
  obtain ⟨unit, hunit, hcharacters⟩ := d.characters_eq
  rw [hcharacters, nanosecondsOf_inUnit hunit]

/-- Different durations have different texts. -/
theorem text_injective : Function.Injective text := by
  intro d d' h
  have hcharacters : d.characters = d'.characters := String.ofList_inj.mp h
  have hnanoseconds : d.nanoseconds = d'.nanoseconds := by
    rw [← nanosecondsOf_characters d, hcharacters, nanosecondsOf_characters]
  exact congrArg Duration.mk hnanoseconds

/-- Where the unit changes, the text does not become ambiguous. -/
example : text ⟨999999999⟩ = "999.999999ms" ∧ text ⟨1000000000⟩ = "1s" ∧
    text max = "18446744073709551615.999999999s" := by
  decide +kernel

/-! ## Deadlines -/

/-- A wait has no deadline exactly if the seconds of that time would exceed 63 bits. -/
theorem deadline?_eq_none_iff {d : Duration} {now : Nat} :
    d.deadline? now = none ↔ 2 ^ 63 * 10 ^ 9 ≤ now + d.nanoseconds := by
  rw [deadline?, ite_eq_right_iff, latest, maxSigned, second]
  simp only [reduceCtorEq, imp_false]
  omega

end Deferral.Duration
