import Deferral.Text.Decimal
import Mathlib.Data.List.Induction
import Mathlib.Data.Nat.Digits.Defs

/-!
# Numbers in decimal digits

What is written for a number are its decimal digits, the first of which is a zero only if the
number is zero. What is read from decimal digits is the number that they denote, whatever zeros
stand before them, up to a limit. `Numeral` tells which texts denote a number, without reference
to how they are read.

Main statements:
* `ofDigits_decimal` and `denotes_decimal`: a number is denoted by its digits, with zeros
  before them or not.
* `readNatural?_eq_some_iff`: what is read, and from which texts.
-/

namespace Deferral.Text

/-! ## Writing -/

/-- A number is denoted by its digits. -/
theorem ofDigits_decimal (n : Nat) : ofDigits (decimal n) = n :=
  Nat.ofDigitChars_ten_toDigits

/-- The digits of a number are digits. -/
theorem isDigit_of_mem_decimal {n : Nat} {c : Char} (h : c ∈ decimal n) : c.isDigit = true :=
  Nat.isDigit_of_mem_toDigits (by decide) (by decide) h

/-- There is at least one. -/
theorem decimal_ne_nil (n : Nat) : decimal n ≠ [] :=
  Nat.toDigits_ne_nil

/-- A number whose digits begin with a zero is zero, and has no other digit. -/
theorem eq_zero_of_decimal {n : Nat} {ds : List Char} (h : decimal n = '0' :: ds) :
    n = 0 ∧ ds = [] := by
  rw [decimal] at h
  induction n using Nat.strongRecOn generalizing ds with
  | ind n ih =>
    rw [Nat.toDigits_eq_if (by decide)] at h
    split at h
    next hlt =>
      obtain ⟨hdigit, hds⟩ := List.cons.inj h
      refine ⟨?_, hds.symm⟩
      have hcode := congrArg Char.toNat hdigit
      rw [Nat.toNat_digitChar_of_lt_ten hlt] at hcode
      exact Nat.add_left_cancel hcode
    next hge =>
      -- The first digit of a greater number is that of a tenth of it, which is not zero.
      have hlt : n / 10 < n := Nat.div_lt_self (by omega) (by decide)
      obtain ⟨d, hd⟩ : ∃ d, Nat.toDigits 10 (n / 10) = '0' :: d := by
        cases htenth : Nat.toDigits 10 (n / 10) with
        | nil => exact absurd htenth Nat.toDigits_ne_nil
        | cons c cs =>
          rw [htenth] at h
          exact ⟨cs, by rw [(List.cons.inj h).1]⟩
      have hzero := (ih (n / 10) hlt hd).1
      omega

/-! ## Reading -/

/-- These are decimal digits, and they denote the number, the last one its units. -/
structure Denotes (ds : List Char) (n : Nat) : Prop where
  /-- There is at least one. -/
  ne_nil : ds ≠ []
  /-- They are digits. -/
  isDigit : ∀ c ∈ ds, c.isDigit = true
  /-- This is the number in the positional notation of base ten. -/
  value_eq : n = Nat.ofDigits 10 (ds.reverse.map digitValue)

/-- A numeral for a number: its digits, perhaps behind one plus sign. -/
inductive Numeral : List Char → Nat → Prop
  /-- It has no sign. -/
  | plain {ds : List Char} {n : Nat} (h : Denotes ds n) : Numeral ds n
  /-- It has a plus sign. -/
  | signed {ds : List Char} {n : Nat} (h : Denotes ds n) : Numeral ('+' :: ds) n

/-- The value of digits is that of the positional notation. -/
theorem ofDigits_eq (ds : List Char) :
    ofDigits ds = Nat.ofDigits 10 (ds.reverse.map digitValue) := by
  induction ds using List.reverseRecOn with
  | nil => rfl
  | append_singleton ds d ih =>
    rw [List.reverse_append, List.reverse_singleton, List.singleton_append, List.map_cons,
      Nat.ofDigits_cons, ← ih, ofDigits, List.foldl_append, List.foldl_cons, List.foldl_nil,
      ← ofDigits, Nat.add_comm]

/-- Digits are worth more before further ones, ten times as much for each of them. -/
theorem ofDigits_append (ds ds' : List Char) :
    ofDigits (ds ++ ds') = ofDigits ds * 10 ^ ds'.length + ofDigits ds' := by
  simp only [ofDigits_eq]
  rw [List.reverse_append, List.map_append, Nat.ofDigits_append, List.length_map,
    List.length_reverse, Nat.mul_comm, Nat.add_comm]

/-- Zeros are worth nothing. -/
theorem ofDigits_replicate_zero (k : Nat) : ofDigits (List.replicate k '0') = 0 := by
  induction k with
  | zero => rfl
  | succ k ih =>
    rw [List.replicate_succ', ofDigits_append, ih, Nat.zero_mul]
    rfl

/-- Zeros before digits do not change what they are worth. -/
theorem ofDigits_replicate_append (k : Nat) (ds : List Char) :
    ofDigits (List.replicate k '0' ++ ds) = ofDigits ds := by
  rw [ofDigits_append, ofDigits_replicate_zero, Nat.zero_mul, Nat.zero_add]

/-- Digits are read exactly as what they denote, up to the limit. -/
theorem readDigits?_eq_some_iff {limit n : Nat} {ds : List Char} :
    readDigits? limit ds = some n ↔ Denotes ds n ∧ n ≤ limit := by
  rw [readDigits?, ofDigits_eq]
  simp only [Option.ite_none_right_eq_some, Option.some.injEq, List.all_eq_true]
  constructor
  · rintro ⟨⟨hne, hdigits⟩, hlimit, rfl⟩
    exact ⟨⟨hne, hdigits, rfl⟩, hlimit⟩
  · rintro ⟨⟨hne, hdigits, rfl⟩, hlimit⟩
    exact ⟨⟨hne, hdigits⟩, hlimit, rfl⟩

/-- A numeral is read exactly as what it stands for, up to the limit. -/
theorem readNatural?_eq_some_iff {limit n : Nat} {s : List Char} :
    readNatural? limit s = some n ↔ Numeral s n ∧ n ≤ limit := by
  -- A plus sign is no digit, so only what is behind it can be read.
  have hsign {ds : List Char} (h : Denotes ('+' :: ds) n) : False :=
    absurd (h.isDigit '+' List.mem_cons_self) (by decide)
  unfold readNatural?
  split
  next ds =>
    rw [readDigits?_eq_some_iff]
    constructor
    · exact fun ⟨h, hlimit⟩ => ⟨.signed h, hlimit⟩
    · rintro ⟨h | h, hlimit⟩
      · exact (hsign h).elim
      · exact ⟨h, hlimit⟩
  next hplain =>
    rw [readDigits?_eq_some_iff]
    constructor
    · exact fun ⟨h, hlimit⟩ => ⟨.plain h, hlimit⟩
    · rintro ⟨h | h, hlimit⟩
      · exact ⟨h, hlimit⟩
      · exact absurd rfl (hplain _)

/-- The digits of a number denote it, whatever zeros stand before them. -/
theorem denotes_decimal (zeros n : Nat) : Denotes (List.replicate zeros '0' ++ decimal n) n where
  ne_nil := List.append_ne_nil_of_right_ne_nil _ (decimal_ne_nil n)
  isDigit c hc := by
    rcases List.mem_append.mp hc with hzero | hdigit
    · rw [List.eq_of_mem_replicate hzero]
      decide
    · exact isDigit_of_mem_decimal hdigit
  value_eq := by
    rw [← ofDigits_eq, ofDigits_replicate_append, ofDigits_decimal]

/-- The greatest word is the greatest number of 64 bits. -/
theorem le_maxWord_iff {n : Nat} : n ≤ maxWord ↔ n < 2 ^ 64 := by
  rw [maxWord]
  omega

end Deferral.Text
