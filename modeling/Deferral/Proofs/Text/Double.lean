import Deferral.Proofs.Text.Decimal
import Deferral.Text.Double
import Mathlib.Algebra.Order.Field.Power
import Mathlib.Algebra.Order.Floor.Ring
import Mathlib.Data.Rat.Floor
import Mathlib.Tactic.FieldSimp
import Mathlib.Tactic.Linarith
import Mathlib.Tactic.Positivity
import Mathlib.Tactic.Ring

/-!
# No digit of a number of double precision is lost

A number of double precision is 53 binary digits behind each other. The gap to the next one is at
least a part in 2⁵³ of it, and a numeral of 17 decimal digits is off by half a part in 10¹⁶ at most,
which is less than half the gap. So such a numeral next to a number is read as that number, and the
shortest numeral that is looked for is always found.

Main statements:
* `abs_nearest_sub_le` and `exponent_eq`: what is next to a number, and where it begins.
* `double_eq_of_abs_le`: a number close to one of double precision is rounded to it.
* `double_shortest`: what is written of a number of double precision is read as that number.
-/

namespace Deferral.Text

variable {base n : Nat} {q : ℚ} {e : ℤ}

/-! ## Rounding -/

/-- What is next to a number is at most a half away. -/
theorem abs_nearest_sub_le (hq : 0 ≤ q) : |(nearest q : ℚ) - q| ≤ 1 / 2 := by
  have hfloor : ((q.floor.toNat : ℕ) : ℚ) = (⌊q⌋ : ℚ) := by
    exact_mod_cast Int.toNat_of_nonneg (Int.floor_nonneg.mpr hq)
  have hle := Int.floor_le q
  have hlt := Int.lt_floor_add_one q
  simp only [nearest]
  rw [abs_le]
  split_ifs with h
  · constructor
    · rcases h with h | ⟨h, -⟩ <;> linarith
    · linarith
  · simp only [not_or, not_lt] at h
    push_cast
    constructor <;> linarith [h.1]

/-- A number less than a half away is the one that is next. -/
theorem nearest_eq_of_abs_lt (hq : 0 ≤ q) (h : |q - n| < 1 / 2) : nearest q = n := by
  have hnear := abs_nearest_sub_le hq
  rw [abs_le] at hnear
  rw [abs_lt] at h
  have hlt : (nearest q : ℚ) < n + 1 := by linarith
  have hgt : (n : ℚ) < nearest q + 1 := by linarith
  have hlt' : nearest q < n + 1 := by exact_mod_cast hlt
  have hgt' : n < nearest q + 1 := by exact_mod_cast hgt
  omega

/-- No number is rounded to a negative one. -/
theorem double_nonneg (q : ℚ) : 0 ≤ double q :=
  mul_nonneg (Nat.cast_nonneg _) (by positivity)

/-! ## The first digit -/

/-- A positive number has as many digits as the power of the base above it. -/
theorem pow_le_and_lt_pow (hbase : 1 < base) (hn : 0 < n) :
    (base : ℚ) ^ ((Nat.toDigits base n).length - 1 : ℤ) ≤ n ∧
      (n : ℚ) < (base : ℚ) ^ ((Nat.toDigits base n).length : ℤ) := by
  obtain ⟨k, hk⟩ : ∃ k, (Nat.toDigits base n).length = k + 1 :=
    Nat.exists_eq_add_one_of_ne_zero (by simp [Nat.toDigits_ne_nil])
  rw [hk]
  constructor
  · have hle : base ^ k ≤ n := by
      rcases Nat.eq_zero_or_pos k with rfl | hpos
      · rwa [pow_zero, Nat.one_le_iff_ne_zero, ← Nat.pos_iff_ne_zero]
      · by_contra hlt
        have := (Nat.length_toDigits_le_iff hbase hpos).mpr (not_le.mp hlt)
        omega
    rw [Nat.cast_add, Nat.cast_one, add_sub_cancel_right, zpow_natCast]
    exact_mod_cast hle
  · have hlt := (Nat.length_toDigits_le_iff hbase (Nat.succ_pos k)).mp hk.le
    rw [zpow_natCast]
    exact_mod_cast hlt

/-- The first digit of a positive number has the exponent of the greatest power below it. -/
theorem exponent_spec (hbase : 1 < base) (hq : 0 < q) :
    (base : ℚ) ^ exponent base q ≤ q ∧ q < (base : ℚ) ^ (exponent base q + 1) := by
  have hpos : (0 : ℚ) < base := by positivity
  have hone : (base : ℚ) ≠ 0 := hpos.ne'
  have hnum : 0 < q.num.toNat := by
    have := Rat.num_pos.mpr hq
    omega
  have hvalue : q = (q.num.toNat : ℚ) / q.den := by
    have hcast : ((q.num.toNat : ℕ) : ℚ) = (q.num : ℚ) := by
      exact_mod_cast Int.toNat_of_nonneg (Rat.num_nonneg.mpr hq.le)
    rw [hcast, Rat.num_div_den]
  have hden : (0 : ℚ) < q.den := by exact_mod_cast q.den_pos
  obtain ⟨hnumLe, hnumLt⟩ := pow_le_and_lt_pow hbase hnum
  obtain ⟨hdenLe, hdenLt⟩ := pow_le_and_lt_pow hbase q.den_pos
  -- The quotient lies between two powers whose exponents differ by two.
  set a : ℤ := ((Nat.toDigits base q.num.toNat).length : ℤ) with ha
  set c : ℤ := ((Nat.toDigits base q.den).length : ℤ) with hc
  have hlow : (base : ℚ) ^ (a - c - 1) < q := by
    rw [hvalue, lt_div_iff₀ hden]
    calc (base : ℚ) ^ (a - c - 1) * q.den
        < (base : ℚ) ^ (a - c - 1) * (base : ℚ) ^ c := by gcongr
      _ = (base : ℚ) ^ (a - 1) := by rw [← zpow_add₀ hone]; congr 1; ring
      _ ≤ q.num.toNat := hnumLe
  have hhigh : q < (base : ℚ) ^ (a - c + 1) := by
    rw [hvalue, div_lt_iff₀ hden]
    calc (q.num.toNat : ℚ) < (base : ℚ) ^ a := hnumLt
      _ = (base : ℚ) ^ (a - c + 1) * (base : ℚ) ^ (c - 1) := by
        rw [← zpow_add₀ hone]; congr 1; ring
      _ ≤ (base : ℚ) ^ (a - c + 1) * q.den := by gcongr
  simp only [exponent, ← ha, ← hc]
  split_ifs with h
  · exact ⟨h, hhigh⟩
  · exact ⟨hlow.le, by simpa using h⟩

/-- There is one such exponent. -/
theorem exponent_eq (hbase : 1 < base) (hle : (base : ℚ) ^ e ≤ q)
    (hlt : q < (base : ℚ) ^ (e + 1)) : exponent base q = e := by
  have hone : (1 : ℚ) < base := by exact_mod_cast hbase
  have hq : 0 < q := lt_of_lt_of_le (by positivity) hle
  obtain ⟨hle', hlt'⟩ := exponent_spec hbase hq
  have h1 := (zpow_lt_zpow_iff_right₀ hone).mp (hle.trans_lt hlt')
  have h2 := (zpow_lt_zpow_iff_right₀ hone).mp (hle'.trans_lt hlt)
  omega

/-! ## Double precision -/

/-- A positive number is one of 53 digits and a fraction before a power of two. -/
theorem exists_eq_mul_zpow (hq : 0 < q) :
    ∃ x : ℚ, ∃ b : ℤ, 2 ^ 52 ≤ x ∧ x < 2 ^ 53 ∧ q = x * 2 ^ b := by
  obtain ⟨hle, hlt⟩ := exponent_spec Nat.one_lt_two hq
  rw [Nat.cast_ofNat] at hle hlt
  refine ⟨q / 2 ^ (exponent 2 q - 52), exponent 2 q - 52, ?_, ?_, by field_simp⟩
  · rw [le_div_iff₀ (by positivity), ← zpow_natCast, ← zpow_add₀ (by norm_num)]
    simpa using hle
  · have hexponent : ((53 : ℕ) : ℤ) + (exponent 2 q - 52) = exponent 2 q + 1 := by omega
    rwa [div_lt_iff₀ (by positivity), ← zpow_natCast, ← zpow_add₀ (by norm_num), hexponent]

/-- Of such a number the fraction is rounded. -/
theorem double_mul_zpow {x : ℚ} (b : ℤ) (hle : 2 ^ 52 ≤ x) (hlt : x < 2 ^ 53) :
    double (x * 2 ^ b) = nearest x * 2 ^ b := by
  have hexponent : exponent 2 (x * 2 ^ b) = 52 + b := by
    refine exponent_eq (by decide) ?_ ?_
    · rw [Nat.cast_ofNat, zpow_add₀ (by norm_num)]
      gcongr
      exact_mod_cast hle
    · rw [Nat.cast_ofNat, show 52 + b + 1 = 53 + b by ring, zpow_add₀ (by norm_num)]
      gcongr
      exact_mod_cast hlt
  rw [double, hexponent, add_sub_cancel_left, mul_div_cancel_right₀ x (by positivity)]

/-- The number is one of double precision, with these 53 binary digits before this power of two. -/
structure IsDouble (q : ℚ) (m : ℕ) (b : ℤ) : Prop where
  /-- The first of its digits is not zero. -/
  le : 2 ^ 52 ≤ m
  /-- There are no more than 53. -/
  lt : m < 2 ^ 53
  /-- This is the number. -/
  eq : q = m * 2 ^ b

/-- A positive number is rounded to one of double precision. -/
theorem exists_isDouble_double (hq : 0 < q) : ∃ m b, IsDouble (double q) m b := by
  obtain ⟨x, b, hle, hlt, rfl⟩ := exists_eq_mul_zpow hq
  rw [double_mul_zpow b hle hlt]
  obtain ⟨hlow, hhigh⟩ := abs_le.mp (abs_nearest_sub_le (q := x) (by linarith))
  have hmLe : 2 ^ 52 < nearest x + 1 := by
    have : (2 : ℚ) ^ 52 < (nearest x : ℚ) + 1 := by linarith
    exact_mod_cast this
  have hmLt : nearest x < 2 ^ 53 + 1 := by
    have : (nearest x : ℚ) < 2 ^ 53 + 1 := by linarith
    exact_mod_cast this
  -- Rounding up may lead to the next power of two, which has one digit more.
  rcases Nat.lt_or_ge (nearest x) (2 ^ 53) with hfits | hcarry
  · exact ⟨nearest x, b, Nat.lt_succ_iff.mp hmLe, hfits, rfl⟩
  · refine ⟨2 ^ 52, b + 1, le_rfl, by norm_num, ?_⟩
    have hpower : nearest x = 2 ^ 53 := by omega
    rw [hpower, zpow_add₀ (by norm_num), zpow_one]
    push_cast
    ring

/-- A number close to one of double precision is rounded to it. -/
theorem double_eq_of_abs_le {v : ℚ} {m : ℕ} {b : ℤ} (h : IsDouble v m b)
    (hclose : |q - v| ≤ v / (2 * 10 ^ 16)) : double q = v := by
  have hunit : (0 : ℚ) < 2 ^ b := by positivity
  have hmLe : (2 : ℚ) ^ 52 ≤ m := by exact_mod_cast h.le
  have hmLt : (m : ℚ) + 1 ≤ 2 ^ 53 := by exact_mod_cast h.lt
  -- In units of the last digit, the distance is less than a half.
  obtain ⟨x, rfl⟩ : ∃ x, q = x * 2 ^ b := ⟨q / 2 ^ b, by field_simp⟩
  have hx : |x - m| ≤ m / (2 * 10 ^ 16) := by
    rw [h.eq, ← sub_mul, abs_mul, abs_of_pos hunit, mul_div_right_comm] at hclose
    exact le_of_mul_le_mul_right hclose hunit
  obtain ⟨hlow, hhigh⟩ := abs_le.mp hx
  rcases le_or_gt ((2 : ℚ) ^ 52) x with hsame | hbelow
  · have hround : nearest x = m :=
      nearest_eq_of_abs_lt (by linarith) (abs_lt.mpr ⟨by linarith, by linarith⟩)
    rw [double_mul_zpow b hsame (by linarith), hround, h.eq]
  · -- It has a digit less before this power of two, so the other number is the least one with 53
    -- digits, and the next power below leaves room for one more digit.
    have hm : m = 2 ^ 52 := by
      have hlt : (m : ℚ) < 2 ^ 52 + 1 := by linarith
      have hlt' : m < 2 ^ 52 + 1 := by exact_mod_cast hlt
      exact Nat.le_antisymm (Nat.lt_succ_iff.mp hlt') h.le
    have hvalue : (m : ℚ) = 2 ^ 52 := by exact_mod_cast hm
    have hshift (y : ℚ) : y * 2 ^ b = 2 * y * 2 ^ (b - 1) := by
      rw [zpow_sub_one₀ (by norm_num)]
      ring
    have hround : nearest (2 * x) = 2 ^ 53 := by
      refine nearest_eq_of_abs_lt (by linarith) (abs_lt.mpr ⟨?_, ?_⟩) <;> push_cast <;> linarith
    rw [hshift, double_mul_zpow (b - 1) (by linarith) (by linarith), hround, h.eq, hshift, hvalue]
    push_cast
    ring

/-! ## Numerals -/

namespace Scientific

/-- A numeral of 17 digits is off by half a part in 10¹⁶ at most. -/
theorem abs_value_rounded_sub_le (hq : 0 < q) :
    |(rounded 17 q).value - q| ≤ q / (2 * 10 ^ 16) := by
  obtain ⟨hle, -⟩ := exponent_spec (by decide : 1 < 10) hq
  rw [Nat.cast_ofNat] at hle
  set e := Text.exponent 10 q + 1 - (17 : ℕ) with he
  have hunit : (0 : ℚ) < 10 ^ e := by positivity
  have hvalue : (rounded 17 q).value = nearest (q / 10 ^ e) * 10 ^ e := rfl
  have hpower : (10 : ℚ) ^ e * 10 ^ 16 ≤ q := by
    have hexponent : e + (16 : ℕ) = Text.exponent 10 q := by omega
    rwa [← zpow_natCast, ← zpow_add₀ (by norm_num), hexponent]
  calc |(rounded 17 q).value - q|
      = |(nearest (q / 10 ^ e) : ℚ) - q / 10 ^ e| * 10 ^ e := by
        rw [hvalue, ← abs_of_pos hunit, ← abs_mul, abs_of_pos hunit, sub_mul,
          div_mul_cancel₀ _ hunit.ne']
    _ ≤ 1 / 2 * 10 ^ e := by
        gcongr
        exact abs_nearest_sub_le (div_nonneg hq.le hunit.le)
    _ ≤ q / (2 * 10 ^ 16) := by
        rw [le_div_iff₀ (by positivity)]
        linarith

/-- What is found has the property that it is looked for, if what stands in for it has. -/
theorem getD_find? {A : Type} {p : A → Bool} {l : List A} {a : A} (h : p a = true) :
    p ((l.find? p).getD a) = true := by
  cases hfind : l.find? p with
  | none => exact h
  | some b => exact List.find?_some hfind

/-- The numeral that is looked for is read as the number if the one with 17 digits is. -/
theorem double_shortest_of_rounded (h : double (rounded 17 q).value = q) :
    double (shortest q).value = q := by
  unfold shortest
  exact of_decide_eq_true
    (getD_find? (p := fun s : Scientific => decide (double s.value = q)) (decide_eq_true h))

/-- What is written of a number of double precision is read as that number. -/
theorem double_shortest (hq : 0 ≤ q) : double (shortest (double q)).value = double q := by
  rcases hq.eq_or_lt with rfl | hpos
  · decide +kernel
  · obtain ⟨m, b, h⟩ := exists_isDouble_double hpos
    have hv : 0 < double q := by
      have := h.le
      rw [h.eq]
      positivity
    exact double_shortest_of_rounded (double_eq_of_abs_le h (abs_value_rounded_sub_le hv))

/-! ## Their characters -/

/-- The text consists of digits, points, and the letter and the sign of an exponent. -/
def IsNumeric (s : List Char) : Prop :=
  ∀ c ∈ s, c.isDigit = true ∨ c ∈ ['.', 'e', '-']

theorem isNumeric_append {s t : List Char} : IsNumeric (s ++ t) ↔ IsNumeric s ∧ IsNumeric t :=
  List.forall_mem_append

theorem isNumeric_cons {c : Char} {s : List Char} :
    IsNumeric (c :: s) ↔ (c.isDigit = true ∨ c ∈ ['.', 'e', '-']) ∧ IsNumeric s :=
  List.forall_mem_cons

theorem isNumeric_decimal (n : ℕ) : IsNumeric (decimal n) :=
  fun _ hc => .inl (isDigit_of_mem_decimal hc)

/-- The text of a numeral is such a text, and not empty. -/
theorem isNumeric_text (s : Scientific) : IsNumeric s.text ∧ s.text ≠ [] := by
  have hnil : IsNumeric [] := nofun
  have htake (k : ℕ) : IsNumeric ((decimal s.digits).take k) :=
    fun c hc => isNumeric_decimal _ c (List.mem_of_mem_take hc)
  have hdrop (k : ℕ) : IsNumeric ((decimal s.digits).drop k) :=
    fun c hc => isNumeric_decimal _ c (List.mem_of_mem_drop hc)
  have hzeros (k : ℕ) : IsNumeric (List.replicate k '0') :=
    fun c hc => .inl (List.eq_of_mem_replicate hc ▸ rfl)
  simp only [text]
  split_ifs <;>
    simp [-List.drop_one, isNumeric_append, isNumeric_cons, isNumeric_decimal, decimal_ne_nil, hnil,
      htake, hdrop, hzeros]

end Scientific

end Deferral.Text
