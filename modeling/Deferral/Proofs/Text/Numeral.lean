import Deferral.Proofs.Text.Blank
import Deferral.Proofs.Text.Decimal

/-!
# Texts that stand for numbers

A text stands for a number if it holds a decimal numeral of 64 bits for it, perhaps behind a plus
sign, and nothing but blanks around it. `Stands` says so, without reference to how the text
is read.

Main statement:
* `readNatural?_trim_eq_some_iff`: what is read, and from which texts.
-/

namespace Deferral.Text

/-- A decimal digit is no blank. -/
theorem notMem_whiteSpace_of_isDigit {c : Char} (h : c.isDigit = true) : c ∉ whiteSpace := by
  have hrange : 48 ≤ c.toNat ∧ c.toNat ≤ 57 := by
    simpa [Char.isDigit, UInt32.le_iff_toNat_le] using h
  simp only [← isBlank_eq_false_iff, isBlank, Bool.or_eq_false_iff, Bool.and_eq_false_imp,
    decide_eq_true_eq, decide_eq_false_iff_not, beq_eq_false_iff_ne]
  omega

/-- There are no blanks in a numeral. -/
theorem Numeral.notMem_whiteSpace {s : List Char} {n : Nat} (h : Numeral s n) :
    ∀ c ∈ s, c ∉ whiteSpace := by
  cases h with
  | plain h => exact fun c hc => notMem_whiteSpace_of_isDigit (h.isDigit c hc)
  | signed h =>
    intro c hc
    rcases List.mem_cons.mp hc with rfl | hc
    · decide
    · exact notMem_whiteSpace_of_isDigit (h.isDigit c hc)

/-- A text stands for a number of at most 64 bits: it holds a numeral for it between blanks. -/
def Stands (s : String) (n : Nat) : Prop :=
  (∃ body, Padded body s.toList ∧ Numeral body n) ∧ n < 2 ^ 64

/-- Without the blanks at its ends, a text is read exactly as what it stands for. -/
theorem readNatural?_trim_eq_some_iff {s : String} {n : Nat} :
    readNatural? maxWord (trim s.toList) = some n ↔ Stands s n := by
  rw [readNatural?_eq_some_iff, le_maxWord_iff]
  constructor
  · exact fun ⟨h, hlimit⟩ => ⟨⟨_, padded_trim _, h⟩, hlimit⟩
  · rintro ⟨⟨body, hpadded, h⟩, hlimit⟩
    rw [hpadded.trim_eq h.notMem_whiteSpace]
    exact ⟨h, hlimit⟩

/-- A text stands for one number at most. -/
theorem Stands.unique {s : String} {m n : Nat} (h : Stands s m) (h' : Stands s n) : n = m :=
  Option.some.inj
    ((readNatural?_trim_eq_some_iff.mpr h').symm.trans (readNatural?_trim_eq_some_iff.mpr h))

end Deferral.Text
