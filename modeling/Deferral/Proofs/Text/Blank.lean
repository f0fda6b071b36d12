import Deferral.Text.Blank
import Mathlib.Data.List.TakeWhile

/-!
# Blanks at the ends

What is left of a text without the blanks at its ends is the part of it that has only blanks
around it and no blank at either end of its own. `Trimmed` says so, without reference to how the
blanks are removed, and the blanks are listed one by one in `whiteSpace`.

Main statements:
* `isBlank_iff`: which characters are blanks.
* `trim_eq_nil_iff`: nothing is left exactly if there are only blanks.
* `trimmed_iff`: what is left of a text.
-/

namespace Deferral.Text

variable {body s : List Char}

/-- The characters with the Unicode property `White_Space`. -/
def whiteSpace : List Char :=
  ['\t', '\n', '\u000b', '\u000c', '\r', ' ', '\u0085', '\u00a0', '\u1680',
    '\u2000', '\u2001', '\u2002', '\u2003', '\u2004', '\u2005', '\u2006', '\u2007', '\u2008',
    '\u2009', '\u200a', '\u2028', '\u2029', '\u202f', '\u205f', '\u3000']

/-- Exactly these are the blanks. -/
theorem isBlank_iff {c : Char} : isBlank c = true ↔ c ∈ whiteSpace := by
  simp only [isBlank, whiteSpace, List.mem_cons, List.not_mem_nil, or_false, ← Char.toNat_inj,
    Bool.or_eq_true, Bool.and_eq_true, decide_eq_true_eq, beq_iff_eq, Char.reduceToNat]
  omega

theorem isBlank_eq_false_iff {c : Char} : isBlank c = false ↔ c ∉ whiteSpace := by
  rw [← isBlank_iff, Bool.not_eq_true]

/-- A text holds nothing but blanks if all its characters are. -/
theorem subset_whiteSpace_iff : s ⊆ whiteSpace ↔ ∀ c ∈ s, isBlank c = true := by
  simp only [isBlank_iff, List.subset_def]

/-- There are no more blanks at the start once they were removed. -/
theorem trimStart_trimStart (s : List Char) : trimStart (trimStart s) = trimStart s :=
  List.dropWhile_eq_self_iff.mpr fun hl => List.dropWhile_get_zero_not isBlank s hl

/-- Nothing is left of a text without the blanks at its ends exactly if it holds
nothing but blanks. -/
theorem trim_eq_nil_iff (s : List Char) : trim s = [] ↔ s ⊆ whiteSpace := by
  rw [trim, trimEnd, List.reverse_eq_nil_iff, List.dropWhile_eq_nil_iff]
  simp only [List.mem_reverse]
  -- What is left at the start holds nothing but blanks only if it is nothing.
  rw [← List.dropWhile_eq_nil_iff, ← trimStart, trimStart_trimStart, trimStart,
    List.dropWhile_eq_nil_iff, subset_whiteSpace_iff]

/-! ## What is left -/

/-- A text holds another one between blanks. -/
def Padded (body s : List Char) : Prop :=
  ∃ before after, s = before ++ body ++ after ∧ before ⊆ whiteSpace ∧ after ⊆ whiteSpace

/-- A text holds another one between blanks, and none of these belongs to what it holds. -/
structure Trimmed (body s : List Char) : Prop where
  /-- It holds it between blanks. -/
  padded : Padded body s
  /-- What it holds does not begin with a blank. -/
  head : ∀ c ∈ body.head?, c ∉ whiteSpace
  /-- Nor does it end with one. -/
  last : ∀ c ∈ body.getLast?, c ∉ whiteSpace

/-- What is left when the blanks at the ends are removed stood between them. -/
theorem padded_trim (s : List Char) : Padded (trim s) s := by
  refine ⟨s.takeWhile isBlank, ((trimStart s).reverse.takeWhile isBlank).reverse, ?_, ?_, ?_⟩
  · have hend : trim s ++ ((trimStart s).reverse.takeWhile isBlank).reverse = trimStart s := by
      rw [trim, trimEnd, ← List.reverse_append, List.takeWhile_append_dropWhile,
        List.reverse_reverse]
    rw [List.append_assoc, hend, trimStart, List.takeWhile_append_dropWhile]
  · exact subset_whiteSpace_iff.mpr fun c hc => List.mem_takeWhile_imp hc
  · exact subset_whiteSpace_iff.mpr fun c hc => List.mem_takeWhile_imp (List.mem_reverse.mp hc)

/-- What is left when the blanks at the start are removed does not begin with one. -/
theorem notMem_whiteSpace_of_head? {l : List Char} {c : Char}
    (h : (l.dropWhile isBlank).head? = some c) : c ∉ whiteSpace := by
  have hc := List.head?_dropWhile_not isBlank l
  rw [h] at hc
  exact isBlank_eq_false_iff.mp hc

/-- What is left when the blanks at the ends are removed neither begins nor ends with one. -/
theorem trimmed_trim (s : List Char) : Trimmed (trim s) s where
  padded := padded_trim s
  head c hc := by
    -- Removing blanks at the end leaves the first character as it is.
    have hprefix : trim s <+: trimStart s := by
      rw [trim, trimEnd, ← List.reverse_suffix, List.reverse_reverse]
      exact List.dropWhile_suffix isBlank
    obtain ⟨rest, hrest⟩ := hprefix
    refine notMem_whiteSpace_of_head? (l := s) ?_
    rw [← trimStart, ← hrest, List.head?_append, hc, Option.some_or]
  last c hc := by
    rw [trim, trimEnd, List.getLast?_reverse] at hc
    exact notMem_whiteSpace_of_head? hc

/-- A text that does not begin with a blank stays as it is when the blanks at the
start are removed. -/
theorem dropWhile_isBlank_of_head? {l : List Char} (h : ∀ c ∈ l.head?, c ∉ whiteSpace) :
    l.dropWhile isBlank = l := by
  cases l with
  | nil => rfl
  | cons c l => exact List.dropWhile_cons_of_neg (isBlank_iff.not.mpr (h c rfl))

/-- What a text holds between blanks is left of it if none of them belongs to it. -/
theorem Trimmed.trim_eq (h : Trimmed body s) : trim s = body := by
  obtain ⟨before, after, rfl, hbefore, hafter⟩ := h.padded
  rw [subset_whiteSpace_iff] at hbefore hafter
  rw [trim, trimStart, List.append_assoc, List.dropWhile_append_of_pos hbefore]
  cases body with
  | nil =>
    rw [List.nil_append, List.dropWhile_eq_nil_iff.mpr hafter]
    rfl
  | cons c body =>
    have hend : ∀ d ∈ (c :: body).reverse.head?, d ∉ whiteSpace := by
      rw [List.head?_reverse]
      exact h.last
    rw [dropWhile_isBlank_of_head? (l := c :: body ++ after) h.head, trimEnd, List.reverse_append,
      List.dropWhile_append_of_pos fun d hd => hafter d (List.mem_reverse.mp hd),
      dropWhile_isBlank_of_head? hend, List.reverse_reverse]

/-- What is left of a text without the blanks at its ends. -/
theorem trimmed_iff : Trimmed body s ↔ trim s = body := by
  constructor
  · exact Trimmed.trim_eq
  · rintro rfl
    exact trimmed_trim s

/-- What has no blanks is left when the blanks around it are removed. -/
theorem Padded.trim_eq (h : Padded body s) (hbody : ∀ c ∈ body, c ∉ whiteSpace) :
    trim s = body :=
  Trimmed.trim_eq ⟨h, fun c hc => hbody c (List.mem_of_head? hc),
    fun c hc => hbody c (List.mem_of_getLast? hc)⟩

end Deferral.Text
