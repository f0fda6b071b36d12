import Deferral.Toml.Document
import Deferral.Proofs.Text.Decimal

/-!
# Reading numbers and strings

What is read from a number in decimal digits, and from a string between quotes or apostrophes on
one line, if a line feed follows. A number is no date or time then, since no hyphen or colon
follows its digits.

Main statements:
* `numberOrMoment?_decimal`: a number is read from its digits.
* `string?_quoted` and `string?_literal`: a string is read from what stands between its delimiters.
* `value?_of_scalarValue?`: such a value is read as it is.
-/

namespace Deferral.Toml

/-! ## Numbers -/

variable {ds rest : List Char}

/-- Digits are read up to a line feed. -/
theorem digitsRest_append (hds : ∀ c ∈ ds, c.isDigit = true) :
    digitsRest Char.isDigit (ds ++ '\n' :: rest) = some (ds, '\n' :: rest) := by
  induction ds with
  | nil => simp [digitsRest]
  | cons d ds ih =>
    obtain ⟨hd, hds⟩ := List.forall_mem_cons.mp hds
    simp [digitsRest, hd, ih hds, andThen]

/-- A fixed number of characters is read as a number only within the digits. -/
theorem fixed?_append {k m : Nat} {s : List Char}
    (h : fixed? k (ds ++ '\n' :: rest) = some (m, s)) : s = ds.drop k ++ '\n' :: rest := by
  rw [fixed?] at h
  simp only [Option.ite_none_right_eq_some, Option.some.injEq, Prod.mk.injEq] at h
  obtain ⟨⟨hlength, hdigits⟩, -, rfl⟩ := h
  rcases Nat.lt_or_ge ds.length k with hlt | hle
  · -- The line feed is among the characters, which is no digit.
    have hmem : '\n' ∈ (ds ++ '\n' :: rest).take k := by
      rw [List.take_append, List.mem_append]
      refine .inr ?_
      obtain ⟨j, hj⟩ : ∃ j, k - ds.length = j + 1 := ⟨k - ds.length - 1, by omega⟩
      rw [hj, List.take_succ_cons]
      exact List.mem_cons_self
    exact absurd (List.all_eq_true.mp hdigits _ hmem) (by decide)
  · exact List.drop_append_of_le_length hle

/-- After some of the digits there is neither a hyphen nor a colon. -/
theorem skip?_append {c : Char} (hds : ∀ d ∈ ds, d.isDigit = true) (hc : c.isDigit = false)
    (hline : c ≠ '\n') (k : Nat) : skip? c (ds.drop k ++ '\n' :: rest) = none := by
  cases hdrop : ds.drop k with
  | nil => simp [skip?, hline]
  | cons d ds' =>
    have hd : d.isDigit = true := hds d (List.mem_of_mem_drop (hdrop ▸ List.mem_cons_self))
    have hne : c ≠ d := by
      rintro rfl
      rw [hc] at hd
      cases hd
    simp [skip?, hne]

/-- Digits before a line feed are the beginning of no date. -/
theorem no_date (hds : ∀ d ∈ ds, d.isDigit = true) :
    (do let (year, s) ← fixed? 4 (ds ++ '\n' :: rest); some (year, ← skip? '-' s) :
      Option (Nat × List Char)) = none := by
  cases hfixed : fixed? 4 (ds ++ '\n' :: rest) with
  | none => rfl
  | some read =>
    obtain ⟨year, s⟩ := read
    obtain rfl := fixed?_append hfixed
    simp [skip?_append hds]

/-- Nor of a time. -/
theorem no_time (hds : ∀ d ∈ ds, d.isDigit = true) : hour? (ds ++ '\n' :: rest) = none := by
  rw [hour?, pair?]
  cases hfixed : fixed? 2 (ds ++ '\n' :: rest) with
  | none => rfl
  | some read =>
    obtain ⟨hour, s⟩ := read
    obtain rfl := fixed?_append hfixed
    simp only [Option.bind_eq_bind, Option.bind_some]
    split
    next => exact skip?_append hds (by decide) (by decide) 2
    next => rfl

/-- The first character of digits before a line feed is a digit or the line feed. -/
theorem isDigit_or_eq_of_append {c : Char} {s : List Char} (hds : ∀ d ∈ ds, d.isDigit = true)
    (h : ds ++ '\n' :: rest = c :: s) : c.isDigit = true ∨ c = '\n' := by
  cases ds with
  | nil => exact .inr (List.cons.inj h).1.symm
  | cons d ds =>
    obtain ⟨rfl, -⟩ := List.cons.inj h
    exact .inl (hds d List.mem_cons_self)

/-- Digits before a line feed have no sign and no mark of another base. -/
theorem number?_append (hds : ∀ d ∈ ds, d.isDigit = true) :
    number? (ds ++ '\n' :: rest) = unsigned? false (ds ++ '\n' :: rest) := by
  -- The mark of another base stands in the second place, where there is a digit or the line feed.
  have hmark (c : Char) (s : List Char) (hc : c.isDigit = false) (hline : c ≠ '\n')
      (h : ds ++ '\n' :: rest = '0' :: c :: s) : False := by
    cases ds with
    | nil => cases h
    | cons d ds =>
      rcases isDigit_or_eq_of_append (fun e he => hds e (List.mem_cons_of_mem _ he))
        (List.cons.inj h).2 with hdigit | heq
      · rw [hc] at hdigit
        cases hdigit
      · exact hline heq
  rw [number?.eq_def]
  split
  next h => rcases isDigit_or_eq_of_append hds h with h | h <;> cases h
  next h => rcases isDigit_or_eq_of_append hds h with h | h <;> cases h
  next s h => exact absurd h fun h => hmark 'x' s (by decide) (by decide) h
  next s h => exact absurd h fun h => hmark 'o' s (by decide) (by decide) h
  next s h => exact absurd h fun h => hmark 'b' s (by decide) (by decide) h
  next => rfl

/-- The digits of a number are read up to a line feed. -/
theorem decimal?_append (n : Nat) (rest : List Char) :
    decimal? (Text.decimal n ++ '\n' :: rest) = some (Text.decimal n, '\n' :: rest) := by
  have hdigits : ∀ d ∈ Text.decimal n, d.isDigit = true :=
    fun d hd => Text.isDigit_of_mem_decimal hd
  -- A zero in the first place is read by itself, and no other digit follows it.
  rw [decimal?.eq_def]
  split
  next s h =>
    cases hdecimal : Text.decimal n with
    | nil => exact absurd hdecimal (Text.decimal_ne_nil n)
    | cons d ds =>
      rw [hdecimal] at h
      obtain ⟨rfl, hs⟩ := List.cons.inj h
      obtain ⟨-, rfl⟩ := Text.eq_zero_of_decimal hdecimal
      rw [← hs]
      rfl
  next =>
    cases hdecimal : Text.decimal n with
    | nil => exact absurd hdecimal (Text.decimal_ne_nil n)
    | cons d ds =>
      obtain ⟨hd, hds⟩ := List.forall_mem_cons.mp (hdecimal ▸ hdigits)
      rw [List.cons_append, digits?, if_pos hd, digitsRest_append hds]
      rfl

/-- A number without a fraction or an exponent is an integer. -/
theorem afterWhole?_newline {whole : List Char} {n : Nat} (hwhole : Text.ofDigits whole = n)
    (hn : n ≤ Text.maxSigned) (rest : List Char) :
    afterWhole? false whole ('\n' :: rest) = some (.integer n, '\n' :: rest) := by
  have hinteger : integer? (n : Int) = some (.integer n) := if_pos (by omega)
  rw [afterWhole?.eq_def]
  simp [hwhole, hinteger]

/-- A number of 64 bits is read from its digits. -/
theorem numberOrMoment?_decimal {n : Nat} (hn : n ≤ Text.maxSigned) (rest : List Char) :
    numberOrMoment? (Text.decimal n ++ '\n' :: rest) = some (.integer n, '\n' :: rest) := by
  have hdigits : ∀ d ∈ Text.decimal n, d.isDigit = true :=
    fun d hd => Text.isDigit_of_mem_decimal hd
  have hunsigned :
      unsigned? false (Text.decimal n ++ '\n' :: rest) = some (.integer n, '\n' :: rest) := by
    rw [unsigned?.eq_def]
    split
    next h => rcases isDigit_or_eq_of_append hdigits h with h | h <;> cases h
    next h => rcases isDigit_or_eq_of_append hdigits h with h | h <;> cases h
    next =>
      rw [decimal?_append]
      exact afterWhole?_newline (Text.ofDigits_decimal n) hn rest
  -- Dates and times are tried first.
  rw [numberOrMoment?, no_date hdigits, no_time hdigits]
  exact (number?_append hdigits).trans hunsigned

/-! ## Strings -/

variable {s : List Char}

/-- What stands before a quote is read as it is, if it needs no escape. -/
theorem basicRest_append (hs : ∀ c ∈ s, c ≠ '"' ∧ c ≠ '\\' ∧ isShown c = true) (rest : List Char) :
    basicRest .plain (s ++ '"' :: rest) = some (s, rest) := by
  induction s with
  | nil => simp [basicRest]
  | cons c s ih =>
    obtain ⟨⟨hquote, hescape, hshown⟩, hs⟩ := List.forall_mem_cons.mp hs
    simp [basicRest, hquote, hescape, hshown, ih hs, andThen]

/-- What stands before an apostrophe is read as it is. -/
theorem literalRest_append (hs : ∀ c ∈ s, c ≠ '\'' ∧ isShown c = true) (rest : List Char) :
    literalRest (s ++ '\'' :: rest) = some (s, rest) := by
  induction s with
  | nil => simp [literalRest]
  | cons c s ih =>
    obtain ⟨⟨happostrophe, hshown⟩, hs⟩ := List.forall_mem_cons.mp hs
    simp [literalRest, happostrophe, hshown, ih hs, andThen]

/-- A string between quotes on one line is read, also the empty one. -/
theorem string?_quoted (hs : ∀ c ∈ s, c ≠ '"' ∧ c ≠ '\\' ∧ isShown c = true) (rest : List Char) :
    string? ('"' :: s ++ '"' :: '\n' :: rest) = some (s, '\n' :: rest) := by
  rw [← basicRest_append hs ('\n' :: rest), string?.eq_def]
  split
  next heq =>
    -- Three quotes would open a string of several lines.
    cases s with
    | nil => cases heq
    | cons c s =>
      have hquote := (List.cons.inj (List.cons.inj heq).2).1
      exact absurd hquote (hs c List.mem_cons_self).1
  next heq => exact congrArg _ (List.cons.inj heq).2.symm
  next heq => cases heq
  next heq => cases heq
  next hno _ _ => exact (hno _ rfl).elim

/-- A string between apostrophes on one line is read, unless it is empty. -/
theorem string?_literal (hs : ∀ c ∈ s, c ≠ '\'' ∧ isShown c = true) (rest : List Char)
    (hne : s ≠ []) : string? ('\'' :: s ++ '\'' :: '\n' :: rest) = some (s, '\n' :: rest) := by
  rw [← literalRest_append hs ('\n' :: rest), string?.eq_def]
  split
  next heq => cases heq
  next heq => cases heq
  next heq =>
    obtain ⟨c, s, rfl⟩ := List.exists_cons_of_ne_nil hne
    -- Nor do three apostrophes begin a string of one line.
    have happostrophe := (List.cons.inj (List.cons.inj heq).2).1
    exact absurd happostrophe (hs c List.mem_cons_self).1
  next heq => exact congrArg _ (List.cons.inj heq).2.symm
  next hno => exact (hno _ rfl).elim

/-! ## Values -/

/-- The text is read as the item at the end of a line. -/
structure Represents (value : List Char) (item : Item) : Prop where
  /-- It begins like a string or a number. -/
  first : ∃ c s, value = c :: s ∧ isSpace c = false ∧ c ≠ '[' ∧ c ≠ '\x7b'
  /-- It is read as far as a line feed. -/
  read : ∀ rest, scalarValue? (value ++ '\n' :: rest) = some (item, '\n' :: rest)

/-- The digits of a number of 64 bits represent it. -/
theorem represents_decimal {n : Nat} (hn : n ≤ Text.maxSigned) :
    Represents (Text.decimal n) (.integer n) := by
  cases hdecimal : Text.decimal n with
  | nil => exact absurd hdecimal (Text.decimal_ne_nil n)
  | cons d ds =>
    have hd : d.isDigit = true :=
      Text.isDigit_of_mem_decimal (n := n) (hdecimal ▸ List.mem_cons_self)
    have hne (c : Char) (hc : c.isDigit = false) : d ≠ c := by
      rintro rfl
      rw [hc] at hd
      cases hd
    refine ⟨⟨d, ds, rfl, ?_, hne _ (by decide), hne _ (by decide)⟩, fun rest => ?_⟩
    · simp [isSpace, hne ' ' (by decide), hne '\t' (by decide)]
    · rw [← numberOrMoment?_decimal hn rest, hdecimal, List.cons_append, scalarValue?]
      simp [hne '"' (by decide), hne '\'' (by decide), hne 't' (by decide), hne 'f' (by decide)]

/-- A string between quotes represents what needs no escape. -/
theorem represents_quoted (hs : ∀ c ∈ s, c ≠ '"' ∧ c ≠ '\\' ∧ isShown c = true) :
    Represents ('"' :: s ++ ['"']) (.text s) := by
  refine ⟨⟨'"', _, rfl, by decide, by decide, by decide⟩, fun rest => ?_⟩
  rw [List.append_assoc, List.cons_append, scalarValue?, if_pos (by decide)]
  have hread := string?_quoted hs rest
  simp only [List.cons_append, List.nil_append] at hread ⊢
  rw [hread]
  rfl

/-- A string between apostrophes represents what has none. -/
theorem represents_literal (hs : ∀ c ∈ s, c ≠ '\'' ∧ isShown c = true) (hne : s ≠ []) :
    Represents ('\'' :: s ++ ['\'']) (.text s) := by
  refine ⟨⟨'\'', _, rfl, by decide, by decide, by decide⟩, fun rest => ?_⟩
  rw [List.append_assoc, List.cons_append, scalarValue?, if_pos (by decide)]
  have hread := string?_literal hs rest hne
  simp only [List.cons_append, List.nil_append] at hread ⊢
  rw [hread]
  rfl

/-- What represents an item is read as a value, at any depth. -/
theorem Represents.value? {value : List Char} {item : Item} (h : Represents value item)
    (n depth : Nat) (rest : List Char) :
    value? (n + 1) depth (value ++ '\n' :: rest) = some (item, '\n' :: rest) := by
  rw [← h.read rest]
  obtain ⟨c, s, rfl, -, hbracket, hbrace⟩ := h.first
  rw [Toml.value?.eq_def]
  simp only
  split
  next heq => exact absurd (List.cons.inj heq).1 hbracket
  next heq => exact absurd (List.cons.inj heq).1 hbrace
  next => rfl

end Deferral.Toml
