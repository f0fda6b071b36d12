import Deferral.Text.Lines

/-!
# Falling into lines

`Splits` tells which lines a text falls into by its line endings, without reference to how the text
is gone through: a line feed ends a line, and so does a carriage return with a line feed right
behind it. What no line feed ends is a line of its own, unless it is empty.

Main statements:
* `splits_iff`: the lines of a text are those that it falls into.
* `lines_append`: a text that ends at the end of a line keeps its lines, whatever is put behind it.
-/

namespace Deferral.Text

/-- The text falls into these lines. -/
inductive Splits : List Char → List (List Char) → Prop
  /-- The empty text has no line. -/
  | nil : Splits [] []
  /-- What no line feed ends is the last line. -/
  | unended {line : List Char} (hne : line ≠ []) (hfeed : '\n' ∉ line) : Splits line [line]
  /-- A line feed ends a line. -/
  | feed {line rest : List Char} {ls : List (List Char)} (hfeed : '\n' ∉ line)
      (hreturn : line.getLast? ≠ some '\r') (h : Splits rest ls) : Splits (line ++ '\n' :: rest) (line :: ls)
  /-- So does a line feed behind a carriage return, which is no part of the line then. -/
  | returnFeed {line rest : List Char} {ls : List (List Char)} (hfeed : '\n' ∉ line) (h : Splits rest ls) :
      Splits (line ++ '\r' :: '\n' :: rest) (line :: ls)

variable {s t line rest : List Char} {ls ls' : List (List Char)} {c : Char}

/-! ## The lines that are read -/

/-- A carriage return and the line feed behind it end an empty line. -/
@[simp]
theorem lines_return_newline (rest : List Char) :
    lines ('\r' :: '\n' :: rest) = [] :: lines rest := by
  simp [lines]

/-- A character that begins no line ending goes to the front of the line that follows. -/
theorem lines_cons (hfeed : c ≠ '\n') (hreturn : rest.head? = some '\n' → c ≠ '\r')
    (hrest : lines rest = line :: ls) : lines (c :: rest) = (c :: line) :: ls := by
  have hnext (rest' : List Char) (hc : c = '\r') (h : rest = '\n' :: rest') : False :=
    hreturn (h ▸ List.head?_cons) hc
  rw [lines.eq_4 c rest hfeed hnext, hrest]

/-- A last character that is no line feed is a line. -/
theorem lines_singleton (h : c ≠ '\n') : lines [c] = [[c]] := by
  have hnext (rest : List Char) (_ : c = '\r') (h : [] = '\n' :: rest) : False :=
    List.cons_ne_nil _ _ h.symm
  rw [lines.eq_4 c [] h hnext, lines_nil]

/-- Characters that end no line go to the front of the line that follows. -/
theorem lines_append_of_not_mem (hfeed : '\n' ∉ s)
    (hreturn : t.head? = some '\n' → s.getLast? ≠ some '\r') (ht : lines t = line :: ls) :
    lines (s ++ t) = (s ++ line) :: ls := by
  induction s with
  | nil => exact ht
  | cons c s ih =>
    rw [List.mem_cons, not_or] at hfeed
    cases s with
    | nil => exact lines_cons (Ne.symm hfeed.1) (fun hhead hc => hreturn hhead (hc ▸ rfl)) ht
    | cons d s =>
      -- The next character is another one of `s`, and so no line feed.
      have hd : '\n' ≠ d := fun h => hfeed.2 (h ▸ List.mem_cons_self)
      exact lines_cons (Ne.symm hfeed.1) (fun hhead _ => hd (Option.some.inj hhead).symm)
        (ih hfeed.2 hreturn)

/-- What no line feed ends is one line. -/
theorem lines_of_not_mem (hne : line ≠ []) (hfeed : '\n' ∉ line) : lines line = [line] := by
  obtain ⟨s, c, rfl⟩ := (List.eq_nil_or_concat line).resolve_left hne
  rw [List.concat_eq_append, List.mem_append, not_or, List.mem_singleton] at hfeed
  have hc := lines_singleton (Ne.symm hfeed.2)
  rw [List.concat_eq_append]
  exact lines_append_of_not_mem hfeed.1
    (fun hhead => absurd (Option.some.inj hhead) (Ne.symm hfeed.2)) hc

/-! ## Falling into lines -/

/-- A text is read as the lines that it falls into. -/
theorem Splits.lines_eq (h : Splits s ls) : lines s = ls := by
  induction h with
  | nil => exact lines_nil
  | unended hne hfeed => exact lines_of_not_mem hne hfeed
  | @feed line rest ls hfeed hreturn _ ih =>
    have hend : lines ('\n' :: rest) = [] :: ls := by rw [lines_newline, ih]
    rw [lines_append_of_not_mem hfeed (fun _ => hreturn) hend, List.append_nil]
  | @returnFeed line rest ls hfeed _ ih =>
    have hend : lines ('\r' :: '\n' :: rest) = [] :: ls := by rw [lines_return_newline, ih]
    have hreturn : ('\r' :: '\n' :: rest).head? = some '\n' → line.getLast? ≠ some '\r' := by simp
    rw [lines_append_of_not_mem hfeed hreturn hend, List.append_nil]

/-- A character that begins no line ending goes to the front of the line that follows. -/
theorem Splits.cons (hfeed : c ≠ '\n') (hreturn : rest.head? = some '\n' → c ≠ '\r')
    (h : Splits rest (line :: ls)) : Splits (c :: rest) ((c :: line) :: ls) := by
  have hmem {l : List Char} (hl : '\n' ∉ l) : '\n' ∉ c :: l :=
    List.not_mem_cons_of_ne_of_not_mem (Ne.symm hfeed) hl
  cases h with
  | unended hne hl => exact .unended (List.cons_ne_nil c _) (hmem hl)
  | feed hl hlast h =>
    refine .feed (hmem hl) ?_ h
    cases line with
    | nil => exact fun hc => hreturn rfl (Option.some.inj hc)
    | cons d line => exact hlast
  | returnFeed hl h => exact .returnFeed (hmem hl) h

/-- Only the empty text has no line. -/
theorem Splits.eq_nil (h : Splits s []) : s = [] := by
  cases h
  rfl

/-- Every text falls into the lines that are read. -/
theorem splits_lines (s : List Char) : Splits s (lines s) := by
  induction s using lines.induct with
  | case1 => exact lines_nil ▸ .nil
  | case2 rest ih => exact lines_newline rest ▸ .feed List.not_mem_nil (by simp) ih
  | case3 rest ih => exact lines_return_newline rest ▸ .returnFeed List.not_mem_nil ih
  | case4 c rest hc _ hrest ih =>
    rw [hrest] at ih
    rw [ih.eq_nil, lines_singleton hc]
    exact .unended (List.cons_ne_nil c []) (by simpa using Ne.symm hc)
  | case5 c rest hc hnext line ls hrest ih =>
    have hreturn (hhead : rest.head? = some '\n') (hc' : c = '\r') : False := by
      obtain ⟨rest', rfl⟩ := List.head?_eq_some_iff.mp hhead
      exact hnext rest' hc' rfl
    rw [lines_cons hc hreturn hrest]
    exact .cons hc hreturn (hrest ▸ ih)

/-- The lines of a text are those that it falls into. -/
theorem splits_iff : Splits s ls ↔ lines s = ls := by
  constructor
  · exact Splits.lines_eq
  · rintro rfl
    exact splits_lines s

/-! ## Texts one behind the other -/

/-- The text ends where a line ends, or is empty. -/
def EndsLine (s : List Char) : Prop :=
  s = [] ∨ s.getLast? = some '\n'

instance (s : List Char) : Decidable (EndsLine s) :=
  inferInstanceAs (Decidable (_ ∨ _))

/-- What is left behind a line feed of a text that ends where a line ends, ends there, too. -/
theorem EndsLine.of_append (h : EndsLine (s ++ '\n' :: rest)) : EndsLine rest := by
  have hlast := h.resolve_left (List.append_ne_nil_of_right_ne_nil s (List.cons_ne_nil _ _))
  cases rest with
  | nil => exact .inl rfl
  | cons c rest => exact .inr (by simpa using hlast)

/-- A text that ends where a line ends falls into its lines, whatever is put behind it. -/
theorem Splits.append (h : Splits s ls) (hends : EndsLine s) (h' : Splits t ls') :
    Splits (s ++ t) (ls ++ ls') := by
  induction h with
  | nil => exact h'
  | unended hne hfeed =>
    exact absurd (List.mem_of_getLast? (hends.resolve_left hne)) hfeed
  | feed hfeed hreturn _ ih =>
    rw [List.append_assoc]
    exact .feed hfeed hreturn (ih hends.of_append)
  | @returnFeed line rest ls hfeed _ ih =>
    rw [List.append_assoc]
    have hrest : EndsLine rest := EndsLine.of_append (s := line ++ ['\r']) (by simpa using hends)
    exact .returnFeed hfeed (ih hrest)

/-- A text that ends where a line ends keeps its lines, whatever is put behind it. -/
theorem lines_append (h : EndsLine s) (t : List Char) : lines (s ++ t) = lines s ++ lines t :=
  ((splits_lines s).append h (splits_lines t)).lines_eq

end Deferral.Text
