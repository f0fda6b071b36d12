import Deferral.Audit.Source
import Deferral.Proofs.Text.Blank
import Deferral.Proofs.Text.Lines

/-!
# What is found in a source text

A line of a source text offends if it stands before the tests, is no comment, and a pattern
occurs in it. Exactly the offending lines are reported, each once and in order, whatever the
order of the patterns.

If a text ends where a line ends, what is found in it is found in the same lines of any text that
begins with it. What follows is scanned as if it stood alone, unless the tests have begun.

Main statements:
* `mem_productionLines_iff`: the production lines of a source text.
* `mem_scanSource_iff`: the violations in a source text.
* `scanSource_exact`: what is reported of a source text, and what that depends on.
* `scanSource_composes`: what is reported of two texts one behind the other.
-/

namespace Deferral.Audit

variable {path : String} {source a line pattern : List Char} {patterns : List (List Char)}
  {ls : List (List Char)} {n : Nat} {v : Violation}

/-! ## Lines -/

/-- The mark of a comment stands at the start of the line, behind blanks at most. -/
def IsCommented (line : List Char) : Prop :=
  ∃ blanks rest, line = blanks ++ "//".toList ++ rest ∧ blanks ⊆ Text.whiteSpace

/-- This is the line of this number, counted from one. -/
def IsLine (ls : List (List Char)) (n : Nat) (line : List Char) : Prop :=
  1 ≤ n ∧ ls[n - 1]? = some line

/-- The line of this number is a production line. -/
structure IsProduction (ls : List (List Char)) (n : Nat) (line : List Char) : Prop where
  /-- It is the line of this number. -/
  isLine : IsLine ls n line
  /-- Neither it nor a line before it marks the start of the tests. -/
  before_tests : ∀ m line', IsLine ls m line' → m ≤ n → ¬Text.Trimmed "#[cfg(test)]".toList line'
  /-- It is no comment. -/
  not_comment : ¬IsCommented line

/-- The line of this number offends against the patterns. -/
structure Offends (patterns ls : List (List Char)) (n : Nat) (line : List Char) : Prop
    extends IsProduction ls n line where
  /-- A pattern occurs in it as it stands. -/
  occurs : ∃ pattern ∈ patterns, pattern <:+: line

/-- A line marks the start of the tests if it holds the mark, and nothing but blanks around it. -/
theorem isTestMarker_iff : isTestMarker line = true ↔ Text.Trimmed "#[cfg(test)]".toList line := by
  rw [isTestMarker, beq_iff_eq, Text.trimmed_iff]
  rfl

/-- A line is a comment if the mark of a comment stands at its start, behind blanks at most. -/
theorem isComment_iff : isComment line = true ↔ IsCommented line := by
  rw [isComment, List.isPrefixOf_iff_prefix, Text.trimStart, commentMarker]
  constructor
  · rintro ⟨rest, hrest⟩
    refine ⟨line.takeWhile Text.isBlank, rest, ?_,
      Text.subset_whiteSpace_iff.mpr fun c hc => List.mem_takeWhile_imp hc⟩
    rw [List.append_assoc, hrest, List.takeWhile_append_dropWhile]
  · rintro ⟨blanks, rest, rfl, hblanks⟩
    -- The mark begins with a slash, which is no blank.
    have hmark : ("//".toList ++ rest).dropWhile Text.isBlank = "//".toList ++ rest :=
      List.dropWhile_cons_of_neg (by decide)
    rw [List.append_assoc,
      List.dropWhile_append_of_pos (Text.subset_whiteSpace_iff.mp hblanks), hmark]
    exact List.prefix_append _ _

/-- A pattern occurs in a line if it stands somewhere in it. -/
theorem occursIn_iff : occursIn pattern line = true ↔ pattern <:+: line := by
  induction line with
  | nil => rw [occursIn, List.isEmpty_iff, List.infix_nil]
  | cons c line ih =>
    rw [occursIn, Bool.or_eq_true, List.isPrefixOf_iff_prefix, ih, List.infix_cons_iff]

/-! ## Production lines -/

/-- The lines of a text are numbered in order. -/
theorem pairwise_zipIdx (ls : List (List Char)) :
    (ls.zipIdx 1).Pairwise fun l l' => l.2 < l'.2 := by
  rw [← List.pairwise_map (f := Prod.snd), List.zipIdx_map_snd]
  exact List.pairwise_lt_range'

/-- The production lines of a source text are numbered in order. -/
theorem pairwise_productionLines (source : List Char) :
    (productionLines source).Pairwise fun l l' => l.2 < l'.2 :=
  (pairwise_zipIdx _).sublist (List.filter_sublist.trans (List.takeWhile_sublist _))

/-- Of lines that are numbered in order, those before the first one that fails a test are those up
to which all lines pass it. -/
theorem mem_takeWhile_iff {numbered : List (List Char × Nat)}
    (h : numbered.Pairwise fun l l' => l.2 < l'.2)
    {test : List Char × Nat → Bool} {l : List Char × Nat} :
    l ∈ numbered.takeWhile test ↔ l ∈ numbered ∧ ∀ l' ∈ numbered, l'.2 ≤ l.2 → test l' = true := by
  induction numbered with
  | nil => simp
  | cons first rest ih =>
    obtain ⟨hfirst, hrest⟩ := List.pairwise_cons.mp h
    have hle : ∀ l ∈ first :: rest, first.2 ≤ l.2 := by
      intro l hl
      rcases List.mem_cons.mp hl with rfl | hl
      · exact Nat.le_refl _
      · exact Nat.le_of_lt (hfirst l hl)
    by_cases htest : test first = true
    · rw [List.takeWhile_cons_of_pos htest, List.mem_cons, ih hrest, List.mem_cons,
        List.forall_mem_cons]
      constructor
      · rintro (rfl | ⟨hl, hall⟩)
        · -- No other line has a number up to that of the first one.
          exact ⟨.inl rfl, fun _ => htest,
            fun l' hl' hle' => absurd (hfirst l' hl') (Nat.not_lt.mpr hle')⟩
        · exact ⟨.inr hl, fun _ => htest, hall⟩
      · rintro ⟨rfl | hl, -, hall⟩
        · exact .inl rfl
        · exact .inr ⟨hl, hall⟩
    · rw [List.takeWhile_cons_of_neg htest]
      constructor
      · exact fun hl => absurd hl List.not_mem_nil
      · rintro ⟨hl, hall⟩
        exact absurd (hall first List.mem_cons_self (hle l hl)) htest

/-- The numbered lines of a text. -/
theorem mem_zipIdx_iff : (line, n) ∈ ls.zipIdx 1 ↔ IsLine ls n line :=
  List.mk_mem_zipIdx_iff_le_and_getElem?_sub

/-- The production lines of a source text are those of its lines before the tests
that are no comments. -/
theorem mem_productionLines_iff :
    (line, n) ∈ productionLines source ↔ IsProduction (Text.lines source) n line := by
  rw [productionLines, productionOf, List.mem_filter, mem_takeWhile_iff (pairwise_zipIdx _),
    mem_zipIdx_iff, Bool.not_eq_true', ← Bool.not_eq_true, isComment_iff]
  have htests : (∀ l ∈ (Text.lines source).zipIdx 1, l.2 ≤ n → (!isTestMarker l.1) = true) ↔
      ∀ m line', IsLine (Text.lines source) m line' → m ≤ n →
        ¬Text.Trimmed "#[cfg(test)]".toList line' := by
    simp only [Prod.forall, mem_zipIdx_iff, Bool.not_eq_true', ← Bool.not_eq_true, isTestMarker_iff]
    exact forall_comm
  constructor
  · rintro ⟨⟨hline, hbefore⟩, hcomment⟩
    exact ⟨hline, htests.mp hbefore, hcomment⟩
  · rintro ⟨hline, hbefore, hcomment⟩
    exact ⟨⟨hline, htests.mpr hbefore⟩, hcomment⟩

/-! ## Violations -/

/-- The violations among numbered lines. -/
def violationsIn (path : String) (patterns : List (List Char)) (numbered : List (List Char × Nat)) :
    List Violation :=
  (numbered.filter fun l => patterns.any fun p => occursIn p l.1).map fun l =>
    { path, line := l.2, text := String.ofList (Text.trim l.1) }

/-- The violations of a source text are those among its production lines. -/
theorem scanSource_eq (path : String) (source : List Char) (patterns : List (List Char)) :
    scanSource path source patterns = violationsIn path patterns (productionLines source) :=
  rfl

/-- Some pattern occurs in a line. -/
theorem any_occursIn_iff : (patterns.any fun p => occursIn p line) = true ↔
    ∃ pattern ∈ patterns, pattern <:+: line := by
  simp only [List.any_eq_true, occursIn_iff]

/-- The violations of a source text tell its offending lines, without the blanks at their ends. -/
theorem mem_scanSource_iff : v ∈ scanSource path source patterns ↔ v.path = path ∧
    ∃ line, Offends patterns (Text.lines source) v.line line ∧ Text.Trimmed v.text.toList line := by
  rw [scanSource_eq, violationsIn, List.mem_map]
  constructor
  · rintro ⟨⟨line, n⟩, hl, rfl⟩
    obtain ⟨hproduction, hoccurs⟩ := List.mem_filter.mp hl
    refine ⟨rfl, line, ⟨mem_productionLines_iff.mp hproduction, any_occursIn_iff.mp hoccurs⟩, ?_⟩
    rw [String.toList_ofList]
    exact Text.trimmed_trim line
  · rintro ⟨hpath, line, ⟨hproduction, hoccurs⟩, htext⟩
    refine ⟨(line, v.line), List.mem_filter.mpr ⟨mem_productionLines_iff.mpr hproduction,
      any_occursIn_iff.mpr hoccurs⟩, ?_⟩
    rw [htext.trim_eq, String.ofList_toList, ← hpath]

/-- The violations of a source text are in the order of its lines, and no line is reported twice. -/
theorem pairwise_line_scanSource (path : String) (source : List Char)
    (patterns : List (List Char)) :
    (scanSource path source patterns).Pairwise fun v v' => v.line < v'.line := by
  rw [scanSource_eq, violationsIn, List.pairwise_map]
  exact (pairwise_productionLines source).sublist List.filter_sublist

/-- The same patterns in another order, or repeated, have the same violations. -/
theorem violationsIn_congr {patterns' : List (List Char)} (h : ∀ p, p ∈ patterns' ↔ p ∈ patterns)
    (path : String) (numbered : List (List Char × Nat)) :
    violationsIn path patterns' numbered = violationsIn path patterns numbered := by
  have hany (line : List Char) : (patterns'.any fun p => occursIn p line) =
      patterns.any fun p => occursIn p line := by
    rw [Bool.eq_iff_iff, any_occursIn_iff, any_occursIn_iff]
    simp only [h]
  simp only [violationsIn, hany]

/-- What is reported of a source text, and what that depends on. -/
structure Reports (path : String) (source : List Char) (patterns : List (List Char)) : Prop where
  /-- There is one way in which the text falls into lines. -/
  splits : ∃! ls, Text.Splits source ls
  /-- Reported are exactly the offending ones among them, each with its number and without the
  blanks at its ends. -/
  mem_iff : ∀ ls, Text.Splits source ls → ∀ v, v ∈ scanSource path source patterns ↔
    v.path = path ∧ ∃ line, Offends patterns ls v.line line ∧ Text.Trimmed v.text.toList line
  /-- They are reported in order, and each of them once. -/
  increasing : (scanSource path source patterns).Pairwise fun v v' => v.line < v'.line
  /-- Neither the order of the patterns nor their repetition shows. -/
  same_patterns : ∀ patterns', (∀ p, p ∈ patterns' ↔ p ∈ patterns) →
    scanSource path source patterns' = scanSource path source patterns

/-- Exactly the offending lines of a source text are reported, in order. -/
theorem scanSource_exact (path : String) (source : List Char) (patterns : List (List Char)) :
    Reports path source patterns where
  splits := ⟨Text.lines source, Text.splits_iff.mpr rfl, fun _ h => (Text.splits_iff.mp h).symm⟩
  mem_iff ls hls v := by
    rw [← Text.splits_iff.mp hls]
    exact mem_scanSource_iff
  increasing := pairwise_line_scanSource path source patterns
  same_patterns patterns' h := by
    rw [scanSource_eq, scanSource_eq, violationsIn_congr h]

/-- Only the first mark counts, comments keep their numbers, and a carriage return without a line
feed ends no line. -/
example : scanSource "a.rs" "// x.unwrap()\r\n\tx.unwrap() \ry\n #[cfg(test)]\nx.unwrap()".toList
    [".unwrap()".toList, "y".toList] = [⟨"a.rs", 2, "x.unwrap() \ry"⟩] := by
  decide +kernel

/-! ## Texts one behind the other -/

/-- The line with its number moved on. -/
def moveOn (k : Nat) (l : List Char × Nat) : List Char × Nat :=
  (l.1, l.2 + k)

/-- The violation with the number of its line moved on. -/
def Violation.moveOn (k : Nat) (v : Violation) : Violation :=
  { v with line := v.line + k }

/-- The production lines do not depend on the number of the first line. -/
theorem productionOf_map_moveOn (k : Nat) (numbered : List (List Char × Nat)) :
    productionOf (numbered.map (moveOn k)) = (productionOf numbered).map (moveOn k) := by
  rw [productionOf, List.takeWhile_map, List.filter_map]
  rfl

/-- Nor do the violations. -/
theorem violationsIn_map_moveOn (k : Nat) (path : String) (patterns : List (List Char))
    (numbered : List (List Char × Nat)) : violationsIn path patterns (numbered.map (moveOn k)) =
      (violationsIn path patterns numbered).map (Violation.moveOn k) := by
  rw [violationsIn, List.filter_map, List.map_map, violationsIn, List.map_map]
  rfl

/-- The violations among lines and further ones. -/
theorem violationsIn_append (path : String) (patterns : List (List Char))
    (numbered numbered' : List (List Char × Nat)) :
    violationsIn path patterns (numbered ++ numbered') =
      violationsIn path patterns numbered ++ violationsIn path patterns numbered' := by
  rw [violationsIn, List.filter_append, List.map_append]
  rfl

/-- Behind the mark of the tests there are no production lines. -/
theorem productionOf_append_of_marked {numbered : List (List Char × Nat)}
    (h : ∃ l ∈ numbered, isTestMarker l.1 = true) (numbered' : List (List Char × Nat)) :
    productionOf (numbered ++ numbered') = productionOf numbered := by
  obtain ⟨l, hl, hmarker⟩ := h
  rw [productionOf, List.takeWhile_append, if_neg]
  · rfl
  · -- Otherwise all lines would come before the mark.
    intro hlength
    have hall := (List.takeWhile_prefix _).eq_of_length hlength
    have hunmarked := List.takeWhile_eq_self_iff.mp hall l hl
    rw [hmarker] at hunmarked
    exact absurd hunmarked (by decide)

/-- Without the mark, the production lines of what follows are put behind. -/
theorem productionOf_append_of_unmarked {numbered : List (List Char × Nat)}
    (h : ∀ l ∈ numbered, isTestMarker l.1 = false) (numbered' : List (List Char × Nat)) :
    productionOf (numbered ++ numbered') = productionOf numbered ++ productionOf numbered' := by
  have hall : ∀ l ∈ numbered, (!isTestMarker l.1) = true := by
    intro l hl
    rw [h l hl]
    rfl
  rw [productionOf, List.takeWhile_append_of_pos hall, List.filter_append, productionOf,
    List.takeWhile_eq_self_iff.mpr hall]
  rfl

/-- If a text ends where a line ends, the lines of what follows are numbered behind its own. -/
theorem zipIdx_lines_append (h : Text.EndsLine a) (b : List Char) : (Text.lines (a ++ b)).zipIdx 1 =
    (Text.lines a).zipIdx 1 ++ ((Text.lines b).zipIdx 1).map (moveOn (Text.lines a).length) := by
  have hshift :=
    List.map_snd_add_zipIdx_eq_zipIdx (l := Text.lines b) (n := (Text.lines a).length) (k := 1)
  rw [Text.lines_append h, List.zipIdx_append, Nat.add_comm 1, ← hshift]
  rfl

/-- A line of the text marks the start of the tests. -/
def IsMarked (source : List Char) : Prop :=
  ∃ line ∈ Text.lines source, Text.Trimmed "#[cfg(test)]".toList line

/-- Numbering the lines does not change which of them mark the start of the tests. -/
theorem isMarked_iff :
    IsMarked source ↔ ∃ l ∈ (Text.lines source).zipIdx 1, isTestMarker l.1 = true := by
  simp only [isTestMarker_iff]
  constructor
  · rintro ⟨line, hline, hmark⟩
    rw [← List.zipIdx_map_fst 1 (Text.lines source)] at hline
    obtain ⟨l, hl, rfl⟩ := List.mem_map.mp hline
    exact ⟨l, hl, hmark⟩
  · rintro ⟨l, hl, hmark⟩
    exact ⟨l.1, List.fst_mem_of_mem_zipIdx hl, hmark⟩

/-- Behind a text that ends where a line ends and marks the start of the tests, there
are no production lines. -/
theorem productionLines_append_of_marked (h : Text.EndsLine a) (hmark : IsMarked a)
    (b : List Char) : productionLines (a ++ b) = productionLines a := by
  rw [productionLines, zipIdx_lines_append h, productionOf_append_of_marked (isMarked_iff.mp hmark)]
  rfl

/-- If it does not mark it, the production lines of what follows are put behind, with
their numbers moved on. -/
theorem productionLines_append_of_unmarked (h : Text.EndsLine a) (hmark : ¬IsMarked a)
    (b : List Char) : productionLines (a ++ b) =
      productionLines a ++ (productionLines b).map (moveOn (Text.lines a).length) := by
  have hunmarked : ∀ l ∈ (Text.lines a).zipIdx 1, isTestMarker l.1 = false := by
    intro l hl
    rw [Bool.eq_false_iff]
    exact fun hl' => hmark (isMarked_iff.mpr ⟨l, hl, hl'⟩)
  rw [productionLines, zipIdx_lines_append h, productionOf_append_of_unmarked hunmarked,
    productionOf_map_moveOn]
  rfl

/-- What is reported of a text does not depend on what follows, and what follows is reported as if
it stood alone, unless the tests have begun. -/
structure Composes (path : String) (a : List Char) (patterns : List (List Char)) : Prop where
  /-- If the text marks the start of the tests, nothing that follows shows. -/
  marked : IsMarked a → ∀ b, productionLines (a ++ b) = productionLines a ∧
    scanSource path (a ++ b) patterns = scanSource path a patterns
  /-- So it does not matter what follows. -/
  tail : IsMarked a → ∀ b b', scanSource path (a ++ b) patterns = scanSource path (a ++ b') patterns
  /-- Otherwise what follows is put behind, with as many lines more before it as the text has. -/
  unmarked : ¬IsMarked a → ∀ b,
    productionLines (a ++ b) =
        productionLines a ++ (productionLines b).map (moveOn (Text.lines a).length) ∧
      scanSource path (a ++ b) patterns = scanSource path a patterns ++
        (scanSource path b patterns).map (Violation.moveOn (Text.lines a).length)

/-- A text that ends where a line ends is scanned on its own, and so is what follows it. -/
theorem scanSource_composes (h : Text.EndsLine a) (path : String) (patterns : List (List Char)) :
    Composes path a patterns := by
  have hmarked (hmark : IsMarked a) (b : List Char) :
      scanSource path (a ++ b) patterns = scanSource path a patterns := by
    rw [scanSource_eq, scanSource_eq, productionLines_append_of_marked h hmark]
  refine ⟨fun hmark b => ⟨productionLines_append_of_marked h hmark b, hmarked hmark b⟩,
    fun hmark b b' => ?_, fun hmark b => ⟨productionLines_append_of_unmarked h hmark b, ?_⟩⟩
  · rw [hmarked hmark b, hmarked hmark b']
  · rw [scanSource_eq, scanSource_eq, scanSource_eq, productionLines_append_of_unmarked h hmark,
      violationsIn_append, violationsIn_map_moveOn]

/-- Two lines, the first one a comment and the second one ended by a carriage return
and a line feed. -/
def opening : List Char :=
  "// x.unwrap()\nx.unwrap();\r\n".toList

/-- The line behind them, which marks the start of the tests between blanks. -/
def testsBegin : List Char :=
  "\t#[cfg(test)] \r\n".toList

/-- The first text has no mark of the tests and ends where a line ends, so what follows
is put behind it, also if it begins with a line ending. With the mark behind it, nothing
that follows shows. -/
theorem composes_opening :
    (Text.EndsLine opening ∧ Composes "a.rs" opening [".unwrap()".toList] ∧
      scanSource "a.rs" (opening ++ "\ny.unwrap()".toList) [".unwrap()".toList] =
        [⟨"a.rs", 2, "x.unwrap();"⟩, ⟨"a.rs", 4, "y.unwrap()"⟩]) ∧
    Text.EndsLine (opening ++ testsBegin) ∧ IsMarked (opening ++ testsBegin) ∧
      Composes "a.rs" (opening ++ testsBegin) [".unwrap()".toList] ∧
      scanSource "a.rs" (opening ++ testsBegin ++ "\ny.unwrap()".toList) [".unwrap()".toList] =
        [⟨"a.rs", 2, "x.unwrap();"⟩] :=
  have hends : Text.EndsLine opening := by decide +kernel
  have hends' : Text.EndsLine (opening ++ testsBegin) := by decide +kernel
  have hmarked : IsMarked (opening ++ testsBegin) := isMarked_iff.mpr (by decide +kernel)
  ⟨⟨hends, scanSource_composes hends "a.rs" [".unwrap()".toList], by decide +kernel⟩,
    hends', hmarked, scanSource_composes hends' "a.rs" [".unwrap()".toList], by decide +kernel⟩

end Deferral.Audit
