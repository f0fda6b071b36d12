import Deferral.Text.Blank
import Deferral.Text.Decimal
import Deferral.Text.Lines

/-!
# Auditing a source text

Finds forbidden patterns in the production lines of a Rust source text. Production ends at the
first line that marks the tests, and comment lines are no production lines.
-/

namespace Deferral.Audit

/-- The line from which on a source text holds tests. -/
def testMarker : List Char := "#[cfg(test)]".toList

/-- What a comment line starts with. -/
def commentMarker : List Char := "//".toList

/-- A forbidden pattern in a line of a source text. -/
structure Violation where
  /-- The path of the source. -/
  path : String
  /-- The number of the line, from one. -/
  line : Nat
  /-- The line without the blanks at its ends. -/
  text : String
  deriving DecidableEq, Repr

/-- The report of a violation. -/
def Violation.report (v : Violation) : String :=
  v.path ++ ":" ++ String.ofList (Text.decimal v.line) ++ ": " ++ v.text

/-- Whether a line marks the start of the tests. -/
def isTestMarker (line : List Char) : Bool :=
  Text.trim line == testMarker

/-- Whether a line is a comment. -/
def isComment (line : List Char) : Bool :=
  commentMarker.isPrefixOf (Text.trimStart line)

/-- The production lines among numbered lines. -/
def productionOf (ls : List (List Char × Nat)) : List (List Char × Nat) :=
  (ls.takeWhile fun l => !isTestMarker l.1).filter fun l => !isComment l.1

/-- The production lines of a source text with their numbers. -/
def productionLines (source : List Char) : List (List Char × Nat) :=
  productionOf ((Text.lines source).zipIdx 1)

/-- Whether a pattern occurs in a line. -/
def occursIn (pattern : List Char) : List Char → Bool
  | [] => pattern.isEmpty
  | c :: rest => pattern.isPrefixOf (c :: rest) || occursIn pattern rest

/-- The violations of a source text. -/
def scanSource (path : String) (source : List Char) (patterns : List (List Char)) :
    List Violation :=
  ((productionLines source).filter fun l => patterns.any fun p => occursIn p l.1).map fun l =>
    { path, line := l.2, text := String.ofList (Text.trim l.1) }

end Deferral.Audit
