/-!
# Lines

The lines of a text. A line ends at a line feed, and a carriage return right before that line
feed belongs to the ending. What follows the last line feed is a line only if it is not empty;
a carriage return anywhere else is an ordinary character.
-/

namespace Deferral.Text

/-- The lines of a text, without their endings. -/
def lines : List Char → List (List Char)
  | [] => []
  | '\n' :: rest => [] :: lines rest
  | '\r' :: '\n' :: rest => [] :: lines rest
  | c :: rest =>
    match lines rest with
    | [] => [[c]]
    | line :: others => (c :: line) :: others

/-- The empty text has no line. -/
@[simp]
theorem lines_nil : lines [] = [] := by
  simp [lines]

/-- A line feed ends an empty line. -/
@[simp]
theorem lines_newline (rest : List Char) : lines ('\n' :: rest) = [] :: lines rest := by
  simp [lines]

end Deferral.Text
