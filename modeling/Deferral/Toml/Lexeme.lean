import Deferral.Text.Decimal
import Deferral.Toml.Item

/-!
# TOML lexemes

Blanks, line endings, comments, strings and keys. A reader takes the characters that are left and
gives what it has read together with what remains; `none` stands for a violation of the grammar.
-/

namespace Deferral.Toml

/-- A space or a tab. -/
def isSpace (c : Char) : Bool :=
  c = ' ' || c = '\t'

/-- Skip spaces and tabs. -/
def skipSpace (s : List Char) : List Char :=
  s.dropWhile isSpace

/-- A character that a comment or a string may show: no control except the tab. -/
def isShown (c : Char) : Bool :=
  c = '\t' || (0x20 ≤ c.toNat && c.toNat ≠ 0x7F)

/-- Skip a line ending. -/
def newline? : List Char → Option (List Char)
  | '\n' :: rest => some rest
  | '\r' :: '\n' :: rest => some rest
  | _ => none

/-- Skip a comment, if there is one. -/
def skipComment : List Char → List Char
  | '#' :: rest => rest.dropWhile isShown
  | s => s

/-- Skip a line ending or nothing at the end of the text. -/
def lineEnd? : List Char → Option (List Char)
  | [] => some []
  | s => newline? s

/-- Skip what may follow on a line after an expression, with the line ending. -/
def endLine? (s : List Char) : Option (List Char) :=
  lineEnd? (skipComment (skipSpace s))

/-- Skip spaces, line endings, and comments that a line ending follows; at most `n` lines. -/
def skipLines : Nat → List Char → List Char
  | 0, s => skipSpace s
  | n + 1, s =>
    let s := skipSpace s
    match newline? (skipComment s) with
    | some rest => skipLines n rest
    | none => s

/-- Skip spaces, line endings, and comments that a line ending follows. -/
def skipAll (s : List Char) : List Char :=
  skipLines s.length s

/-- Put a character in front of what is read from here on. -/
def andThen (c : Char) : Option (List Char × List Char) → Option (List Char × List Char)
  | some (s, rest) => some (c :: s, rest)
  | none => none

/-- The character that a one-letter escape stands for. -/
def escape? : Char → Option Char
  | 'b' => some '\x08'
  | 't' => some '\t'
  | 'n' => some '\n'
  | 'f' => some '\x0c'
  | 'r' => some '\r'
  | '"' => some '"'
  | '\\' => some '\\'
  | _ => none

/-- The character of a code point, if it has one. -/
def scalar? (n : Nat) : Option Char :=
  if n.isValidChar then some (Char.ofNat n) else none

/-- Where a reader of a string is. -/
inductive StringState
  /-- Between characters. -/
  | plain
  /-- After a backslash. -/
  | escape
  /-- In a code point of which so many digits are missing. -/
  | hex (missing : Nat) (value : Nat)
  /-- After a backslash and spaces, before the line ending. -/
  | folding
  /-- Among the blanks that a backslash at the end of a line suppresses. -/
  | folded

/-- Read the rest of a string between quotes on one line. -/
def basicRest : StringState → List Char → Option (List Char × List Char)
  | _, [] => none
  | .escape, c :: rest =>
    if c = 'u' then basicRest (.hex 4 0) rest
    else if c = 'U' then basicRest (.hex 8 0) rest
    else
      match escape? c with
      | some e => andThen e (basicRest .plain rest)
      | none => none
  | .hex missing value, c :: rest =>
    match Text.hexDigit? c with
    | none => none
    | some d =>
      let value := 16 * value + d
      if missing ≤ 1 then
        match scalar? value with
        | some e => andThen e (basicRest .plain rest)
        | none => none
      else basicRest (.hex (missing - 1) value) rest
  | _, c :: rest =>
    if c = '"' then some ([], rest)
    else if c = '\\' then basicRest .escape rest
    else if isShown c then andThen c (basicRest .plain rest)
    else none

/-- Read the rest of a string between apostrophes on one line. -/
def literalRest : List Char → Option (List Char × List Char)
  | [] => none
  | c :: rest =>
    if c = '\'' then some ([], rest)
    else if isShown c then andThen c (literalRest rest)
    else none

/-- The end of a string that three delimiters close, right after the first one: up to two further
delimiters belong to the string. -/
def closing? (q : Char) (s : List Char) : Option (List Char × List Char) :=
  match s with
  | a :: b :: rest =>
    if a = q ∧ b = q then
      let more := (rest.take 2).takeWhile (· = q)
      some (more, rest.drop more.length)
    else none
  | _ => none

/-- Whether a line feed follows. -/
def beforeNewline : List Char → Bool
  | c :: _ => c = '\n'
  | [] => false

/-- Read the rest of a string between triple quotes. -/
def longBasicRest : StringState → List Char → Option (List Char × List Char)
  | _, [] => none
  | .escape, c :: rest =>
    if c = 'u' then longBasicRest (.hex 4 0) rest
    else if c = 'U' then longBasicRest (.hex 8 0) rest
    else if isSpace c then longBasicRest .folding rest
    else if c = '\n' then longBasicRest .folded rest
    else if c = '\r' then if beforeNewline rest then longBasicRest .folding rest else none
    else
      match escape? c with
      | some e => andThen e (longBasicRest .plain rest)
      | none => none
  | .hex missing value, c :: rest =>
    match Text.hexDigit? c with
    | none => none
    | some d =>
      let value := 16 * value + d
      if missing ≤ 1 then
        match scalar? value with
        | some e => andThen e (longBasicRest .plain rest)
        | none => none
      else longBasicRest (.hex (missing - 1) value) rest
  | .folding, c :: rest =>
    if isSpace c then longBasicRest .folding rest
    else if c = '\n' then longBasicRest .folded rest
    else if c = '\r' then if beforeNewline rest then longBasicRest .folding rest else none
    else none
  | state, c :: rest =>
    -- Blanks are suppressed until the first other character, over as many lines as there are.
    let skipping := match state with
      | .folded => true
      | _ => false
    if skipping && (isSpace c || c = '\n') then longBasicRest .folded rest
    else if c = '\r' then if beforeNewline rest then longBasicRest state rest else none
    else if c = '"' then
      match closing? '"' rest with
      | some end_ => some end_
      | none => andThen c (longBasicRest .plain rest)
    else if c = '\\' then longBasicRest .escape rest
    else if c = '\n' || isShown c then andThen c (longBasicRest .plain rest)
    else none

/-- Read the rest of a string between triple apostrophes. -/
def longLiteralRest : List Char → Option (List Char × List Char)
  | [] => none
  | c :: rest =>
    if c = '\r' then if beforeNewline rest then longLiteralRest rest else none
    else if c = '\'' then
      match closing? '\'' rest with
      | some end_ => some end_
      | none => andThen c (longLiteralRest rest)
    else if c = '\n' || isShown c then andThen c (longLiteralRest rest)
    else none

/-- Skip a line ending, if there is one. -/
def skipNewline (s : List Char) : List Char :=
  (newline? s).getD s

/-- Read a string of any kind. -/
def string? : List Char → Option (List Char × List Char)
  | '"' :: '"' :: '"' :: rest => longBasicRest .plain (skipNewline rest)
  | '"' :: rest => basicRest .plain rest
  | '\'' :: '\'' :: '\'' :: rest => longLiteralRest (skipNewline rest)
  | '\'' :: rest => literalRest rest
  | _ => none

/-- A character of a key without quotes. -/
def isBare (c : Char) : Bool :=
  c.isAlphanum || c = '-' || c = '_'

/-- Read one part of a key. -/
def keyPart? : List Char → Option (Key × List Char)
  | '"' :: rest => basicRest .plain rest
  | '\'' :: rest => literalRest rest
  | s =>
    let part := s.takeWhile isBare
    if part.isEmpty then none else some (part, s.drop part.length)

/-- Read a key of at most `n` parts, with the spaces around its parts. -/
def keyWithin? : Nat → List Char → Option (List Key × List Char)
  | 0, _ => none
  | n + 1, s => do
    let (part, rest) ← keyPart? (skipSpace s)
    match skipSpace rest with
    | '.' :: rest => do
      let (parts, rest) ← keyWithin? n rest
      some (part :: parts, rest)
    | rest => some ([part], rest)

/-- The number from which on a key has too many parts, and a value is nested too deeply. -/
def depthLimit : Nat := 80

/-- Read a key. -/
def key? (s : List Char) : Option (List Key × List Char) :=
  keyWithin? (depthLimit - 1) s

end Deferral.Toml
