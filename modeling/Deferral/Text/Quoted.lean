import Deferral.Text.Visible

/-!
# Quoted texts

A text between double quotes in which nothing is hidden: quotes and backslashes are escaped, the
common controls have a letter, and every other hidden character is written by its code point.
-/

namespace Deferral.Text

/-- The lower-case hexadecimal digits of a number, without a leading zero. -/
def hexadecimal (n : Nat) : List Char :=
  Nat.toDigits 16 n

/-- How one character stands in a quoted text. -/
def quoteChar (c : Char) : List Char :=
  if c = '"' then ['\\', '"']
  else if c = '\\' then ['\\', '\\']
  else if c = '\t' then ['\\', 't']
  else if c = '\n' then ['\\', 'n']
  else if c = '\r' then ['\\', 'r']
  else if c = '\x00' then ['\\', '0']
  else if isVisible c then [c]
  else ['\\', 'u', '\x7b'] ++ hexadecimal c.toNat ++ ['\x7d']

/-- A text between double quotes, with nothing hidden in it. -/
def quoted (s : String) : String :=
  String.ofList ('"' :: s.toList.flatMap quoteChar ++ ['"'])

end Deferral.Text
