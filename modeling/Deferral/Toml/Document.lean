import Deferral.Toml.Number

/-!
# TOML documents

Reading values and whole documents. The readers of nested values carry a bound on the number of
their calls, which the length of the text provides.
-/

namespace Deferral.Toml

/-- Skip a word. -/
def word? : List Char → List Char → Option (List Char)
  | [], s => some s
  | c :: word, d :: s => if c = d then word? word s else none
  | _ :: _, [] => none

/-- Read a truth value. -/
def boolean? : List Char → Option (Item × List Char)
  | 't' :: rest => do some (.boolean true, ← word? ['r', 'u', 'e'] rest)
  | 'f' :: rest => do some (.boolean false, ← word? ['a', 'l', 's', 'e'] rest)
  | _ => none

/-- Read a value that holds no other one. -/
def scalarValue? : List Char → Option (Item × List Char)
  | [] => none
  | c :: rest =>
    if c = '"' || c = '\'' then do
      let (s, rest) ← string? (c :: rest)
      some (.text s, rest)
    else if c = 't' || c = 'f' then boolean? (c :: rest)
    else numberOrMoment? (c :: rest)

mutual

/-- Read a value inside `depth` arrays and tables between braces. -/
def value? : Nat → Nat → List Char → Option (Item × List Char)
  | 0, _, _ => none
  | n + 1, depth, s =>
    match s with
    | '[' :: rest =>
      if depth + 1 < depthLimit then do
        let (items, rest) ← items? n (depth + 1) (skipAll rest)
        some (.array items, rest)
      else none
    | '\x7b' :: rest =>
      if depth + 1 < depthLimit then
        match skipSpace rest with
        | '\x7d' :: rest => some (.inline [], rest)
        | _ => do
          let (es, rest) ← pairs? n (depth + 1) [] rest
          some (.inline es, rest)
      else none
    | s => scalarValue? s

/-- Read the items of an array up to its end. -/
def items? : Nat → Nat → List Char → Option (List Item × List Char)
  | 0, _, _ => none
  | n + 1, depth, s =>
    match s with
    | ']' :: rest => some ([], rest)
    | s => do
      let (item, rest) ← value? n depth s
      match skipAll rest with
      | ',' :: rest => do
        let (items, rest) ← items? n depth (skipAll rest)
        some (item :: items, rest)
      | ']' :: rest => some ([item], rest)
      | _ => none

/-- Read at least one entry of a table between braces, up to its end. -/
def pairs? : Nat → Nat → Entries → List Char → Option (Entries × List Char)
  | 0, _, _, _ => none
  | n + 1, depth, es, s => do
    let (key, rest) ← key? s
    let rest ← skip? '=' rest
    let (item, rest) ← value? n depth (skipSpace rest)
    let es ← es.addKey? key item
    match skipSpace rest with
    | ',' :: rest => pairs? n depth es rest
    | '\x7d' :: rest => some (es, rest)
    | _ => none

end

namespace Document

/-- Read an entry with its line ending into the open table. -/
def readPair? (d : Document) (s : List Char) : Option (Document × List Char) := do
  let (key, rest) ← key? s
  let rest ← skip? '=' rest
  -- Of any two calls in a row one takes a character, so the bound is never reached.
  let (item, rest) ← value? (2 * rest.length + 2) 0 (skipSpace rest)
  let current ← d.current.addKey? key item
  some ({ d with current }, ← endLine? rest)

/-- Read a header, after its first bracket, with its line ending. -/
def readHeader? (d : Document) : List Char → Option (Document × List Char)
  | '[' :: s => do
    let (key, rest) ← key? s
    let rest ← skip? ']' (← skip? ']' rest)
    let d ← d.openTables? key.dropLast (← key.getLast?)
    some (d, ← endLine? rest)
  | s => do
    let (key, rest) ← key? s
    let rest ← skip? ']' rest
    let d ← d.openTable? key.dropLast (← key.getLast?)
    some (d, ← endLine? rest)

/-- Read the rest of a document, in which there are at most `n` lines. -/
def readWithin? : Nat → Document → List Char → Option Document
  | 0, d, s => if (skipSpace s).isEmpty then some d else none
  | n + 1, d, s =>
    match skipSpace s with
    | [] => some d
    | '#' :: rest => do readWithin? n d (← lineEnd? (rest.dropWhile isShown))
    | '[' :: rest => do
      let (d, rest) ← d.readHeader? rest
      readWithin? n d rest
    | '\n' :: rest => readWithin? n d rest
    | '\r' :: rest => do readWithin? n d (← newline? ('\r' :: rest))
    | s => do
      let (d, rest) ← d.readPair? s
      readWithin? n d rest

/-- The tables of a document. A byte-order mark may come first. -/
def read? (s : List Char) : Option Entries :=
  let s := match s with
    | '\ufeff' :: rest => rest
    | s => s
  (readWithin? s.length {} s).bind complete?

end Document

end Deferral.Toml
