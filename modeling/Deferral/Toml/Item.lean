/-!
# TOML items

The values and tables of a document, and how entries come into tables.

A table is opened by a header, implied by a longer header, or made by dotted keys; what is written
between braces is closed. A header may open an implied table, once, and passes through any table;
dotted keys pass through implied tables and tables made by dotted keys only, and add entries only
to the latter.
-/

namespace Deferral.Toml

/-- One part of a key. -/
abbrev Key := List Char

/-- How a table came into being. -/
inductive Origin
  /-- It was opened by a header, or is the root. -/
  | header
  /-- It was implied by a longer header. -/
  | implied
  /-- It was made by dotted keys. -/
  | dotted
  deriving DecidableEq, Repr

/-- What a key stands for. -/
inductive Item
  /-- A string. -/
  | text (s : List Char)
  /-- An integer. -/
  | integer (n : Int)
  /-- A float. -/
  | float
  /-- A truth value. -/
  | boolean (b : Bool)
  /-- A date or a time. -/
  | moment
  /-- An array. -/
  | array (items : List Item)
  /-- A table between braces. -/
  | inline (entries : List (Key × Item))
  /-- A table that is not between braces. -/
  | table (origin : Origin) (entries : List (Key × Item))
  /-- Tables that were opened one after the other by headers of the same name. -/
  | tables (ts : List (List (Key × Item)))

/-- The entries of a table. -/
abbrev Entries := List (Key × Item)

namespace Entries

/-- Replace the item of a key. -/
def replace (k : Key) (item : Item) (es : Entries) : Entries :=
  es.map fun e => if e.1 = k then (k, item) else e

/-- Remove a key. -/
def remove (k : Key) (es : Entries) : Entries :=
  es.filter (·.1 ≠ k)

/-- Add an entry under a new key. -/
def add? (k : Key) (item : Item) (es : Entries) : Option Entries :=
  if (es.lookup k).isSome then none else some (es ++ [(k, item)])

/-- Change the table that a path leads to, and make what is missing on the way. The path consists
of the parts of a dotted key, or else of a header. -/
def alter? (byKey : Bool) (f : Origin → Entries → Option Entries) :
    List Key → Origin → Entries → Option Entries
  | [], origin, es => f origin es
  | k :: path, _, es =>
    match es.lookup k with
    | none => do
      let origin := if byKey then .dotted else .implied
      some (es ++ [(k, .table origin (← alter? byKey f path origin []))])
    | some (.table origin inner) =>
      if byKey && origin = .header then none
      else do some (es.replace k (.table origin (← alter? byKey f path origin inner)))
    | some (.tables ts) =>
      match ts.getLast? with
      | some last => do
        let last ← alter? byKey f path .header last
        some (es.replace k (.tables (ts.dropLast ++ [last])))
      | none => none
    | some _ => none

/-- Add an entry under a dotted key. -/
def addDotted? (path : List Key) (k : Key) (item : Item) (es : Entries) : Option Entries :=
  let add (origin : Origin) (inner : Entries) : Option Entries :=
    if path.isEmpty || origin = .dotted then inner.add? k item else none
  alter? true add path .header es

/-- Add an entry under a key of at least one part. -/
def addKey? (key : List Key) (item : Item) (es : Entries) : Option Entries :=
  match key.getLast? with
  | some k => es.addDotted? key.dropLast k item
  | none => none

end Entries

/-- Which table of a document is open. -/
inductive Header
  /-- The root. -/
  | root
  /-- The table of this name. -/
  | table (path : List Key) (k : Key)
  /-- A further table of this name. -/
  | tables (path : List Key) (k : Key)

/-- A document that is being read: the tables that are complete, and the open one. -/
structure Document where
  /-- The complete tables. -/
  root : Entries := []
  /-- The table that is open. -/
  header : Header := .root
  /-- The entries of the open table. -/
  current : Entries := []

namespace Document

/-- Put the open table into its place. -/
def complete? (d : Document) : Option Entries :=
  match d.header with
  | .root => some d.current
  | .table path k =>
    Entries.alter? false (fun _ es => es.add? k (.table .header d.current)) path .header d.root
  | .tables path k =>
    Entries.alter? false (fun _ es =>
      match es.lookup k with
      | none => some (es ++ [(k, .tables [d.current])])
      | some (.tables ts) => some (es.replace k (.tables (ts ++ [d.current])))
      | some _ => none) path .header d.root

/-- The item at the end of a path of tables, if the path can be passed. -/
def find? : List Key → Key → Entries → Option Item
  | [], k, es => es.lookup k
  | p :: path, k, es =>
    match es.lookup p with
    | some (.table _ inner) => find? path k inner
    | some (.tables ts) =>
      match ts.getLast? with
      | some last => find? path k last
      | none => none
    | _ => none

/-- Open the table that a header names. A table that was only implied so far keeps what it has;
any other must be new. -/
def openTable? (d : Document) (path : List Key) (k : Key) : Option Document := do
  let root ← d.complete?
  let pass (_ : Origin) (es : Entries) : Option Entries :=
    match es.lookup k with
    | none | some (.table .implied _) => some (es.remove k)
    | some _ => none
  -- What the implied table holds moves into the open one, and comes back when that is complete.
  let rest ← Entries.alter? false pass path .header root
  let current := match find? path k root with
    | some (.table .implied es) => es
    | _ => []
  some { root := rest, header := .table path k, current }

/-- Open a further table of the name that a header gives. -/
def openTables? (d : Document) (path : List Key) (k : Key) : Option Document := do
  let root ← d.complete?
  let pass (_ : Origin) (es : Entries) : Option Entries :=
    match es.lookup k with
    | none | some (.tables _) => some es
    | some _ => none
  let root ← Entries.alter? false pass path .header root
  some { root, header := .tables path k, current := [] }

end Document

end Deferral.Toml
