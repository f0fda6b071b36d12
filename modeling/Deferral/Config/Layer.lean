import Deferral.Config.Settings
import Deferral.Toml.Document

/-!
# Layers

A layer sets some of the values of a configuration. Configuration files hold a layer in the
section `runtime` of a TOML document; whatever else they hold is ignored, but must be TOML.

A layer is read from a table by key, or from an array by position. It is written as a section with
one line per value.
-/

namespace Deferral

/-- The values that one source of a configuration sets. -/
structure Layer where
  /-- The number of worker threads. -/
  workers : Option Nat := none
  /-- The name of the worker threads. -/
  threadName : Option String := none
  /-- The stack size of a worker thread in bytes. -/
  stackSize : Option Nat := none
  /-- How many milliseconds a shutdown waits. -/
  graceMilliseconds : Option Nat := none
  deriving DecidableEq, Repr

/-- The settings with the values of a layer in place of their own. -/
def Settings.overlay (s : Settings) (l : Layer) : Settings :=
  { s with
    workers := l.workers.getD s.workers
    threadName := l.threadName.getD s.threadName
    stackSize := l.stackSize <|> s.stackSize
    grace := (l.graceMilliseconds.map Duration.ofMilliseconds).getD s.grace }

namespace Layer

open Toml

/-- The key of the section. -/
def sectionKey : Key := "runtime".toList

/-- The key of the number of worker threads. -/
def workersKey : Key := "worker_threads".toList

/-- The key of the thread name. -/
def threadNameKey : Key := "thread_name".toList

/-- The key of the stack size. -/
def stackSizeKey : Key := "thread_stack_size".toList

/-- The key of the time that a shutdown waits. -/
def graceKey : Key := "shutdown_timeout_ms".toList

/-- An item as a number, which cannot be negative. -/
def number? : Item → Option Nat
  | .integer (.ofNat n) => some n
  | _ => none

/-- An item as a text. -/
def text? : Item → Option String
  | .text s => some (String.ofList s)
  | _ => none

/-- Read what may be missing; what is there must be readable. -/
def optional? {A : Type} (read : Item → Option A) : Option Item → Option (Option A)
  | none => some none
  | some item => (read item).map some

/-- Read a layer from the items of its four values. -/
def ofItems? (workers threadName stackSize grace : Option Item) : Option Layer := do
  some {
    workers := ← optional? number? workers
    threadName := ← optional? text? threadName
    stackSize := ← optional? number? stackSize
    graceMilliseconds := ← optional? number? grace }

/-- Read a layer from the entries of a table. -/
def ofEntries? (es : Entries) : Option Layer :=
  ofItems? (es.lookup workersKey) (es.lookup threadNameKey) (es.lookup stackSizeKey)
    (es.lookup graceKey)

/-- Read a layer from an item. A date or time counts as a table without any of the values. -/
def ofItem? : Item → Option Layer
  | .inline es | .table _ es => ofEntries? es
  | .array items => ofItems? items[0]? items[1]? items[2]? items[3]?
  | .tables ts =>
    let items := ts.map (Item.table .header)
    ofItems? items[0]? items[1]? items[2]? items[3]?
  | .moment => some {}
  | .text _ | .integer _ | .float | .boolean _ => none

/-- Read the layer of a configuration file. -/
def read? (text : String) : Option Layer := do
  let root ← Document.read? text.toList
  match root.lookup sectionKey with
  | some item => ofItem? item
  | none => some {}

/-- A text as a string of a TOML document: between quotes if it holds no quote or backslash,
else between apostrophes if it holds no apostrophe or control, else between quotes with escapes. -/
def textLiteral (s : List Char) : List Char :=
  if s.all fun c => c ≠ '"' && c ≠ '\\' && isShown c then '"' :: s ++ ['"']
  else if s.all fun c => c ≠ '\'' && isShown c then '\'' :: s ++ ['\'']
  else
    let escaped (c : Char) : List Char :=
      if c = '"' || c = '\\' then ['\\', c]
      else if isShown c then [c]
      else
        let digits := Nat.toDigits 16 c.toNat
        ['\\', 'u'] ++ List.replicate (4 - digits.length) '0' ++ digits
    '"' :: s.flatMap escaped ++ ['"']

/-- A line of a section. -/
def line (key : Key) (value : List Char) : List Char :=
  key ++ [' ', '=', ' '] ++ value ++ ['\n']

/-- A line with a number, unless the number is too large. -/
def numberLine? (key : Key) : Option Nat → Option (List Char)
  | none => some []
  | some n => if n ≤ Text.maxSigned then some (line key (Text.decimal n)) else none

/-- A line with a text. -/
def textLine (key : Key) : Option String → List Char
  | none => []
  | some s => line key (textLiteral s.toList)

/-- Write a layer, unless it holds a number that is too large. -/
def render? (l : Layer) : Option String := do
  let workers ← numberLine? workersKey l.workers
  let stackSize ← numberLine? stackSizeKey l.stackSize
  let grace ← numberLine? graceKey l.graceMilliseconds
  let header := '[' :: sectionKey ++ [']', '\n']
  some (String.ofList
    (header ++ workers ++ textLine threadNameKey l.threadName ++ stackSize ++ grace))

end Layer

end Deferral
