import Deferral.Probe.Trial
import Deferral.Text.Double
import Deferral.Text.Json

/-!
# Entries

What the probe reports of a trial, as a line of text and as a JSON object. An entry is in order if
the value is the one that was to be echoed and more time passed than the computation slept.
-/

namespace Deferral.Probe

/-- What is reported of a trial. -/
structure Entry where
  /-- How the computation was consumed. -/
  shape : Shape
  /-- The value that came back. -/
  value : Option String
  /-- The message of the failure. -/
  error : Option String
  /-- The time that passed. -/
  elapsed : Duration
  /-- Whether all is in order. -/
  ok : Bool
  deriving DecidableEq, Repr

namespace Entry

/-- The entry for a trial that took so long. -/
def ofTrial (o : Options) (t : Trial) (elapsed : Duration) : Entry :=
  let (value, error) := match t.outcome with
    | .ok value => (value, none)
    | .error f => (none, some f.message)
  { shape := t.shape, value, error, elapsed,
    ok := value = some o.value && o.delay.nanoseconds < elapsed.nanoseconds }

/-- A text with blanks behind it, to a width. -/
def padRight (width : Nat) (s : List Char) : List Char :=
  s ++ List.replicate (width - s.length) ' '

/-- A text with blanks before it, to a width. -/
def padLeft (width : Nat) (s : List Char) : List Char :=
  List.replicate (width - s.length) ' ' ++ s

/-- A duration in milliseconds, in double precision. It is computed by way of the seconds, and
rounded at every step. -/
def milliseconds (d : Duration) : Rat :=
  let seconds := Text.double (Text.double d.seconds + Text.double (d.subsecond / Duration.second))
  Text.double (seconds * 1000)

/-- A duration in milliseconds with two places. -/
def roundMilliseconds (d : Duration) : List Char :=
  let n := Text.nearest (milliseconds d * 100)
  Text.decimal (n / 100) ++ '.' :: Duration.padded 2 (n % 100)

/-- A duration in milliseconds with all its digits. -/
def fullMilliseconds (d : Duration) : List Char :=
  (Text.Scientific.shortest (milliseconds d)).text

/-- What is shown of an entry: its value, else its error, else that it is empty. -/
def shown (e : Entry) : String :=
  (e.value <|> e.error).getD "<empty>"

/-- An entry as a line of text. -/
def line (e : Entry) : String :=
  String.ofList
    (padRight 7 e.shape.name.toList ++ [' '] ++
      padRight 4 (if e.ok then "ok" else "FAIL").toList ++ [' '] ++
      padLeft 9 (roundMilliseconds e.elapsed) ++ "ms  ".toList) ++ e.shown

/-- An optional text in JSON. -/
def jsonText : Option String → String
  | some s => Text.jsonString s
  | none => "null"

/-- An entry as a JSON object on several lines. -/
def object (e : Entry) : String :=
  "  \x7b\n    \"shape\": " ++ Text.jsonString e.shape.name ++
    ",\n    \"value\": " ++ jsonText e.value ++
    ",\n    \"error\": " ++ jsonText e.error ++
    ",\n    \"elapsed_ms\": " ++ String.ofList (fullMilliseconds e.elapsed) ++
    ",\n    \"ok\": " ++ (if e.ok then "true" else "false") ++ "\n  \x7d"

/-- Entries as lines of text. -/
def lines (es : List Entry) : String :=
  String.join (es.map fun e => e.line ++ "\n")

/-- Entries as a JSON list. -/
def list (es : List Entry) : String :=
  "[\n" ++ String.intercalate ",\n" (es.map object) ++ "\n]\n"

end Entry

end Deferral.Probe
