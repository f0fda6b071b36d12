import Deferral.Probe.Entry

/-!
# The probe

Read the command line, load the configuration, build a scope, try the shapes, and report. The
status is zero if every entry is in order, one if an entry is not or no scope could be built, and
two if the arguments are wrong.
-/

namespace Deferral.Probe

/-- What a call of the probe ends in. -/
structure Verdict where
  /-- What is printed. -/
  output : String := ""
  /-- The error that is reported. -/
  error : Option String := none
  /-- The exit status. -/
  status : Nat := 0
  deriving DecidableEq, Repr

/-- The line that tells the version. -/
def versionText : String := "reserve-probe 0.1.0\n"

/-- The summary of the options. It shows the environment's number of threads. -/
def helpText (workers : String) : String :=
  "Probe reserve consumption shapes\n\nUsage: reserve-probe [OPTIONS]\n\nOptions:\n" ++
  "      --value <VALUE>            Value the delayed operation echoes back [default: forte]\n" ++
  "      --delay-ms <DELAY_MS>      How long the operation suspends before answering " ++
  "[default: 100]\n" ++
  "      --timeout-ms <TIMEOUT_MS>  Bound used by the mono shape's blocking accessor " ++
  "[default: 150]\n" ++
  "      --workers <WORKERS>        Runtime worker threads (overrides config and environment) " ++
  "[env: SUSPEND_RUNNER_WORKERS=" ++ workers ++ "]\n" ++
  "      --config <CONFIG>          Config file (defaults to the XDG location)\n" ++
  "      --only <ONLY>              Only run these shapes (repeatable) " ++
  "[possible values: block, spawn, mono, maybe, stream]\n" ++
  "      --json                     Print results as JSON\n" ++
  "  -h, --help                     Print help\n" ++
  "  -V, --version                  Print version\n"

/-- What is printed for a flag that asks for something else than a probe. -/
def Verdict.ofFlag (bindings : List (String × ByteArray)) : Flag → Verdict
  | .version => { output := versionText }
  | _ =>
    let env := Environment.ofList bindings
    { output := helpText ((env Environment.workersVariable).getD "") }

/-- The verdict on arguments of which no options came. -/
def Verdict.ofRefusal (bindings : List (String × ByteArray)) : Refusal → Verdict
  | .asked f => .ofFlag bindings f
  | .wrong e => { error := some e.message, status := 2 }

/-- The verdict on entries. -/
def Verdict.ofEntries (json : Bool) (es : List Entry) : Verdict :=
  let output := if json then Entry.list es else Entry.lines es
  let failed := es.countP fun e => !e.ok
  if failed = 0 then { output }
  else
    { output
      error := some (toString failed ++ " of " ++ toString es.length ++ " shapes failed")
      status := 1 }

/-- The settings of the probe's scope: what was loaded, with the number of threads that was asked
for. -/
def settings (path : Option String) (files : Files) (bindings : List (String × ByteArray))
    (o : Options) : Except ConfigError Settings := do
  let s ← load (o.config <|> path) files (Environment.ofList bindings)
  .ok (s.override { workers := o.workers })

/-- What a call of the probe leads to before any time is measured. -/
inductive Course
  /-- It ends at once. -/
  | over (v : Verdict)
  /-- It tries the shapes. -/
  | trials (o : Options) (ts : List Trial)
  /-- It waits for ever. -/
  | endless

/-- The course of a call, given the path at which the configuration is by default. -/
def course (path : Option String) (files : Files) (bindings : List (String × ByteArray))
    (arguments : List String) : Course :=
  match Options.read arguments bindings with
  | .error refusal => .over (.ofRefusal bindings refusal)
  | .ok o =>
    match settings path files bindings o with
    | .error e => .over { error := some e.message, status := 1 }
    | .ok c =>
      match ({} : System String).build c with
      | .refused f => .over { error := some f.message, status := 1 }
      | .collapsed => .over { status := 101 }
      | .built s w =>
        match trials o s w o.shapes with
        | some ts => .trials o ts
        | none => .endless

/-- The verdict on trials of which the n-th took as long as the n-th duration says. -/
def conclude (o : Options) (ts : List Trial) (elapsed : List Duration) : Verdict :=
  .ofEntries o.json (List.zipWith (Entry.ofTrial o) ts elapsed)

end Deferral.Probe
