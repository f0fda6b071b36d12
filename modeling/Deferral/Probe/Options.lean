import Deferral.Config.Load

/-!
# The command line of the probe

The probe reserves a computation that sleeps for a delay and then echoes a value, and consumes it
in several ways. Its arguments are read from left to right. Every option has a long name, and
takes its value behind an equals sign or from the next argument, which must not look like an
option itself; only the choice of a shape can be repeated. The first mistake decides, unless help
or the version was asked for before it.

A number of threads that is not given as an argument is taken from the environment, under the same
rules as if it had been.
-/

namespace Deferral.Probe

/-- A way of consuming a reservation. -/
inductive Shape
  /-- Block for the outcome. -/
  | block
  /-- Start a future and join it. -/
  | spawn
  /-- Block on a mono for a limited time. -/
  | mono
  /-- Block on a maybe. -/
  | maybe
  /-- Block for the item of a stream. -/
  | stream
  deriving DecidableEq, Repr

namespace Shape

/-- All shapes, in the order in which they are tried. -/
def all : List Shape := [block, spawn, mono, maybe, stream]

/-- The name of a shape. -/
def name : Shape → String
  | block => "block"
  | spawn => "spawn"
  | mono => "mono"
  | maybe => "maybe"
  | stream => "stream"

/-- The shape of a name. -/
def ofName? (s : String) : Option Shape :=
  all.find? fun x => x.name = s

end Shape

/-- An option that takes a value. -/
inductive Key
  /-- The value to echo. -/
  | value
  /-- The delay in milliseconds. -/
  | delay
  /-- The limit for a mono in milliseconds. -/
  | timeout
  /-- The number of worker threads. -/
  | workers
  /-- The path of the configuration file. -/
  | config
  /-- A shape to try. -/
  | only
  deriving DecidableEq, Repr

namespace Key

/-- All options that take a value. -/
def all : List Key := [value, delay, timeout, workers, config, only]

/-- The name of an option. -/
def name : Key → String
  | value => "value"
  | delay => "delay-ms"
  | timeout => "timeout-ms"
  | workers => "workers"
  | config => "config"
  | only => "only"

/-- The option of a name. -/
def ofName? (s : String) : Option Key :=
  all.find? fun k => k.name = s

end Key

/-- An option that takes no value. -/
inductive Flag
  /-- Print a JSON list. -/
  | json
  /-- Print a summary of the options. -/
  | help
  /-- Print the version. -/
  | version
  deriving DecidableEq, Repr

namespace Flag

/-- All options that take no value. -/
def all : List Flag := [json, help, version]

/-- The name of a flag. -/
def name : Flag → String
  | json => "json"
  | help => "help"
  | version => "version"

/-- The flag of a name. -/
def ofName? (s : String) : Option Flag :=
  all.find? fun f => f.name = s

/-- The flag of a letter. -/
def ofLetter? : Char → Option Flag
  | 'h' => some help
  | 'V' => some version
  | _ => none

end Flag

/-- What is wrong with the arguments. -/
inductive UsageError
  /-- There is no such option. -/
  | unknown (argument : String)
  /-- The argument belongs to no option. -/
  | stray (argument : String)
  /-- An option lacks its value. -/
  | unvalued (k : Key)
  /-- A flag has a value. -/
  | valued (f : Flag)
  /-- An option is given twice. -/
  | repeated (name : String)
  /-- A value is not of the kind that the option takes. -/
  | unsuited (k : Key)
  deriving DecidableEq, Repr

/-- The message of a usage error. -/
def UsageError.message : UsageError → String
  | unknown a => "unknown option '" ++ a ++ "'"
  | stray a => "unexpected argument '" ++ a ++ "'"
  | unvalued k => "a value is required for '--" ++ k.name ++ "'"
  | valued f => "no value is allowed for '--" ++ f.name ++ "'"
  | repeated n => "the option '--" ++ n ++ "' cannot be used more than once"
  | unsuited k => "invalid value for '--" ++ k.name ++ "'"

/-- What an argument looks like. -/
inductive Token
  /-- An option by its name, perhaps with a value behind an equals sign. -/
  | long (name : List Char) (value : Option (List Char))
  /-- Options by their letters, of which the first decides. -/
  | short (letter : Char)
  /-- The mark behind which there are no options. -/
  | mark
  /-- Anything else. -/
  | word
  deriving DecidableEq, Repr

/-- Tell what an argument looks like. -/
def Token.ofCharacters : List Char → Token
  | ['-', '-'] => mark
  | '-' :: '-' :: s =>
    match s.dropWhile (· ≠ '=') with
    | _ :: value => long (s.takeWhile (· ≠ '=')) (some value)
    | [] => long s none
  | '-' :: letter :: _ => short letter
  | _ => word

/-- Whether an argument can be the value of the option before it. -/
def isValue (argument : String) : Bool :=
  Token.ofCharacters argument.toList = .word

/-- The options that were given. -/
structure Given where
  /-- The value to echo. -/
  value : Option String := none
  /-- The delay in milliseconds. -/
  delay : Option Nat := none
  /-- The limit for a mono in milliseconds. -/
  timeout : Option Nat := none
  /-- The number of worker threads. -/
  workers : Option Nat := none
  /-- The path of the configuration file. -/
  config : Option String := none
  /-- The shapes to try. -/
  only : List Shape := []
  /-- Whether to print a JSON list. -/
  json : Bool := false
  deriving DecidableEq, Repr

/-- Why no options came of the arguments. -/
inductive Refusal
  /-- A flag was found that asks for something else. -/
  | asked (f : Flag)
  /-- Something is wrong. -/
  | wrong (e : UsageError)
  deriving DecidableEq, Repr

/-- The number that a value denotes. -/
def number? (v : String) : Option Nat :=
  Text.readNatural? Text.maxWord v.toList

/-- The path that a value denotes. -/
def path? (v : String) : Option String :=
  if v = "" then none else some v

namespace Given

/-- Give an option that can be given once. -/
def once {A : Type} (k : Key) (old new : Option A) (put : Option A → Given) :
    Except Refusal Given :=
  match new, old with
  | none, _ => .error (.wrong (.unsuited k))
  | _, some _ => .error (.wrong (.repeated k.name))
  | some a, none => .ok (put (some a))

/-- Give an option a value. -/
def set (k : Key) (v : String) (g : Given) : Except Refusal Given :=
  match k with
  | .value => once k g.value (some v) fun x => { g with value := x }
  | .delay => once k g.delay (number? v) fun x => { g with delay := x }
  | .timeout => once k g.timeout (number? v) fun x => { g with timeout := x }
  | .workers => once k g.workers (number? v) fun x => { g with workers := x }
  | .config => once k g.config (path? v) fun x => { g with config := x }
  | .only =>
    match Shape.ofName? v with
    | some s => .ok { g with only := g.only ++ [s] }
    | none => .error (.wrong (.unsuited k))

/-- Give a flag. -/
def raise (f : Flag) (g : Given) : Except Refusal Given :=
  match f with
  | .json =>
    if g.json then .error (.wrong (.repeated f.name)) else .ok { g with json := true }
  | .help | .version => .error (.asked f)

/-- Read arguments after those that have given some options. -/
def read (g : Given) : List String → Except Refusal Given
  | [] => .ok g
  | a :: rest =>
    match Token.ofCharacters a.toList with
    | .word => .error (.wrong (.stray a))
    | .mark =>
      match rest with
      | [] => .ok g
      | b :: _ => .error (.wrong (.stray b))
    | .short letter =>
      -- No letter is short for an option with a value.
      match Flag.ofLetter? letter with
      | some f => .error (.asked f)
      | none => .error (.wrong (.unknown a))
    | .long name value =>
      match Key.ofName? (String.ofList name), Flag.ofName? (String.ofList name), value with
      | some k, _, some v => do (← g.set k (String.ofList v)).read rest
      | some k, _, none =>
        match rest with
        | v :: rest => do
          if isValue v then (← g.set k v).read rest else .error (.wrong (.unvalued k))
        | [] => .error (.wrong (.unvalued k))
      | none, some f, none => do (← g.raise f).read rest
      | none, some f, some _ => .error (.wrong (.valued f))
      | none, none, _ => .error (.wrong (.unknown a))

end Given

/-- What the probe is to do. -/
structure Options where
  /-- The value to echo. -/
  value : String := "forte"
  /-- How long the computation sleeps. -/
  delay : Duration := .ofMilliseconds 100
  /-- The limit for a mono. -/
  timeout : Duration := .ofMilliseconds 150
  /-- The number of worker threads. -/
  workers : Option Nat := none
  /-- The path of the configuration file. -/
  config : Option String := none
  /-- The shapes that were asked for. -/
  only : List Shape := []
  /-- Whether to print a JSON list. -/
  json : Bool := false
  deriving DecidableEq, Repr

namespace Options

/-- The shapes to try: those that were asked for, else all. -/
def shapes (o : Options) : List Shape :=
  if o.only = [] then Shape.all else o.only

/-- The number of threads that the environment asks for. -/
def workersOf (bindings : List (String × ByteArray)) : Except Refusal (Option Nat) :=
  match bindings.lookup Environment.workersVariable with
  | none => .ok none
  | some bytes =>
    match (String.fromUTF8? bytes).bind number? with
    | some n => .ok (some n)
    | none => .error (.wrong (.unsuited .workers))

/-- The options that arguments and environment variables ask for. -/
def read (arguments : List String) (bindings : List (String × ByteArray)) :
    Except Refusal Options := do
  let g ← Given.read {} arguments
  -- The environment is asked last, and only for want of an argument.
  let workers ← match g.workers with
    | some n => .ok (some n)
    | none => workersOf bindings
  let o : Options := {}
  .ok {
    value := g.value.getD o.value
    delay := (g.delay.map Duration.ofMilliseconds).getD o.delay
    timeout := (g.timeout.map Duration.ofMilliseconds).getD o.timeout
    workers
    config := g.config
    only := g.only
    json := g.json }

end Options

end Deferral.Probe
