import Deferral.Config.Layer

/-!
# Loading a configuration

A configuration is merged from the defaults, a file, and the environment, in increasing priority,
and then checked. Overrides, as from a command line, are applied to what was loaded.
-/

namespace Deferral

/-- What stands at a path. -/
inductive FileState
  /-- Nothing. -/
  | absent
  /-- A directory. -/
  | directory
  /-- A file with these bytes. -/
  | bytes (content : ByteArray)

/-- The text of a file, unless it cannot be read. -/
def FileState.text? : FileState → Except FileFault (Option String)
  | .absent => .ok none
  | .directory => .error .isDirectory
  | .bytes content =>
    match String.fromUTF8? content with
    | some s => .ok (some s)
    | none => .error .notText

/-- What stands at each path. -/
abbrev Files := String → FileState

/-- The environment variables that are set to a text. -/
abbrev Environment := String → Option String

/-- The environment of a list of variables, in which a value that is no text counts as unset. -/
def Environment.ofList (vars : List (String × ByteArray)) : Environment := fun name =>
  (vars.lookup name).bind fun b => String.fromUTF8? b

namespace Environment

/-- The variable of the number of worker threads. -/
def workersVariable : String := "SUSPEND_RUNNER_WORKERS"

/-- The variable of the thread name. -/
def threadNameVariable : String := "SUSPEND_RUNNER_THREAD_NAME"

/-- The variable of the stack size. -/
def stackSizeVariable : String := "SUSPEND_RUNNER_STACK_SIZE"

/-- The variable of the time that a shutdown waits, in milliseconds. -/
def graceVariable : String := "SUSPEND_RUNNER_SHUTDOWN_TIMEOUT_MS"

/-- The number that a variable holds between blanks, if it holds one of 64 bits. -/
def number? (env : Environment) (name : String) : Option Nat :=
  (env name).bind fun s => Text.readNatural? Text.maxWord (Text.trim s.toList)

/-- The layer that an environment holds. A thread name is taken as it is. -/
def layer (env : Environment) : Layer where
  workers := env.number? workersVariable
  threadName := env threadNameVariable
  stackSize := env.number? stackSizeVariable
  graceMilliseconds := env.number? graceVariable

end Environment

/-- The settings with the file's layer over them. -/
def Settings.withFile (s : Settings) (path : String) (l : Layer) : Settings :=
  { s.overlay l with path := some path, source := .file }

/-- The settings with the environment's layer over them. -/
def Settings.withEnvironment (s : Settings) (l : Layer) : Settings :=
  { s.overlay l with source := if l = {} then s.source else .environment }

/-- Merge the defaults, the file at the path, if there is one, and the environment. -/
def merge (path : Option String) (files : Files) (env : Environment) :
    Except ConfigError Settings := do
  let base : Settings ←
    match path with
    | none => .ok {}
    | some p =>
      match (files p).text? with
      | .error fault => .error (.unreadable p fault.text)
      | .ok none => .ok {}
      | .ok (some text) =>
        match Layer.read? text with
        | some l => .ok (Settings.withFile {} p l)
        | none => .error .malformed
  .ok (base.withEnvironment env.layer)

/-- Load a configuration: merge its sources and check the result. -/
def load (path : Option String) (files : Files) (env : Environment) :
    Except ConfigError Settings := do
  let s ← merge path files env
  s.validate
  .ok s

/-- Values that take precedence over a loaded configuration. -/
structure Overrides where
  /-- The number of worker threads. -/
  workers : Option Nat := none
  /-- The name of the worker threads. -/
  threadName : Option String := none
  /-- How many milliseconds a shutdown waits. -/
  graceMilliseconds : Option Nat := none
  deriving DecidableEq, Repr

/-- The layer that overrides set. -/
def Overrides.layer (o : Overrides) : Layer where
  workers := o.workers
  threadName := o.threadName
  graceMilliseconds := o.graceMilliseconds

/-- The settings with overrides applied. The result is not checked. -/
def Settings.override (s : Settings) (o : Overrides) : Settings :=
  { s.overlay o.layer with source := if o = {} then s.source else .commandLine }

end Deferral
