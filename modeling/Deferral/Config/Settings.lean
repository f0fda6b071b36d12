import Deferral.Config.Error
import Deferral.Duration
import Deferral.Text.Blank

/-!
# Settings

What a scope with worker threads of its own is built from, and which settings are valid.
-/

namespace Deferral

/-- Where a configuration's values come from, at most. -/
inductive Source
  /-- From the command line. -/
  | commandLine
  /-- From an environment variable. -/
  | environment
  /-- From the configuration file. -/
  | file
  /-- From nowhere: the defaults. -/
  | defaults
  deriving DecidableEq, Repr

/-- The configuration of a scope. -/
structure Settings where
  /-- The number of worker threads. -/
  workers : Nat := 2
  /-- The name of the worker threads. -/
  threadName : String := "suspend-runner"
  /-- The stack size of a worker thread in bytes, if it is not the usual one. -/
  stackSize : Option Nat := none
  /-- How long a shutdown waits for what is in flight, unless told otherwise. -/
  grace : Duration := .ofSeconds 5
  /-- The file that was read. -/
  path : Option String := none
  /-- The strongest source that contributed. -/
  source : Source := .defaults
  deriving DecidableEq, Repr

namespace Settings

/-- The first defect of a configuration, if it has any. -/
def defect? (s : Settings) : Option Defect :=
  if s.workers = 0 then some .noWorkers
  else if Text.trim s.threadName.toList = [] then some .blankName
  else if s.stackSize = some 0 then some .emptyStack
  else none

/-- Check that a scope can be built. -/
def validate (s : Settings) : Except ConfigError Unit :=
  match s.defect? with
  | some defect => .error (.invalid defect.text)
  | none => .ok ()

end Settings

end Deferral
