import Deferral.Config.Settings

/-!
# Sources

The names of the sources of a configuration, and their descriptions.
-/

namespace Deferral.Source

/-- All sources. -/
def all : List Source := [.commandLine, .environment, .file, .defaults]

/-- The name of a source. -/
def name : Source → String
  | .commandLine => "Cli"
  | .environment => "Env"
  | .file => "File"
  | .defaults => "Default"

/-- The description of a source. -/
def text : Source → String
  | .commandLine => "CLI"
  | .environment => "environment"
  | .file => "config file"
  | .defaults => "default"

/-- The source of a name. -/
def ofName? (s : String) : Option Source :=
  all.find? fun source => source.name = s

/-- Every source is found by its name. -/
@[simp]
theorem ofName?_name (s : Source) : ofName? s.name = some s := by
  cases s <;> decide

end Deferral.Source
