import Deferral.Config.Load

/-!
# Where the configuration is

The default path of the configuration file, below the configuration directory of the user.
-/

namespace Deferral

/-- Put a relative path behind a directory. -/
def joinPath (dir rel : String) : String :=
  if dir.toList.getLast? = some '/' then dir ++ rel else dir ++ "/" ++ rel

/-- Whether a path starts at the root. -/
def isAbsolute (path : String) : Bool :=
  path.toList.head? = some '/'

/-- The configuration directory of the user: the one that `XDG_CONFIG_HOME` names, if that is
absolute, else one in the home directory. -/
def configDirectory (env : Environment) : Option String :=
  match (env "XDG_CONFIG_HOME").filter isAbsolute with
  | some dir => some dir
  | none => ((env "HOME").filter (· ≠ "")).map fun home => joinPath home ".config"

/-- The default path of the configuration file. -/
def defaultPath (env : Environment) : Option String :=
  (configDirectory env).map fun dir => joinPath (joinPath dir "suspend-runner") "runner.toml"

/-- Load the configuration from its default path. -/
def loadDefault (files : Files) (env : Environment) : Except ConfigError Settings :=
  load (defaultPath env) files env

end Deferral
