/-!
# Configuration errors

Why a configuration could not be loaded, with the message for each cause. What the parser of a file
has to say about a mistake is not part of it.
-/

namespace Deferral

/-- A value that no scope can be built with. -/
inductive Defect
  /-- The number of worker threads is zero. -/
  | noWorkers
  /-- The thread name holds nothing but blanks. -/
  | blankName
  /-- The stack size is zero. -/
  | emptyStack
  deriving DecidableEq, Repr

/-- The wording of a defect. -/
def Defect.text : Defect → String
  | .noWorkers => "worker_threads must be at least 1"
  | .blankName => "thread_name must not be empty"
  | .emptyStack => "thread_stack_size must be greater than 0"

/-- What keeps a file from being read as text. -/
inductive FileFault
  /-- A directory stands at the path. -/
  | isDirectory
  /-- The bytes are not UTF-8. -/
  | notText
  deriving DecidableEq, Repr

/-- The wording of a file fault. -/
def FileFault.text : FileFault → String
  | .isDirectory => "Is a directory (os error 21)"
  | .notText => "stream did not contain valid UTF-8"

/-- Why a configuration could not be loaded. -/
inductive ConfigError
  /-- The file at `path` could not be read. -/
  | unreadable (path cause : String)
  /-- The file is no document of the expected form. -/
  | malformed
  /-- The merged configuration is invalid. -/
  | invalid (reason : String)
  deriving DecidableEq, Repr

/-- The message of a configuration error. For a file that is no document of the expected form a
colon and the parser's own account of the first mistake stand behind it; they are left out here. -/
def ConfigError.message : ConfigError → String
  | .unreadable path cause => "Failed to read config file at " ++ path ++ ": " ++ cause
  | .malformed => "Failed to parse TOML config"
  | .invalid reason => "Invalid configuration: " ++ reason

end Deferral
