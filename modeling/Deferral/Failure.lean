import Deferral.Config.Error
import Deferral.Duration
import Deferral.Text.Quoted

/-!
# Failures

Why a reservation did not yield a value, and what a computation's outcome is.
-/

namespace Deferral

/-- Why a reservation did not yield a value. -/
inductive Failure
  /-- The computation was dropped before it ended. -/
  | cancelled
  /-- The computation panicked with this text. -/
  | panicked (text : String)
  /-- A bounded wait gave up after this long. -/
  | timedOut (limit : Duration)
  /-- The scope was shut down before the computation could start. -/
  | scopeClosed
  /-- The scope's configuration is invalid. -/
  | config (cause : ConfigError)
  /-- The threads of a scope could not be created. -/
  | build (cause : String)
  deriving DecidableEq, Repr

/-- What a computation ends in, as far as its consumers are concerned. -/
abbrev Outcome (V : Type) := Except Failure V

/-- What is answered for an outcome that was handed out before. -/
def spent {V : Type} : Outcome V := .error .cancelled

namespace Failure

/-- The message of a failure. -/
def message : Failure → String
  | cancelled => "reserved computation was cancelled before completing"
  | panicked text => "reserved computation panicked: " ++ text
  | timedOut limit => "timed out after " ++ limit.text ++ " waiting for reserved computation"
  | scopeClosed => "reserve scope is closed"
  | config cause => "invalid reserve scope configuration: " ++ cause.message
  | build cause => "failed to build reserve runtime: " ++ cause

/-- Whether the computation never came to a value or a panic. -/
def isCancelled : Failure → Bool
  | cancelled | scopeClosed => true
  | _ => false

/-- Whether a bounded wait gave up. -/
def isTimeout : Failure → Bool
  | timedOut _ => true
  | _ => false

/-- The failure as a term, if its cause has such a form. -/
def term? : Failure → Option String
  | cancelled => some "Cancelled"
  | panicked text => some ("Panicked(" ++ Text.quoted text ++ ")")
  | timedOut limit => some ("TimedOut(" ++ limit.text ++ ")")
  | scopeClosed => some "ScopeClosed"
  | config (.invalid reason) => some ("Config(ValidationError(" ++ Text.quoted reason ++ "))")
  | config _ | build _ => none

/-- The message of the configuration error inside a failure. -/
def configMessage? : Failure → Option String
  | config cause => some cause.message
  | _ => none

end Failure

end Deferral
