import Deferral.Config.Path
import Deferral.System.Action

/-!
# The process-wide scope

A scope that the whole process shares, made when it is first asked for. Whoever asks looks whether
it is there; if it is not, loads the configuration, builds a scope and offers it. The first scope
that is offered is kept, and every inquiry is answered with a reference to that one. A scope that
is offered later is dropped, and its pool with it.

A configuration that cannot be loaded is replaced by the defaults, so no inquiry fails for want of
a valid configuration.
-/

namespace Deferral

/-- The configuration of the process-wide scope. -/
def globalSettings (files : Files) (env : Environment) : Settings :=
  match loadDefault files env with
  | .ok s => s
  | .error _ => {}

/-- How far an inquiry for the process-wide scope has come. -/
inductive Inquiry
  /-- It was made. -/
  | begun
  /-- It has found no scope. -/
  | unmet
  /-- It has loaded the configuration. -/
  | loaded (c : Settings)
  /-- It has built a scope. -/
  | built (s : ScopeId)
  /-- It was answered. -/
  | answered (o : Except Failure ScopeId)
  /-- It has ended in a panic. -/
  | collapsed
  deriving Repr

/-- The scope that an inquiry has built and not yet offered. -/
def Inquiry.scope? : Inquiry → Option ScopeId
  | .built s => some s
  | _ => none

/-- A system with a process-wide scope. -/
structure Global (V : Type) where
  /-- The system. -/
  system : System V := {}
  /-- The process-wide scope, once it was made; a reference to it is held for good. -/
  place : Option ScopeId := none
  /-- The inquiries so far. -/
  inquiries : List Inquiry := []

namespace Global

variable {V : Type}

/-- Change an inquiry. -/
def update (i : Nat) (q : Inquiry) (g : Global V) : Global V :=
  { g with inquiries := g.inquiries.set i q }

/-- Make an inquiry. -/
def ask (g : Global V) : Global V :=
  { g with inquiries := g.inquiries ++ [.begun] }

/-- Answer an inquiry with a reference to a scope. -/
def answer (i : Nat) (s : ScopeId) (g : Global V) : Global V :=
  { g with system := g.system.share s }.update i (.answered (.ok s))

/-- An inquiry builds a scope. -/
def build (i : Nat) (c : Settings) (g : Global V) : Global V :=
  match g.system.build c with
  | .refused f => g.update i (.answered (.error f))
  | .collapsed => g.update i .collapsed
  | .built s w => { g with system := w }.update i (.built s)

/-- An inquiry offers the scope that it has built. -/
def offer (i : Nat) (s : ScopeId) (g : Global V) : Global V :=
  match g.place with
  | none => { g with place := some s }.answer i s
  -- The reference to the scope built in vain was the only one.
  | some kept => { g with system := g.system.unshare s }.answer i kept

/-- An inquiry takes its next step, at a time at which the files and the environment are as
given. -/
def advance (i : Nat) (files : Files) (env : Environment) (g : Global V) : Global V :=
  match g.inquiries[i]? with
  | some .begun =>
    match g.place with
    | some s => g.answer i s
    | none => g.update i .unmet
  | some .unmet => g.update i (.loaded (globalSettings files env))
  | some (.loaded c) => g.build i c
  | some (.built s) => g.offer i s
  | _ => g

/-- The references that belong to the process and to inquiries under way. -/
def reserved (g : Global V) : List ScopeId :=
  g.place.toList ++ g.inquiries.filterMap Inquiry.scope?

/-- Whether a scope is not yet, or not any more, in the hands of a caller. -/
def isHidden (s : ScopeId) (g : Global V) : Bool :=
  s ∈ g.reserved && g.system.held.count s ≤ g.reserved.count s

/-- The scopes that an action needs a caller's reference to. -/
def needs (g : Global V) : Action V → List ScopeId
  | .share s | .unshare s | .beginShutdown s _ => [s]
  | .reserve s _ _ computation => s :: computation.mentions
  | .borrow _ p =>
    (List.range g.system.scopes.length).filter fun s =>
      (g.system.scopes[s]?).any fun scope => scope.pool = p
  | _ => []

/-- Something that happens besides inquiries. It cannot use a scope that is hidden. -/
def act (a : Action V) (g : Global V) : Global V :=
  if (g.needs a).any fun s => g.isHidden s then g else { g with system := g.system.act a }

/-- What can happen in a process with inquiries for its scope. -/
inductive Step (V : Type)
  /-- An inquiry is made. -/
  | ask
  /-- An inquiry goes on. -/
  | advance (i : Nat) (files : Files) (env : Environment)
  /-- Something else. -/
  | act (a : Action V)

/-- The process after a step. -/
def step (g : Global V) : Step V → Global V
  | .ask => g.ask
  | .advance i files env => g.advance i files env
  | .act a => g.act a

/-- Make an inquiry and carry it through, while nothing else happens. The result is `none` if the
inquiry panics. -/
def acquire (files : Files) (env : Environment) (g : Global V) :
    Global V × Option (Except Failure ScopeId) :=
  let i := g.inquiries.length
  let go := advance i files env
  let g := go (go (go (go g.ask)))
  (g, match g.inquiries[i]? with
    | some (.answered o) => some o
    | _ => none)

end Global

end Deferral
