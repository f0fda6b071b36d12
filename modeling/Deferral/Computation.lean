import Deferral.Failure

/-!
# Computations

A computation is a sequence of steps that a task carries out, followed by an ending. It is
described as data: each step carries what comes after it. Steps may refer to scopes, and may
reserve a further computation on a scope and wait for its result.

A computation holds a reference to every scope that its remaining steps mention.
-/

namespace Deferral

/-- What a panic carries. -/
inductive Payload
  /-- A text. -/
  | text (s : String)
  /-- Something that is no text. -/
  | other
  deriving DecidableEq, Repr

/-- What is reported of a payload. -/
def Payload.message : Payload → String
  | .text s => s
  | .other => "non-string panic payload"

/-- How a computation ends when it is carried to its end. -/
inductive Ending (V : Type)
  /-- With a value. -/
  | value (v : V)
  /-- With a panic. -/
  | panic (p : Payload)
  deriving DecidableEq, Repr

/-- The outcome of a computation that was carried to its end. -/
def Ending.outcome {V : Type} : Ending V → Outcome V
  | .value v => .ok v
  | .panic p => .error (.panicked p.message)

/-- How a computation waits for the result of one that it reserved. The first four suspend it,
the others block its thread. -/
inductive Access
  /-- Start it as a future and await that. -/
  | spawn
  /-- Await the item of a mono. -/
  | mono
  /-- Await a maybe. -/
  | maybe
  /-- Await the item of a one-item stream. -/
  | stream
  /-- Block for it. -/
  | block
  /-- Start it as a future and join that. -/
  | join
  /-- Block on a mono. -/
  | monoBlock
  /-- Block on a maybe. -/
  | get
  /-- Block for the item of a one-item stream. -/
  | next
  deriving DecidableEq, Repr

/-- Whether waiting this way blocks the thread. -/
def Access.blocks : Access → Bool
  | .spawn | .mono | .maybe | .stream => false
  | .block | .join | .monoBlock | .get | .next => true

/-- A computation over scopes named by `S` with values in `V`. -/
inductive Computation (S V : Type)
  /-- End. -/
  | finish (ending : Ending V)
  /-- Suspend until the gate is open. -/
  | gate (name : String) (rest : Computation S V)
  /-- Report a value. -/
  | mark (v : V) (rest : Computation S V)
  /-- Let others run. -/
  | yield (rest : Computation S V)
  /-- Suspend for some time. -/
  | sleep (time : Duration) (rest : Computation S V)
  /-- Report the name of the current thread. -/
  | thread (rest : Computation S V)
  /-- Shut a scope down. -/
  | shutdown (scope : S) (rest : Computation S V)
  /-- Drop the reference to a scope. -/
  | dropScope (scope : S) (rest : Computation S V)
  /-- Reserve a computation on a scope and wait for its result. -/
  | await (access : Access) (scope : S) (inner rest : Computation S V)
  deriving DecidableEq, Repr

namespace Computation

variable {S T V : Type}

/-- The scopes that a computation refers to, once for every reference. -/
def mentions : Computation S V → List S
  | finish _ => []
  | gate _ rest | mark _ rest | yield rest | sleep _ rest | thread rest => rest.mentions
  | shutdown s rest | dropScope s rest => s :: rest.mentions
  | await _ s inner rest => s :: (inner.mentions ++ rest.mentions)

/-- The number of steps and endings in a computation, nested ones included. -/
def size : Computation S V → Nat
  | finish _ => 1
  | gate _ rest | mark _ rest | yield rest | sleep _ rest | thread rest
  | shutdown _ rest | dropScope _ rest => rest.size + 1
  | await _ _ inner rest => inner.size + rest.size + 1

/-- The same computation over other names of scopes, if every name has a counterpart. -/
def resolve (f : S → Option T) : Computation S V → Option (Computation T V)
  | finish e => some (finish e)
  | gate g rest => (rest.resolve f).map (gate g)
  | mark v rest => (rest.resolve f).map (mark v)
  | yield rest => (rest.resolve f).map yield
  | sleep d rest => (rest.resolve f).map (sleep d)
  | thread rest => (rest.resolve f).map thread
  | shutdown s rest => do some (shutdown (← f s) (← rest.resolve f))
  | dropScope s rest => do some (dropScope (← f s) (← rest.resolve f))
  | await a s inner rest => do
    some (await a (← f s) (← inner.resolve f) (← rest.resolve f))

end Computation

end Deferral
