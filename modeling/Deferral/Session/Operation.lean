import Deferral.Session.Report

/-!
# Operations

What a caller can ask for in a session, and what is answered.
-/

namespace Deferral

/-- An operation on the scopes and handles of a session, by name. -/
inductive Operation (V : Type)
  /-- Build a scope. -/
  | build (name : String) (settings : Settings)
  /-- Make a scope called `title` on the pool of the session. -/
  | borrow (name title : String)
  /-- Make a further reference to a scope. -/
  | share (scope name : String)
  /-- Drop a reference to a scope. -/
  | unshare (scope : String)
  /-- Tell the state of a scope. -/
  | scopeState (scope : String)
  /-- Tell the term of a scope. -/
  | scopeTerm (scope : String)
  /-- Shut a scope down. -/
  | shutdown (scope : String) (limit : Option Duration)
  /-- Shut the pool of the session down. -/
  | stopPool
  /-- Open a gate. -/
  | openGate (gate : String)
  /-- Reserve a computation. -/
  | reserve (scope handle : String) (name : Option String) (computation : Computation String V)
  /-- Get a reference to the process-wide scope. -/
  | global (name : String)
  /-- Reserve a computation on the process-wide scope. -/
  | reserveGlobally (handle : String) (computation : Computation String V)
  /-- Start a reservation as a future. -/
  | spawn (handle : String)
  /-- Turn a reservation into a handle that starts on demand. -/
  | reshape (handle : String) (shape : Shape)
  /-- Run a reservation's computation directly on the pool, or drop it. -/
  | custom (handle : String) (run : Bool)
  /-- Block for the outcome. -/
  | block (handle : String) (limit : Option Duration)
  /-- Join a future. -/
  | join (handle : String) (limit : Option Duration)
  /-- Abort a future. -/
  | cancel (handle : String)
  /-- Abort through a subscription. -/
  | dispose (handle : String)
  /-- Give a future a callback. -/
  | complete (handle : String)
  /-- Give a mono a callback. -/
  | subscribe (handle : String)
  /-- Block for the value of a maybe. -/
  | get (handle : String)
  /-- Block for the next item of a stream. -/
  | next (handle : String)
  /-- Poll until there is an answer. -/
  | await (handle : String)
  /-- Take all items. -/
  | collect (handle : String)
  /-- Poll once. -/
  | poll (handle waker : String)
  /-- Drop a handle. -/
  | drop (handle : String)
  /-- Tell the status of a handle. -/
  | status (handle : String)
  /-- Tell the term of a handle. -/
  | term (handle : String)

/-- What another thread does while an operation blocks. -/
structure Meanwhile where
  /-- The gates that it opens. -/
  gates : List String := []
  /-- The scopes that it then shuts down. -/
  shutdowns : List (String × Option Duration) := []

/-- An operation with its circumstances. -/
structure Request (V : Type) where
  /-- The operation. -/
  operation : Operation V
  /-- Whether the calling thread is inside the pool of the session. -/
  inside : Bool := false
  /-- What happens while the operation blocks. -/
  meanwhile : Meanwhile := {}

/-- What became of a computation that was run directly on a pool. -/
inductive Direct (V : Type)
  /-- It ended with a value. -/
  | value (v : V)
  /-- It panicked. -/
  | panicked
  /-- It was dropped. -/
  | cancelled

/-- What an operation answers. -/
inductive Reply (V : Type)
  /-- Nothing. -/
  | nothing
  /-- The state of a scope. -/
  | scope (s : ScopeState)
  /-- A failure. -/
  | failure (f : Failure)
  /-- A term. -/
  | term (s : String)
  /-- The status of a handle. -/
  | status (s : Status)
  /-- A future was started. -/
  | started (id : Nat)
  /-- What a handle delivered. -/
  | delivery (d : Delivery V)
  /-- Nothing was delivered, and the handle is kept. -/
  | pending
  /-- A poll was answered. -/
  | ready (d : Delivery V)
  /-- All items. -/
  | items (os : List (Outcome V))
  /-- A reservation was consumed by a function of the caller. -/
  | custom (id : Nat) (name : Option String) (scope : String) (ran : Option (Direct V))

end Deferral
