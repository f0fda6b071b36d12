import Deferral.Config.Settings
import Deferral.Consumer

/-!
# Systems

The state that callers and computations share: pools of worker threads, scopes on them, and
reservations. Scopes and reservations are numbered in the order of their making.

A scope counts the references to it. A reservation accounts for one until its launch is over, and
its computation for one per scope that its remaining steps mention; callers hold the others.
-/

namespace Deferral

/-- The number of a pool. -/
abbrev PoolId := Nat

/-- The number of a scope. -/
abbrev ScopeId := Nat

/-- The number of a reservation, counted from zero. -/
abbrev ReservationId := Nat

/-- How a pool is shut down. -/
inductive Stop
  /-- The caller waits for what is running, at most this long. -/
  | blocking (limit : Duration)
  /-- The caller does not wait. -/
  | background
  deriving DecidableEq, Repr

/-- Worker threads that carry computations out. -/
structure Pool where
  /-- The name of the threads. -/
  threadName : String
  /-- The number of threads. -/
  workers : Nat
  /-- Whether it was made for a scope. -/
  forScope : Bool := true
  /-- The shutdowns of the pool so far. -/
  stops : List Stop := []
  deriving DecidableEq, Repr

/-- Make the threads of a pool. There must be at least one thread, its stack must not be empty,
and no thread can have a name with a null character. -/
def Pool.create? (threadName : String) (workers : Nat) (stackSize : Option Nat) : Option Pool :=
  if workers = 0 ∨ stackSize = some 0 ∨ '\x00' ∈ threadName.toList then none
  else some { threadName, workers }

/-- Whether a pool still takes computations. -/
def Pool.alive (p : Pool) : Bool :=
  p.stops.isEmpty

/-- A call of shutdown that has closed a scope and is to shut its pool down. -/
structure Closing where
  /-- How long to wait for what is running. -/
  limit : Duration
  /-- Whether the call comes from a thread that itself carries computations out; such a thread
  must not wait. -/
  inside : Bool
  deriving DecidableEq, Repr

/-- How the call shuts a pool down. -/
def Closing.stop (c : Closing) : Stop :=
  if c.inside then .background else .blocking c.limit

/-- A place where reservations are made and started. -/
structure Scope where
  /-- The name of the scope. -/
  name : String
  /-- The pool that it starts computations on. -/
  pool : PoolId
  /-- Whether the pool belongs to the scope and has not been taken out of it. -/
  owns : Bool
  /-- How long a shutdown waits, unless told otherwise. -/
  grace : Duration
  /-- Whether it has been shut down. -/
  closed : Bool := false
  /-- The call of shutdown that is under way. -/
  closing : Option Closing := none
  /-- The number of references to it. -/
  references : Nat := 1
  deriving DecidableEq, Repr

/-- What an event of a computation is. -/
inductive Event (V : Type)
  /-- It was started. -/
  | start
  /-- It passed a gate. -/
  | passed (gate : String)
  /-- It reported a value. -/
  | mark (v : V)
  /-- It reported its thread. -/
  | thread (name : String)
  /-- It got the result of a nested reservation. -/
  | inner (d : Delivery V)
  /-- It ended with a value. -/
  | done
  /-- It ended with a panic. -/
  | panic
  /-- It was dropped before its end. -/
  | dropped
  deriving Repr

/-- What a suspended computation waits for. -/
inductive Pause
  /-- For a gate. -/
  | gate (name : String)
  /-- For its next turn. -/
  | turn
  /-- For a time of day. -/
  | until (time : Nat)
  /-- For the result of a nested reservation. -/
  | inner (child : ReservationId)
  deriving DecidableEq, Repr

/-- What a computation that occupies a thread is about to do. -/
inductive Activity
  /-- Its next step. -/
  | step
  /-- To finish the shutdown that it has begun. -/
  | closing
  /-- To look for the result of a nested reservation. -/
  | engaged (child : ReservationId)
  deriving DecidableEq, Repr

/-- How far a reservation's computation has come. -/
inductive Phase
  /-- Reserved, and not launched. -/
  | captured
  /-- The launch has begun. -/
  | launching
  /-- The launch has found the scope open. -/
  | cleared
  /-- Handed to the pool, and not started. -/
  | queued
  /-- Suspended. -/
  | paused (pause : Pause)
  /-- Occupying a thread. -/
  | active (activity : Activity)
  /-- Carried to its end. -/
  | ended
  /-- Dropped before its end. -/
  | dropped
  deriving DecidableEq, Repr

/-- Whether a computation in this phase is over. -/
def Phase.isOver : Phase → Bool
  | .ended | .dropped => true
  | _ => false

/-- Whether the launch of a computation in this phase has got past handing it to the pool. -/
def Phase.isLaunched : Phase → Bool
  | .captured | .launching | .cleared => false
  | _ => true

/-- A reservation: a computation captured for a scope. -/
structure Reservation (V : Type) where
  /-- The name under which its events are reported. -/
  label : String
  /-- The name it was given. -/
  name : Option String
  /-- The reservation whose computation made it, if no caller did. -/
  parent : Option ReservationId
  /-- The scope it was made on. -/
  scope : ScopeId
  /-- The computation as it was captured. -/
  computation : Computation ScopeId V
  /-- What remains of the computation. -/
  rest : Computation ScopeId V
  /-- The number of steps that are over. -/
  position : Nat := 0
  /-- How far the computation has come. -/
  phase : Phase := .captured
  /-- Whether it still accounts for a reference to its scope. -/
  holdsScope : Bool := true
  /-- How often it was launched. -/
  launches : Nat := 0
  /-- Whether its launch handed it to a pool, so that it can be aborted. -/
  spawned : Bool := false
  /-- Whether an abort was requested. -/
  aborted : Bool := false
  /-- Its consumer. -/
  consumer : Consumer V := {}
  /-- Its events so far. -/
  events : List (Event V) := []
  /-- The outcomes published for it. -/
  outcomes : List (Outcome V) := []

/-- The references to scopes that the remaining steps of a reservation account for. -/
def Reservation.mentions {V : Type} (r : Reservation V) : List ScopeId :=
  if r.phase.isOver then [] else r.rest.mentions

/-- Whether launch has returned, so that the handle can be used. -/
def Reservation.isSettled {V : Type} (r : Reservation V) : Bool :=
  r.phase.isLaunched && !r.holdsScope && r.consumer.attaching.isNone

/-- Pools, scopes and reservations. -/
structure System (V : Type) where
  /-- The time of day in nanoseconds. -/
  clock : Nat := 0
  /-- The gates that are open. -/
  gates : List String := []
  /-- The pools. -/
  pools : List Pool := []
  /-- The scopes. -/
  scopes : List Scope := []
  /-- The reservations. -/
  reservations : List (Reservation V) := []
  /-- The scopes that callers hold references to, once for every reference. -/
  held : List ScopeId := []

namespace System

variable {V : Type}

/-- Change a pool. -/
def updatePool (p : PoolId) (f : Pool → Pool) (w : System V) : System V :=
  { w with pools := w.pools.modify p f }

/-- Change a scope. -/
def updateScope (s : ScopeId) (f : Scope → Scope) (w : System V) : System V :=
  { w with scopes := w.scopes.modify s f }

/-- Change a reservation. -/
def update (r : ReservationId) (f : Reservation V → Reservation V) (w : System V) : System V :=
  { w with reservations := w.reservations.modify r f }

/-- Change the consumer of a reservation. -/
def updateConsumer (r : ReservationId) (f : Consumer V → Consumer V) (w : System V) : System V :=
  w.update r fun x => { x with consumer := f x.consumer }

/-- Whether the pool of a scope takes computations. -/
def poolAlive (s : ScopeId) (w : System V) : Bool :=
  match w.scopes[s]? with
  | some scope => (w.pools[scope.pool]?).any Pool.alive
  | none => false

/-- Whether a scope has been shut down. -/
def isClosed (s : ScopeId) (w : System V) : Bool :=
  (w.scopes[s]?).any Scope.closed

/-- Shut a pool down. -/
def stopPool (p : PoolId) (stop : Stop) (w : System V) : System V :=
  w.updatePool p fun pool => { pool with stops := pool.stops ++ [stop] }

/-- Take the pool out of a scope, if it is still there, and shut it down. -/
def takePool (s : ScopeId) (stop : Stop) (w : System V) : System V :=
  match w.scopes[s]? with
  | some scope =>
    if scope.owns then
      (w.updateScope s fun x => { x with owns := false }).stopPool scope.pool stop
    else w
  | none => w

/-- Make a further reference to a scope. -/
def retain (s : ScopeId) (w : System V) : System V :=
  w.updateScope s fun x => { x with references := x.references + 1 }

/-- Drop a reference to a scope. With the last one its pool is shut down in the background. -/
def release (s : ScopeId) (w : System V) : System V :=
  let w := w.updateScope s fun x => { x with references := x.references - 1 }
  match w.scopes[s]? with
  | some scope => if scope.references = 0 then w.takePool s .background else w
  | none => w

/-- Drop a list of references. -/
def releaseAll (ss : List ScopeId) (w : System V) : System V :=
  ss.foldl (fun w s => w.release s) w

/-- Make a list of further references. -/
def retainAll (ss : List ScopeId) (w : System V) : System V :=
  ss.foldl (fun w s => w.retain s) w

end System

end Deferral
