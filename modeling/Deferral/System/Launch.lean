import Deferral.System.Scope

/-!
# Launching

A reservation captures a computation for a scope without starting it. Launching it has four
steps: the launch begins; it looks whether the scope is closed; it hands the computation to the
pool of the scope; and it drops the reservation's reference to the scope. A computation whose
scope is closed is not handed on, and one handed to a pool that was shut down is dropped at once.
-/

namespace Deferral.System

variable {V : Type}

/-- Reserve a computation on a scope. It accounts for a reference to the scope, and for one per
scope that it mentions. -/
def reserve (s : ScopeId) (name : Option String) (label : String)
    (parent : Option ReservationId) (computation : Computation ScopeId V)
    (consumer : Consumer V) (w : System V) : ReservationId × System V :=
  let r : Reservation V :=
    { label, name, parent, scope := s, computation, rest := computation, consumer }
  (w.reservations.length,
    { w.retainAll (s :: computation.mentions) with reservations := w.reservations ++ [r] })

/-- Publish the outcome of a reservation. -/
def publish (r : ReservationId) (o : Outcome V) (w : System V) : System V :=
  w.update r fun x =>
    { x with consumer := x.consumer.publish o, outcomes := x.outcomes ++ [o] }

/-- A computation is over: it is let go of, with its references, in the given phase. -/
def conclude (r : ReservationId) (phase : Phase) (event : Event V) (w : System V) : System V :=
  match w.reservations[r]? with
  | some x =>
    (w.update r fun x => { x with phase, events := x.events ++ [event] }).releaseAll x.mentions
  | none => w

/-- A computation is over, and after it was let go of its outcome is published. -/
def concludeWith (r : ReservationId) (phase : Phase) (event : Event V) (o : Outcome V)
    (w : System V) : System V :=
  (w.conclude r phase event).publish r o

/-- Drop the reference that a reservation holds to its scope. -/
def letGo (r : ReservationId) (w : System V) : System V :=
  match w.reservations[r]? with
  | some x =>
    if x.holdsScope && x.phase.isLaunched then
      (w.update r fun x => { x with holdsScope := false }).release x.scope
    else w
  | none => w

/-- Begin the launch of a reservation. -/
def startLaunch (r : ReservationId) (w : System V) : System V :=
  w.update r fun x =>
    if x.phase = .captured then { x with phase := .launching, launches := x.launches + 1 } else x

/-- Look whether the scope is closed. -/
def testClosed (r : ReservationId) (w : System V) : System V :=
  match w.reservations[r]? with
  | some x =>
    if x.phase = .launching then
      if w.isClosed x.scope then w.concludeWith r .dropped .dropped (.error .scopeClosed)
      else w.update r fun x => { x with phase := .cleared }
    else w
  | none => w

/-- Hand the computation to the pool. -/
def spawn (r : ReservationId) (w : System V) : System V :=
  match w.reservations[r]? with
  | some x =>
    if x.phase = .cleared then
      if w.poolAlive x.scope then w.update r fun x => { x with phase := .queued, spawned := true }
      else
        -- A pool that was shut down takes the task and drops it, so there is a task to abort.
        (w.update r fun x => { x with spawned := true }).concludeWith r .dropped .dropped
          (.error .cancelled)
    else w
  | none => w

/-- Register the callback that was waiting for the launch. -/
def attach (r : ReservationId) (w : System V) : System V :=
  match w.reservations[r]? with
  | some x => if x.phase.isLaunched then w.updateConsumer r Consumer.attach else w
  | none => w

/-- Hand a reserved computation to the pool without looking whether the scope is closed, and keep
the reference to the scope. -/
def spawnDirectly (r : ReservationId) (w : System V) : System V :=
  (w.update r fun x => if x.phase = .captured then { x with phase := .cleared } else x).spawn r

/-- Drop a reservation that was not launched, with its references. -/
def discard (r : ReservationId) (w : System V) : System V :=
  match w.reservations[r]? with
  | some x => if x.phase = .captured then (w.conclude r .dropped .dropped).letGo r else w
  | none => w

/-- Request an abort of a computation. There is nothing to abort unless the launch handed it to a
pool. -/
def abort (r : ReservationId) (w : System V) : System V :=
  w.update r fun x => if x.spawned then { x with aborted := true } else x

/-- Drop the handle of a reservation. -/
def dropHandle (r : ReservationId) (w : System V) : System V :=
  match w.reservations[r]? with
  | some x =>
    let w' := w.updateConsumer r Consumer.drop
    if Consumer.givesUp x.consumer.handle then w'.abort r
    else if x.phase = .captured then w'.discard r
    else w'
  | none => w

end Deferral.System
