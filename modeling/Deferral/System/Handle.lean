import Deferral.System.Task

/-!
# Handles

What a caller does with the handle of a reservation. An operation that starts the computation
leaves its launch to be finished; until then, and while a nested handle belongs to a task, the
handle is not offered.
-/

namespace Deferral.System

variable {V : Type}

/-- Whether a caller may operate on a handle now. -/
def isOffered (x : Reservation V) : Bool :=
  x.parent.isNone && (x.phase = .captured || x.isSettled)

/-- Apply an operation to a reservation whose handle is offered. -/
def onOffered (r : ReservationId) (w : System V) (f : Reservation V → System V) : System V :=
  match w.reservations[r]? with
  | some x => if isOffered x then f x else w
  | none => w

/-- Reserve a computation on a scope. The caller holds references to that scope and to all that the
computation mentions. -/
def reserveFor (s : ScopeId) (name : Option String) (label : String)
    (computation : Computation ScopeId V) (w : System V) : System V :=
  if ∀ t ∈ s :: computation.mentions, t ∈ w.held then
    (w.reserve s name label none computation {}).2
  else w

/-- Turn a reservation into a handle that starts on demand. -/
def reshape (r : ReservationId) (shape : Shape) (w : System V) : System V :=
  w.onOffered r fun _ => w.updateConsumer r (Consumer.reshape shape)

/-- Begin an operation that needs the computation to be running. -/
def use (r : ReservationId) (u : Use) (w : System V) : System V :=
  w.onOffered r fun x =>
    let begun := x.consumer.begin u
    let w' := w.updateConsumer r fun _ => begun.consumer
    if begun.launch then w'.startLaunch r else w'

/-- What an operation answers at its beginning, without any wait. -/
def useAnswer (r : ReservationId) (u : Use) (w : System V) : Option (Delivery V) :=
  (w.reservations[r]?).bind fun x => if isOffered x then (x.consumer.begin u).answer else none

/-- Poll a handle. -/
def poll (r : ReservationId) (waker : Waker) (w : System V) : System V :=
  w.onOffered r fun x => w.updateConsumer r fun _ => (x.consumer.poll waker).1

/-- What a poll answers. -/
def pollAnswer (r : ReservationId) (waker : Waker) (w : System V) : Option (Delivery V) :=
  (w.reservations[r]?).bind fun x => if isOffered x then (x.consumer.poll waker).2 else none

/-- Look whether a blocking operation can be answered. -/
def fetch (r : ReservationId) (w : System V) : System V :=
  w.onOffered r fun x => w.updateConsumer r fun _ => x.consumer.fetch.1

/-- What a blocking operation is answered with, if it can be. -/
def fetchAnswer (r : ReservationId) (w : System V) : Option (Delivery V) :=
  (w.reservations[r]?).bind fun x => if isOffered x then x.consumer.fetch.2 else none

/-- End a blocking operation whose time is up; giving up aborts the computation. -/
def expire (r : ReservationId) (w : System V) : System V :=
  w.onOffered r fun x =>
    let (consumer, expiry) := x.consumer.expire
    let w' := w.updateConsumer r fun _ => consumer
    match expiry with
    | .givenUp _ => w'.abort r
    | _ => w'

/-- What a blocking operation is answered with when its time is up. -/
def expireAnswer (r : ReservationId) (w : System V) : Consumer.Expiry V :=
  match w.reservations[r]? with
  | some x => if isOffered x then x.consumer.expire.2 else .unbounded
  | none => .unbounded

/-- Give a future a callback in place of its handle. -/
def complete (r : ReservationId) (w : System V) : System V :=
  w.onOffered r fun _ => w.updateConsumer r Consumer.complete

/-- Abort a computation through its handle. -/
def cancel (r : ReservationId) (w : System V) : System V :=
  w.onOffered r fun x => if Consumer.canCancel x.consumer.handle then w.abort r else w

/-- Drop a handle. -/
def drop (r : ReservationId) (w : System V) : System V :=
  w.onOffered r fun _ => w.dropHandle r

/-- Run a reserved computation directly on the pool, whether or not the scope is closed, and wait
for its outcome. -/
def runDirectly (r : ReservationId) (w : System V) : System V :=
  w.onOffered r fun x =>
    match x.consumer.handle with
    | .reservation =>
      (w.updateConsumer r fun c => { c with handle := .waiting .outcome }).spawnDirectly r
    | _ => w

end Deferral.System
