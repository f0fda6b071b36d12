import Deferral.System.Action

/-!
# Coming to rest

A scheduler: it lets the tasks of a system take actions until none is left that can, and lets
time pass when that is all that tasks wait for. Every change it makes is an action.
-/

namespace Deferral.System

variable {V : Type}

/-- The action that a reservation can take next by itself, if any. The launch of a reservation
that a caller made is left to the caller. -/
def nextAction? (w : System V) (x : Reservation V) (r : ReservationId) : Option (Action V) :=
  -- A thread that is launching does nothing else, so its launch comes first.
  if x.parent.isSome && x.phase = .launching then some (.testClosed r)
  else if x.parent.isSome && x.phase = .cleared then some (.spawn r)
  else if x.parent.isSome && x.phase.isLaunched && x.holdsScope then some (.letGo r)
  else if x.parent.isSome && x.phase.isLaunched && x.consumer.attaching.isSome then
    some (.attach r)
  else
    -- A doomed task is dropped where another one would be taken up, never while it has a thread.
    match x.phase with
    | .queued => if w.isDoomed x then some (.dropTask r) else some (.resume r)
    | .paused pause =>
      if w.isDoomed x then some (.dropTask r)
      else if w.isDue pause then some (.resume r)
      else none
    | .active _ => if w.canStep x then some (.step r) else none
    | _ => none

/-- The next action of the first reservation that has one. -/
def next? (w : System V) : Option (Action V) :=
  w.reservations.zipIdx.findSome? fun (x, r) => w.nextAction? x r

/-- Take up to `n` actions. -/
def settleWithin : Nat → System V → System V
  | 0, w => w
  | n + 1, w =>
    match w.next? with
    | some a => settleWithin n (w.act a)
    | none => w

/-- All numbers of a list together. -/
def total : List Nat → Nat
  | [] => 0
  | n :: l => n + total l

/-- How many actions all tasks together can take at most. -/
def patience (w : System V) : Nat :=
  total (w.reservations.map fun x => 16 * (x.rest.size + 1))

/-- Let tasks act until none can without time passing. -/
def settle (w : System V) : System V :=
  w.settleWithin w.patience

/-- The time at which the next sleeping task is due. -/
def nextTime? (w : System V) : Option Nat :=
  (w.reservations.filterMap fun x =>
    match x.phase with
    | .paused (.until t) => if w.isDoomed x then none else some t
    | _ => none).min?

/-- Let tasks act and time pass, up to `n` times, but not up to the deadline. -/
def quiesceWithin (deadline : Option Nat) : Nat → System V → System V
  | 0, w => w.settle
  | n + 1, w =>
    let w := w.settle
    match w.nextTime? with
    | some t =>
      if deadline.all (t < ·) then quiesceWithin deadline n (w.act (.pass (t - w.clock))) else w
    | none => w

/-- Let tasks act and time pass until nothing is left to happen before the deadline. -/
def quiesce (deadline : Option Nat) (w : System V) : System V :=
  w.quiesceWithin deadline w.patience

/-- What became of a blocking operation. -/
inductive Waited (V : Type)
  /-- It was answered. -/
  | delivered (d : Delivery V)
  /-- Its time was up, and the future was handed back. -/
  | handedBack
  /-- It would never be answered. -/
  | stuck

/-- The bound of the blocking operation that is under way on a handle. -/
def waitLimit? (r : ReservationId) (w : System V) : Option Duration :=
  (w.reservations[r]?).bind fun x =>
    match x.consumer.handle with
    | .waiting purpose => purpose.limit?
    | _ => none

/-- Carry a blocking operation through. Meanwhile, once all is at rest, `during` happens. -/
def waitOut (r : ReservationId) (during : System V → System V) (w : System V) :
    System V × Waited V :=
  -- The deadline is fixed at the beginning, and what is due at it happens after the last look.
  let deadline := (w.waitLimit? r).bind fun d => d.deadline? w.clock
  let w := (during (w.quiesce deadline)).quiesce deadline
  match w.fetchAnswer r, deadline with
  | some d, _ => (w.act (.fetch r), .delivered d)
  | none, none => (w, .stuck)
  | none, some t =>
    let w := w.act (.pass (t - w.clock))
    match w.expireAnswer r with
    | .delivered d => (w.act (.expire r), .delivered d)
    | .handedBack => (w.act (.expire r), .handedBack)
    | .givenUp limit => (w.act (.expire r), .delivered (.outcome (.error (.timedOut limit))))
    | .unbounded => (w, .stuck)

/-- Poll a handle until it answers. Meanwhile, once all is at rest, `during` happens. -/
def pollOut (r : ReservationId) (during : System V → System V) (w : System V) :
    System V × Option (Delivery V) :=
  match w.pollAnswer r .thread with
  | some d => (w.act (.poll r .thread), some d)
  | none =>
    -- The waker left behind by the first poll brings the thread back for the second.
    let w := (during ((w.act (.poll r .thread)).quiesce none)).quiesce none
    (w.act (.poll r .thread), w.pollAnswer r .thread)

end Deferral.System
