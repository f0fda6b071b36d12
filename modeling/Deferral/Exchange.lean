import Deferral.Cell
import Deferral.Failure

/-!
# Exchanges

A cell in the hands of two threads: the publisher that owes it an outcome, and its consumer. A
step is what one of them does while it holds the lock of the cell, or between two such times, so
a sequence of steps is an interleaving of the two.

The publisher publishes by giving its cell up: with an outcome when it completes, and as
cancelled when it is dropped while it still has the cell. To complete ends in a drop too, also
when a callback panics, so only the loss of the cell keeps the outcome from being published
again. Publishing has separate steps: the cell is filled under the lock; the lock is released; a
callback that was found is invoked, or else a parked consumer is notified and the waker that was
found is woken.

A consumer that waits looks into the cell, and parks in the same step if there is nothing. It is
roused by the notification, by its deadline, or for no reason, and then looks again. When it is
roused by its deadline and still finds nothing, it returns without an outcome.
-/

namespace Deferral

/-- What the publisher of a cell is about to do. -/
inductive Publishing (W V : Type)
  /-- It is in no call. -/
  | idle
  /-- It has filled the cell and is to release the lock. -/
  | locked (notice : Notice W (Outcome V))
  /-- It is to invoke a callback. -/
  | calling (callback : Callback) (o : Outcome V)
  /-- It is to notify a parked consumer, and then to wake a waker. -/
  | notifying (waker : Option W)
  /-- It is to wake a waker. -/
  | waking (waker : Option W)

/-- Where the consumer of a cell is. -/
inductive Attendance
  /-- In no call. -/
  | free
  /-- Parked in a wait. -/
  | parked (deadline : Option Nat)
  /-- Roused in a wait, `late` if by the deadline. -/
  | roused (deadline : Option Nat) (late : Bool)
  /-- It has given the cell up for a callback. -/
  | left
  deriving DecidableEq, Repr

/-- By what an outcome is handed out. -/
inductive Receiver
  /-- By a poll. -/
  | poll
  /-- By a wait. -/
  | wait
  /-- By the invocation of a callback. -/
  | callback
  deriving DecidableEq, Repr

/-- A cell in use by its publisher and its consumer. -/
structure Exchange (W V : Type) where
  /-- The cell. -/
  cell : Cell W (Outcome V) := {}
  /-- Whether the publisher has the cell; publishing takes it away. -/
  owing : Bool := true
  /-- What the publisher is about to do. -/
  publishing : Publishing W V := .idle
  /-- Whether a callback has panicked on the publisher. -/
  unwinding : Bool := false
  /-- Where the consumer is. -/
  attendance : Attendance := .free
  /-- The time of day in nanoseconds. -/
  clock : Nat := 0
  /-- What was published. -/
  published : List (Outcome V) := []
  /-- What was handed out, in order. -/
  handed : List (Receiver × Outcome V) := []
  /-- What the consumer was told when it asked whether the outcome is there, in order. -/
  answers : List Bool := []
  /-- How often a bounded wait has returned without an outcome. -/
  refusals : Nat := 0
  /-- The waker of the last poll, if that found nothing and no callback was given since. -/
  waiting : Option W := none
  /-- The wakers that were woken since the last poll that found nothing. -/
  woken : List W := []

namespace Exchange

variable {W V : Type}

/-- Whether the publisher holds the lock of the cell between two of its steps. -/
def isLocked (x : Exchange W V) : Bool :=
  match x.publishing with
  | .locked _ => true
  | _ => false

/-- Give the cell up, if it is still there, with an outcome. -/
def surrender (o : Outcome V) (x : Exchange W V) : Exchange W V :=
  match x.publishing with
  | .idle =>
    if x.owing then
      let (cell, notice) := x.cell.publish o
      { x with cell, owing := false, publishing := .locked notice, published := x.published ++ [o] }
    else x
  | _ => x

/-- Release the lock after having filled the cell. -/
def unlock (x : Exchange W V) : Exchange W V :=
  match x.publishing with
  | .locked (.call callback o) => { x with publishing := .calling callback o }
  | .locked (.notify waker) => { x with publishing := .notifying waker }
  | _ => x

/-- Invoke the callback that was found; either way the publisher is through. -/
def call (panics : Bool) (x : Exchange W V) : Exchange W V :=
  match x.publishing with
  | .calling _ o =>
    { x with publishing := .idle, unwinding := panics, handed := x.handed ++ [(.callback, o)] }
  | _ => x

/-- Rouse a parked consumer before its deadline. -/
def rouse (x : Exchange W V) : Exchange W V :=
  match x.attendance with
  | .parked deadline => { x with attendance := .roused deadline false }
  | _ => x

/-- Notify a parked consumer. -/
def notify (x : Exchange W V) : Exchange W V :=
  match x.publishing with
  | .notifying waker => { x with publishing := .waking waker }.rouse
  | _ => x

/-- Wake the waker that was found. -/
def wake (x : Exchange W V) : Exchange W V :=
  match x.publishing with
  | .waking waker => { x with publishing := .idle, woken := x.woken ++ waker.toList }
  | _ => x

/-- Do something that needs the lock and the consumer's attention, if both can be had. -/
def whenFree (f : Exchange W V → Exchange W V) (x : Exchange W V) : Exchange W V :=
  match x.attendance with
  | .free => if x.isLocked then x else f x
  | _ => x

/-- Ask whether the outcome is there. -/
def ask (x : Exchange W V) : Exchange W V :=
  { x with answers := x.answers ++ [x.cell.isDone] }

/-- Poll once. -/
def poll [Wakes W] (w : W) (x : Exchange W V) : Exchange W V :=
  match x.cell.poll spent w with
  | (cell, some o) => { x with cell, handed := x.handed ++ [(.poll, o)], waiting := none }
  | (cell, none) => { x with cell, waiting := some w, woken := [] }

/-- Look for the outcome in a wait; `missed` says what to do without it. -/
def look (missed : Exchange W V → Exchange W V) (x : Exchange W V) : Exchange W V :=
  match x.cell.take? spent with
  | (cell, some o) =>
    { x with cell, attendance := .free, handed := x.handed ++ [(.wait, o)] }
  | (_, none) => missed x

/-- Park until a deadline. -/
def park (deadline : Option Nat) (x : Exchange W V) : Exchange W V :=
  { x with attendance := .parked deadline }

/-- Return from a bounded wait without an outcome. -/
def refuse (x : Exchange W V) : Exchange W V :=
  { x with attendance := .free, refusals := x.refusals + 1 }

/-- Look again after having been roused, once the lock can be had. -/
def lookAgain (x : Exchange W V) : Exchange W V :=
  match x.attendance with
  | .roused deadline late =>
    if x.isLocked then x else x.look (if late then refuse else park deadline)
  | _ => x

/-- Rouse a parked consumer because its deadline has come. -/
def lapse (x : Exchange W V) : Exchange W V :=
  match x.attendance with
  | .parked (some t) =>
    if t ≤ x.clock then { x with attendance := .roused (some t) true } else x
  | _ => x

/-- Give the cell up for a callback, which is invoked at once if the outcome is there. -/
def onComplete (callback : Callback) (x : Exchange W V) : Exchange W V :=
  match x.cell.onComplete spent callback with
  | (cell, some o) =>
    { x with
      cell
      attendance := .left
      handed := x.handed ++ [(.callback, o)]
      waiting := none }
  | (cell, none) => { x with cell, attendance := .left, waiting := none }

/-- A step of a publisher, of a consumer, or of time. -/
inductive Step (W V : Type)
  /-- The publisher completes with an outcome. -/
  | complete (o : Outcome V)
  /-- The publisher is dropped. -/
  | drop
  /-- The publisher releases the lock. -/
  | unlock
  /-- The publisher invokes a callback. -/
  | call (panics : Bool)
  /-- The publisher notifies. -/
  | notify
  /-- The publisher wakes a waker. -/
  | wake
  /-- The consumer asks whether the outcome is there. -/
  | ask
  /-- The consumer polls. -/
  | poll (w : W)
  /-- The consumer begins to wait for as long as it takes. -/
  | wait
  /-- The consumer begins to wait for a limited time. -/
  | waitFor (limit : Duration)
  /-- The consumer gives a callback. -/
  | onComplete (callback : Callback)
  /-- The consumer is roused for no reason. -/
  | rouse
  /-- The consumer is roused by its deadline. -/
  | lapse
  /-- The consumer, having been roused, looks again. -/
  | lookAgain
  /-- Time passes. -/
  | pass (time : Nat)

/-- The outcome with which a step would give the cell up. -/
def Step.outcome? : Step W V → Option (Outcome V)
  | .complete o => some o
  | .drop => some (.error .cancelled)
  | _ => none

/-- The exchange after a step; a step that is not possible changes nothing. -/
def step [Wakes W] (x : Exchange W V) : Step W V → Exchange W V
  | .complete o => x.surrender o
  | .drop => x.surrender (.error .cancelled)
  | .unlock => x.unlock
  | .call panics => x.call panics
  | .notify => x.notify
  | .wake => x.wake
  | .ask => x.whenFree ask
  | .poll w => x.whenFree (poll w)
  | .wait => x.whenFree (look (park none))
  | .waitFor limit => x.whenFree (look (park (limit.deadline? x.clock)))
  | .onComplete callback => x.whenFree (onComplete callback)
  | .rouse => x.rouse
  | .lapse => x.lapse
  | .lookAgain => x.lookAgain
  | .pass t => { x with clock := x.clock + t }

/-- The exchange after a sequence of steps. -/
def run [Wakes W] (x : Exchange W V) (steps : List (Step W V)) : Exchange W V :=
  steps.foldl step x

end Exchange

end Deferral
