import Deferral.Cell
import Deferral.Channel
import Deferral.Computation

/-!
# Consumers

The consuming side of one reservation: the handle that the caller holds, the cell that the
outcome arrives in, and the channel that a one-item stream reads from. A reservation is turned
into one of four handles:

* a *future* runs at once and can be joined, awaited or given a callback;
* a *mono* starts when it is first asked, and yields one item;
* a *maybe* starts when it is first asked, and takes a cancelled computation for no value;
* a *stream* starts when it is first polled, and receives its only item through a channel.

Starting a computation and aborting it are not done here. An operation that needs the computation
started says so, and so does one by which the consumer gives the computation up.
-/

namespace Deferral

/-- How far a handle that starts its computation on demand has come. -/
inductive Stage
  /-- Nothing has been asked of it. -/
  | idle
  /-- Its computation was started, and it has not yielded the outcome. -/
  | running
  /-- It has yielded the outcome. -/
  | done
  deriving DecidableEq, Repr

/-- What a caller that blocks its thread is waiting for. -/
inductive Waiting
  /-- The outcome, for as long as it takes. -/
  | outcome
  /-- The outcome, or the future back after `limit`. -/
  | joining (limit : Duration)
  /-- The outcome, or a time-out after `limit` that aborts the computation. -/
  | blocking (limit : Duration)
  /-- The value, if any, for as long as it takes. -/
  | value
  deriving DecidableEq, Repr

/-- The bound of a wait, if it has one. -/
def Waiting.limit? : Waiting → Option Duration
  | .joining limit | .blocking limit => some limit
  | .outcome | .value => none

/-- What a caller holds of a reservation. -/
inductive Handle
  /-- The reservation itself. -/
  | reservation
  /-- A running computation. -/
  | future
  /-- A source of one item. -/
  | mono (stage : Stage)
  /-- A source of one value or none. -/
  | maybe (stage : Stage)
  /-- A stream of one item. -/
  | stream (stage : Stage)
  /-- A blocking operation is under way that has used the handle up. -/
  | waiting (purpose : Waiting)
  /-- What is left of a mono with a callback; `live` if it can abort a computation. -/
  | subscription (live : Bool)
  /-- Nothing. -/
  | gone
  deriving DecidableEq, Repr

/-- A handle that starts its computation on demand. -/
inductive Shape
  | mono
  | maybe
  | stream
  deriving DecidableEq, Repr

/-- A handle of the given shape of which nothing has been asked. -/
def Shape.idle : Shape → Handle
  | .mono => .mono .idle
  | .maybe => .maybe .idle
  | .stream => .stream .idle

/-- What a consumer hands to its caller. -/
inductive Delivery (V : Type)
  /-- An outcome. -/
  | outcome (o : Outcome V)
  /-- A value or none, or a failure. -/
  | optional (o : Except Failure (Option V))
  /-- An item, or the end. -/
  | item (o : Option (Outcome V))
  deriving Repr

/-- An outcome with cancellation taken for no value. -/
def optional {V : Type} : Outcome V → Except Failure (Option V)
  | .ok v => .ok (some v)
  | .error .cancelled => .ok none
  | .error e => .error e

/-- An operation that needs the computation to be running. -/
inductive Use
  /-- Turn the reservation into a future. -/
  | spawn
  /-- Block for the outcome, at most `limit` if given. -/
  | block (limit : Option Duration)
  /-- Block a future for the outcome, at most `limit` if given. -/
  | join (limit : Option Duration)
  /-- Block a maybe for its value. -/
  | get
  /-- Give a mono a callback. -/
  | subscribe
  /-- Poll. -/
  | poll
  deriving DecidableEq, Repr

/-- The consuming side of a reservation. -/
structure Consumer (V : Type) where
  /-- What the caller holds. -/
  handle : Handle := .reservation
  /-- Where the outcome arrives. -/
  cell : Cell Waker (Outcome V) := {}
  /-- Where the item of a stream arrives. -/
  channel : Channel (Outcome V) := {}
  /-- A callback that is to be registered as soon as the computation has been launched. -/
  attaching : Option Callback := none
  /-- What the caller's callback was invoked with. -/
  calls : List (Outcome V) := []
  /-- The wakers that were woken. -/
  wakes : List Waker := []
  /-- What became of the attempts to send an item. -/
  sendings : List Sending := []

namespace Consumer

variable {V : Type}

/-- Wake a waker. -/
def wake (w : Option Waker) (c : Consumer V) : Consumer V :=
  { c with wakes := c.wakes ++ w.toList }

/-- Invoke a callback with an outcome. -/
def invoke (callback : Callback) (o : Outcome V) (c : Consumer V) : Consumer V :=
  match callback with
  | .report => { c with calls := c.calls ++ [o] }
  | .forward =>
    -- The sender goes with the callback, and that is what wakes the receiver.
    let (channel, sending, w) := c.channel.sendLast o
    wake w { c with channel, sendings := c.sendings ++ [sending] }

/-- Publish the outcome, and tell whoever is to be told. -/
def publish (o : Outcome V) (c : Consumer V) : Consumer V :=
  match c.cell.publish o with
  | (cell, .call callback o) => invoke callback o { c with cell }
  | (cell, .notify w) => wake w { c with cell }

/-- Register a callback; it is invoked at once if the outcome is there. -/
def register (callback : Callback) (c : Consumer V) : Consumer V :=
  match c.cell.onComplete spent callback with
  | (cell, some o) => invoke callback o { c with cell }
  | (cell, none) => { c with cell }

/-- Register the callback that was waiting for the launch. -/
def attach (c : Consumer V) : Consumer V :=
  match c.attaching with
  | some callback => register callback { c with attaching := none }
  | none => c

/-- Turn the reservation into a handle that starts on demand. -/
def reshape (shape : Shape) (c : Consumer V) : Consumer V :=
  match c.handle with
  | .reservation => { c with handle := shape.idle }
  | _ => c

/-- What beginning an operation leads to. -/
structure Begun (V : Type) where
  /-- The consumer afterwards. -/
  consumer : Consumer V
  /-- Whether the computation is to be launched now. -/
  launch : Bool := false
  /-- What the operation delivers without any wait. -/
  answer : Option (Delivery V) := none

/-- What a blocking operation for the outcome waits for. -/
def blockingWait : Option Duration → Handle
  | none => .waiting .outcome
  | some limit => .waiting (.blocking limit)

/-- Begin an operation. What the handle does not offer leaves it unchanged. -/
def begin (use : Use) (c : Consumer V) : Begun V :=
  match use, c.handle with
  | .spawn, .reservation => { consumer := { c with handle := .future }, launch := true }
  | .block limit, .reservation =>
    { consumer := { c with handle := blockingWait limit }, launch := true }
  | .block limit, .mono .idle =>
    { consumer := { c with handle := blockingWait limit }, launch := true }
  | .block limit, .mono .running => { consumer := { c with handle := blockingWait limit } }
  | .block _, .mono .done =>
    { consumer := { c with handle := .gone }, answer := some (.outcome spent) }
  | .join none, .future => { consumer := { c with handle := .waiting .outcome } }
  | .join (some limit), .future =>
    { consumer := { c with handle := .waiting (.joining limit) } }
  | .get, .maybe .idle => { consumer := { c with handle := .waiting .value }, launch := true }
  | .get, .maybe .running => { consumer := { c with handle := .waiting .value } }
  | .get, .maybe .done =>
    { consumer := { c with handle := .gone }, answer := some (.optional (.ok none)) }
  | .subscribe, .mono .idle =>
    { consumer := { c with handle := .subscription true, attaching := some .report },
      launch := true }
  | .subscribe, .mono .running =>
    { consumer := { c with handle := .subscription true, attaching := some .report } }
  | .subscribe, .mono .done =>
    { consumer := invoke .report spent { c with handle := .subscription false } }
  | .poll, .mono .idle => { consumer := { c with handle := .mono .running }, launch := true }
  | .poll, .maybe .idle => { consumer := { c with handle := .maybe .running }, launch := true }
  | .poll, .stream .idle =>
    { consumer := { c with handle := .stream .running, attaching := some .forward },
      launch := true }
  | _, _ => { consumer := c }

/-- Poll a handle whose computation has been started. The result is `none` while the outcome is
pending; then the waker has been left behind. -/
def poll (w : Waker) (c : Consumer V) : Consumer V × Option (Delivery V) :=
  match c.handle with
  | .future =>
    let (cell, o) := c.cell.poll spent w
    ({ c with cell }, o.map .outcome)
  | .mono .running =>
    match c.cell.poll spent w with
    | (cell, some o) => ({ c with cell, handle := .mono .done }, some (.item (some o)))
    | (cell, none) => ({ c with cell }, none)
  | .mono .done => (c, some (.item none))
  | .maybe .running =>
    match c.cell.poll spent w with
    | (cell, some o) => ({ c with cell, handle := .maybe .done }, some (.optional (optional o)))
    | (cell, none) => ({ c with cell }, none)
  | .maybe .done => (c, some (.optional (.ok none)))
  | .stream .running =>
    let (channel, o) := c.channel.receive w
    ({ c with channel }, o.map .item)
  | _ => (c, none)

/-- What a wait delivers for an outcome. -/
def Waiting.deliver (purpose : Waiting) (o : Outcome V) : Delivery V :=
  match purpose with
  | .value => .optional (optional o)
  | _ => .outcome o

/-- Look, once, whether a blocking operation can be answered. -/
def fetch (c : Consumer V) : Consumer V × Option (Delivery V) :=
  match c.handle with
  | .waiting purpose =>
    match c.cell.take? spent with
    | (cell, some o) => ({ c with cell, handle := .gone }, some (Waiting.deliver purpose o))
    | (_, none) => (c, none)
  | _ => (c, none)

/-- What becomes of a blocking operation whose time is up. -/
inductive Expiry (V : Type)
  /-- The outcome was there in the end. -/
  | delivered (d : Delivery V)
  /-- The future is handed back. -/
  | handedBack
  /-- The operation fails, and the computation is to be aborted. -/
  | givenUp (limit : Duration)
  /-- The wait has no bound. -/
  | unbounded

/-- End a bounded wait whose time is up, after one last look. -/
def expire (c : Consumer V) : Consumer V × Expiry V :=
  match c.fetch with
  | (c', some d) => (c', .delivered d)
  | (_, none) =>
    match c.handle with
    | .waiting (.joining _) => ({ c with handle := .future }, .handedBack)
    | .waiting (.blocking limit) => ({ c with handle := .gone }, .givenUp limit)
    | _ => (c, .unbounded)

/-- Whether a poll or a blocking operation would be answered now. -/
def isReady (c : Consumer V) : Bool :=
  match c.handle with
  | .stream .running => c.channel.isReady
  | .mono .done | .maybe .done => true
  | .future | .mono .running | .maybe .running | .waiting _ => c.cell.isDone
  | _ => false

/-- Give a future a callback in place of the handle. -/
def complete (c : Consumer V) : Consumer V :=
  match c.handle with
  | .future => register .report { c with handle := .gone }
  | _ => c

/-- Whether the holder of this handle can abort the computation on request. -/
def canCancel (h : Handle) : Bool :=
  match h with
  | .future | .subscription true => true
  | _ => false

/-- Whether dropping this handle gives the computation up. -/
def givesUp (h : Handle) : Bool :=
  match h with
  | .mono .running | .maybe .running | .stream .running => true
  | _ => false

/-- Drop the handle, and with a stream its end of the channel. -/
def drop (c : Consumer V) : Consumer V :=
  match c.handle with
  | .stream _ => { c with handle := .gone, channel := c.channel.hangUp }
  | _ => { c with handle := .gone }

end Consumer

/-- The consumer of a nested reservation, right after it was turned into the handle that the
access needs; the computation is to be launched. -/
def Access.consumer {V : Type} : Access → Consumer V
  | .spawn => (Consumer.begin .spawn {}).consumer
  | .mono => (Consumer.begin .poll (Consumer.reshape .mono {})).consumer
  | .maybe => (Consumer.begin .poll (Consumer.reshape .maybe {})).consumer
  | .stream | .next => (Consumer.begin .poll (Consumer.reshape .stream {})).consumer
  | .block => (Consumer.begin (.block none) {}).consumer
  | .join => (Consumer.begin (.join none) (Consumer.begin .spawn {}).consumer).consumer
  | .monoBlock => (Consumer.begin (.block none) (Consumer.reshape .mono {})).consumer
  | .get => (Consumer.begin .get (Consumer.reshape .maybe {})).consumer

end Deferral
