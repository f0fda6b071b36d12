import Deferral.System.Launch

/-!
# Tasks

A computation that was handed to a pool is a task. It is carried out in turns: a turn starts when
a thread takes the task up, runs through any number of steps, and ends when the task suspends or
its computation is over. A task whose abort was requested, or whose pool was shut down, is not
taken up again but dropped; until it suspends it goes on.
-/

namespace Deferral.System

variable {V : Type}

/-- Whether a task is to be dropped as soon as it is suspended. -/
def isDoomed (x : Reservation V) (w : System V) : Bool :=
  x.aborted || !w.poolAlive x.scope

/-- Whether what a suspended task waits for has come. -/
def isDue (pause : Pause) (w : System V) : Bool :=
  match pause with
  | .gate g => g ∈ w.gates
  | .turn => true
  | .until t => t ≤ w.clock
  | .inner child => (w.reservations[child]?).any fun x => x.consumer.isReady

/-- Go on to what comes after the current step, and drop what the step referred to. -/
def advance (r : ReservationId) (step : List ScopeId) (rest : Computation ScopeId V)
    (events : List (Event V)) (w : System V) : System V :=
  (w.update r fun x =>
    { x with
      rest
      position := x.position + 1
      phase := .active .step
      events := x.events ++ events }).releaseAll step

/-- Change the phase of a reservation. -/
def setPhase (r : ReservationId) (phase : Phase) (w : System V) : System V :=
  w.update r fun x => { x with phase }

/-- Take a task up: start it, or go on after what it was waiting for. -/
def resume (r : ReservationId) (w : System V) : System V :=
  match w.reservations[r]? with
  | none => w
  | some x =>
    -- The pool looks for an abort before it takes a task up.
    if w.isDoomed x then w
    else
      match x.phase with
      | .queued =>
        w.update r fun x => { x with phase := .active .step, events := x.events ++ [.start] }
      | .paused pause =>
        if w.isDue pause then
          match pause, x.rest with
          | .gate g, .gate _ rest => w.advance r [] rest [.passed g]
          | .turn, .yield rest => w.advance r [] rest []
          | .until _, .sleep _ rest => w.advance r [] rest []
          | .inner child, _ => w.setPhase r (.active (.engaged child))
          | _, _ => w
        else w
      | _ => w

/-- Drop a suspended task that is doomed, with what it owns: the handle of a nested reservation that
it awaits, its references and its end of the cell. -/
def dropTask (r : ReservationId) (w : System V) : System V :=
  match w.reservations[r]? with
  | none => w
  | some x =>
    if w.isDoomed x then
      match x.phase with
      | .queued => w.concludeWith r .dropped .dropped (.error .cancelled)
      | .paused (.inner child) =>
        (w.dropHandle child).concludeWith r .dropped .dropped (.error .cancelled)
      | .paused _ => w.concludeWith r .dropped .dropped (.error .cancelled)
      | _ => w
    else w

/-- The label of a reservation made by the current step of another one. -/
def innerLabel (x : Reservation V) : String :=
  x.label ++ "." ++ toString x.position

/-- Carry out the next step of a task that has a thread. -/
def takeStep (r : ReservationId) (x : Reservation V) (w : System V) : System V :=
  match x.rest with
  | .finish (.value v) => w.concludeWith r .ended .done (.ok v)
  | .finish (.panic p) => w.concludeWith r .ended .panic (.error (.panicked p.message))
  | .gate g rest =>
    if g ∈ w.gates then w.advance r [] rest [.passed g] else w.setPhase r (.paused (.gate g))
  | .mark v rest => w.advance r [] rest [.mark v]
  | .yield _ => w.setPhase r (.paused .turn)
  | .sleep d _ => w.setPhase r (.paused (.until (w.clock + d.nanoseconds)))
  | .thread rest =>
    match (w.scopes[x.scope]?).bind fun s => w.pools[s.pool]? with
    | some pool => w.advance r [] rest [.thread pool.threadName]
    | none => w.advance r [] rest []
  | .shutdown s rest =>
    if w.isClosed s then w.advance r [s] rest []
    else
      let limit := ((w.scopes[s]?).map Scope.grace).getD .zero
      (w.beginShutdown s { limit, inside := true }).setPhase r (.active .closing)
  | .dropScope s rest => w.advance r [s] rest []
  | .await access s inner _ =>
    let (child, w') := w.reserve s none (innerLabel x) (some r) inner access.consumer
    (w'.startLaunch child).setPhase r (.active (.engaged child))

/-- Whether a task may go on now: it waits for a nested reservation to be launched, and if it
blocks its thread, also for the result. -/
def canStep (x : Reservation V) (w : System V) : Bool :=
  match x.phase, x.rest with
  | .active (.engaged child), .await access _ _ _ =>
    (w.reservations[child]?).any fun c =>
      c.isSettled && (!access.blocks || c.consumer.isReady)
  | .active _, _ => true
  | _, _ => false

/-- Look for the result of a nested reservation. The handle is dropped once the result is there;
without it, the task suspends or goes on blocking its thread. -/
def engage (r child : ReservationId) (access : Access) (s : ScopeId)
    (inner rest : Computation ScopeId V) (w : System V) : System V :=
  match w.reservations[child]? with
  | none => w
  | some c =>
    -- A thread that blocks looks once; a task leaves its own waker behind and suspends.
    let waker : Waker := if access.blocks then .thread else .task r
    let looked := match c.consumer.handle with
      | .waiting _ => c.consumer.fetch
      | _ => c.consumer.poll waker
    let w := w.updateConsumer child fun _ => looked.1
    match looked.2 with
    -- With the result the step is over: its handle and all that it referred to are dropped.
    | some d => (w.dropHandle child).advance r (s :: inner.mentions) rest [.inner d]
    | none => if access.blocks then w else w.setPhase r (.paused (.inner child))

/-- Carry a task that has a thread one step further. -/
def step (r : ReservationId) (w : System V) : System V :=
  match w.reservations[r]? with
  | none => w
  | some x =>
    if w.canStep x then
      match x.phase, x.rest with
      | .active .step, _ => w.takeStep r x
      | .active .closing, .shutdown s rest => (w.finishShutdown s).advance r [s] rest []
      | .active (.engaged child), .await access s inner rest =>
        w.engage r child access s inner rest
      | _, _ => w
    else w

end Deferral.System
