import Deferral.System.Handle

/-!
# Actions

Everything that can happen to a system in one indivisible step, on whatever thread: what callers
do with scopes and handles, the steps of launches and tasks, and what comes from outside. A run
is a sequence of actions in any order; an action that is not possible changes nothing.
-/

namespace Deferral

/-- One indivisible step of a system. -/
inductive Action (V : Type)
  /-- A caller builds a scope. -/
  | build (settings : Settings)
  /-- A caller makes a scope on a pool that stays with its owner. -/
  | borrow (name : String) (pool : PoolId)
  /-- A caller makes a further reference to a scope. -/
  | share (scope : ScopeId)
  /-- A caller drops a reference to a scope. -/
  | unshare (scope : ScopeId)
  /-- A call of shutdown begins. -/
  | beginShutdown (scope : ScopeId) (closing : Closing)
  /-- A call of shutdown ends. -/
  | finishShutdown (scope : ScopeId)
  /-- A caller reserves a computation. -/
  | reserve (scope : ScopeId) (name : Option String) (label : String)
      (computation : Computation ScopeId V)
  /-- A caller turns a reservation into a handle that starts on demand. -/
  | reshape (r : ReservationId) (shape : Shape)
  /-- A caller begins an operation that needs the computation to be running. -/
  | use (r : ReservationId) (u : Use)
  /-- A caller polls. -/
  | poll (r : ReservationId) (waker : Waker)
  /-- A caller that blocks looks for the outcome. -/
  | fetch (r : ReservationId)
  /-- The time of a caller that blocks is up. -/
  | expire (r : ReservationId)
  /-- A caller gives a future a callback. -/
  | complete (r : ReservationId)
  /-- A caller aborts a computation through its handle. -/
  | cancel (r : ReservationId)
  /-- A caller drops a handle. -/
  | drop (r : ReservationId)
  /-- A caller runs a reserved computation directly on the pool. -/
  | runDirectly (r : ReservationId)
  /-- A launch looks whether the scope is closed. -/
  | testClosed (r : ReservationId)
  /-- A launch hands the computation to the pool. -/
  | spawn (r : ReservationId)
  /-- A launch drops its reference to the scope. -/
  | letGo (r : ReservationId)
  /-- The callback that waited for the launch is registered. -/
  | attach (r : ReservationId)
  /-- A task is taken up. -/
  | resume (r : ReservationId)
  /-- A task takes a step. -/
  | step (r : ReservationId)
  /-- A doomed task is dropped. -/
  | dropTask (r : ReservationId)
  /-- A gate is opened. -/
  | openGate (name : String)
  /-- Time passes. -/
  | pass (time : Nat)
  /-- A pool that belongs to no scope is made. -/
  | addPool (pool : Pool)
  /-- The owner of a pool that belongs to no scope shuts it down. -/
  | stopPool (pool : PoolId) (stop : Stop)

namespace System

variable {V : Type}

/-- Whether a pool is, or was, the property of a scope. -/
def isScopes (p : PoolId) (w : System V) : Bool :=
  (w.pools[p]?).any fun pool => pool.forScope

/-- Open a gate for good. -/
def openGate (g : String) (w : System V) : System V :=
  if g ∈ w.gates then w else { w with gates := g :: w.gates }

/-- The system after an action. -/
def act (w : System V) : Action V → System V
  | .build settings =>
    match w.build settings with
    | .built _ w' => w'
    | _ => w
  | .borrow name p => if p < w.pools.length then (w.borrow name p).2 else w
  | .share s => w.share s
  | .unshare s => w.unshare s
  | .beginShutdown s closing => if s ∈ w.held then w.beginShutdown s closing else w
  | .finishShutdown s => w.finishShutdown s
  | .reserve s name label computation => w.reserveFor s name label computation
  | .reshape r shape => w.reshape r shape
  | .use r u => w.use r u
  | .poll r waker => w.poll r waker
  | .fetch r => w.fetch r
  | .expire r => w.expire r
  | .complete r => w.complete r
  | .cancel r => w.cancel r
  | .drop r => w.drop r
  | .runDirectly r => w.runDirectly r
  | .testClosed r => w.testClosed r
  | .spawn r => w.spawn r
  | .letGo r => w.letGo r
  | .attach r => w.attach r
  | .resume r => w.resume r
  | .step r => w.step r
  | .dropTask r => w.dropTask r
  | .openGate g => w.openGate g
  | .pass t => { w with clock := w.clock + t }
  | .addPool pool => { w with pools := w.pools ++ [{ pool with forScope := false, stops := [] }] }
  | .stopPool p stop => if w.isScopes p then w else w.stopPool p stop

/-- The system after a sequence of actions. -/
def run (w : System V) (actions : List (Action V)) : System V :=
  actions.foldl act w

/-- The systems that some sequence of actions leads to from an empty one. -/
inductive Reachable : System V → Prop
  | empty : Reachable {}
  | act {w : System V} (a : Action V) : Reachable w → Reachable (w.act a)

end System

end Deferral
