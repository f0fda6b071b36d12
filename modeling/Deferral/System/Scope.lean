import Deferral.System.Basic

/-!
# Scopes

Building, borrowing, sharing, dropping and shutting down scopes.

A shutdown has two steps. The first closes the scope; only the call that finds it open goes on,
and it keeps a reference to the scope meanwhile. The second takes the pool out and shuts it down.
-/

namespace Deferral.System

variable {V : Type}

/-- What becomes of an attempt to build a scope. -/
inductive Building (V : Type)
  /-- The settings are refused. -/
  | refused (f : Failure)
  /-- The settings are accepted, but their threads cannot be made, and the caller panics. -/
  | collapsed
  /-- The scope is there, and the caller holds the reference to it. -/
  | built (s : ScopeId) (w : System V)

/-- Build a scope with a pool of its own. -/
def build (c : Settings) (w : System V) : Building V :=
  match c.validate with
  | .error e => .refused (.config e)
  | .ok () =>
    match Pool.create? c.threadName c.workers c.stackSize with
    | none => .collapsed
    | some pool =>
      let scope : Scope :=
        { name := c.threadName, pool := w.pools.length, owns := true, grace := c.grace }
      .built w.scopes.length
        { w with
          pools := w.pools ++ [pool]
          scopes := w.scopes ++ [scope]
          held := w.scopes.length :: w.held }

/-- Make a scope on a pool that belongs to someone else. The caller holds the reference. -/
def borrow (name : String) (p : PoolId) (w : System V) : ScopeId × System V :=
  let scope : Scope := { name, pool := p, owns := false, grace := .zero }
  (w.scopes.length,
    { w with scopes := w.scopes ++ [scope], held := w.scopes.length :: w.held })

/-- A caller that holds a reference makes a further one. -/
def share (s : ScopeId) (w : System V) : System V :=
  if s ∈ w.held then { w.retain s with held := s :: w.held } else w

/-- A caller drops a reference. -/
def unshare (s : ScopeId) (w : System V) : System V :=
  if s ∈ w.held then { w with held := w.held.erase s }.release s else w

/-- Begin a shutdown: close the scope. A scope that was closed already is left alone. -/
def beginShutdown (s : ScopeId) (closing : Closing) (w : System V) : System V :=
  match w.scopes[s]? with
  | some scope =>
    -- Looking and closing are one step, so of several calls only one goes on.
    if scope.closed then w
    else (w.updateScope s fun x => { x with closed := true, closing := some closing }).retain s
  | none => w

/-- Finish the shutdown that is under way: take the pool out and shut it down. -/
def finishShutdown (s : ScopeId) (w : System V) : System V :=
  match (w.scopes[s]?).bind Scope.closing with
  | some closing =>
    ((w.takePool s closing.stop).updateScope s fun x => { x with closing := none }).release s
  | none => w

/-- Shut a scope down, from a thread that is `inside` a pool or not. Without a limit the grace of
the scope's settings applies. -/
def shutdown (s : ScopeId) (limit : Option Duration) (inside : Bool) (w : System V) : System V :=
  match w.scopes[s]? with
  | some scope =>
    if scope.closed then w
    else (w.beginShutdown s { limit := limit.getD scope.grace, inside }).finishShutdown s
  | none => w

end Deferral.System
