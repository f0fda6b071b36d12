import Deferral.Global
import Deferral.Session.Operation

/-!
# Sessions

A session is a system whose scopes and handles have names, a pool that scopes can borrow, and a
process-wide scope. Its operations are carried out one after the other, and after each of them all
comes to rest. Every operation is composed of actions of the system.
-/

namespace Deferral

/-- A system with names for what callers hold. -/
structure Session (V : Type) where
  /-- The system. -/
  system : System V
  /-- The pool that scopes can borrow. -/
  pool : PoolId
  /-- The process-wide scope, once it was made. -/
  place : Option ScopeId := none
  /-- The files. -/
  files : Files := fun _ => .absent
  /-- The environment. -/
  environment : Environment := fun _ => none
  /-- The scopes by name. -/
  scopes : List (String × ScopeId) := []
  /-- The handles by name. -/
  handles : List (String × ReservationId) := []
  /-- The handles whose wakes are not reported any more. -/
  quiet : List ReservationId := []

namespace Session

variable {V : Type}

/-- A session whose own pool has one thread of the given name. -/
def start (threadName : String) (files : Files) (environment : Environment) : Session V where
  system := System.act {} (.addPool { threadName, workers := 1 })
  pool := 0
  files
  environment

/-- The scope of a name. -/
def scope? (name : String) (s : Session V) : Option ScopeId :=
  s.scopes.lookup name

/-- The reservation of a handle's name. -/
def handle? (name : String) (s : Session V) : Option ReservationId :=
  s.handles.lookup name

/-- Let an action happen. -/
def act (s : Session V) (a : Action V) : Session V :=
  { s with system := s.system.act a }

/-- Finish a launch that was begun. -/
def finishLaunch (s : Session V) (r : ReservationId) : Session V :=
  (((s.act (.testClosed r)).act (.spawn r)).act (.letGo r)).act (.attach r)

/-- Begin an operation on a handle and finish the launch that it needs. -/
def use (s : Session V) (r : ReservationId) (u : Use) : Session V :=
  (s.act (.use r u)).finishLaunch r

/-- Name a scope; what had the name before is dropped. -/
def bindScope (s : Session V) (name : String) (id : ScopeId) : Session V :=
  let old := s.scope? name
  let s := { s with scopes := (name, id) :: s.scopes.filter (·.1 ≠ name) }
  match old with
  | some o => s.act (.unshare o)
  | none => s

/-- Name a handle; what had the name before is dropped. -/
def bindHandle (s : Session V) (name : String) (r : ReservationId) : Session V :=
  let old := s.handle? name
  let s := { s with handles := (name, r) :: s.handles.filter (·.1 ≠ name) }
  match old with
  | some o => s.act (.drop o)
  | none => s

/-- Forget the name of a handle that was used up. -/
def forget (s : Session V) (name : String) : Session V :=
  { s with handles := s.handles.filter (·.1 ≠ name) }

/-- Report no more wakes of a handle. -/
def hush (s : Session V) (r : ReservationId) : Session V :=
  { s with quiet := r :: s.quiet }

/-- Shut a scope down from a thread inside or outside of a pool. -/
def shutdown (w : System V) (scope : ScopeId) (limit : Option Duration) (inside : Bool) :
    System V :=
  match w.scopes[scope]? with
  | some x =>
    if x.closed then w
    else
      (w.act (.beginShutdown scope { limit := limit.getD x.grace, inside })).act
        (.finishShutdown scope)
  | none => w

/-- What another thread does to the system while an operation blocks. -/
def during (s : Session V) (m : Meanwhile) (w : System V) : System V :=
  let w := m.gates.foldl (fun w g => w.act (.openGate g)) w
  m.shutdowns.foldl (fun w (name, limit) =>
    match s.scope? name with
    | some scope => shutdown w scope limit false
    | none => w) w

/-- Reply with the state of a scope. -/
def replyScope (s : Session V) (scope : ScopeId) : Option (Session V × Reply V) := do
  some (s, .scope (← s.system.scopeState? scope))

/-- Reply with the status of a handle. -/
def replyStatus (s : Session V) (r : ReservationId) : Option (Session V × Reply V) := do
  some (s, .status (← s.system.status? r))

/-- Carry a blocking operation on a handle through. -/
def waitOut (s : Session V) (name : String) (r : ReservationId) (m : Meanwhile) :
    Option (Session V × Reply V) :=
  match s.system.waitOut r (s.during m) with
  | (w, .delivered d) => some ({ s with system := w }.forget name, .delivery d)
  | (w, .handedBack) => some ({ s with system := w }, .pending)
  | (_, .stuck) => none

/-- Begin a blocking operation on a handle, and carry it through unless it is answered at once. -/
def blockOn (s : Session V) (name : String) (u : Use) (m : Meanwhile) :
    Option (Session V × Reply V) := do
  let r ← s.handle? name
  match s.system.useAnswer r u with
  | some d => some ((s.use r u).forget name, .delivery d)
  | none => (s.use r u).waitOut name r m

/-- Poll a handle until it answers. -/
def pollOut (s : Session V) (r : ReservationId) (m : Meanwhile) :
    Option (Session V × Delivery V) :=
  let s := (s.use r .poll).hush r
  match s.system.pollOut r (s.during m) with
  | (w, some d) => some ({ s with system := w }, d)
  | (_, none) => none

/-- Whether a handle is used up by the delivery of its outcome. -/
def isOneShot (d : Delivery V) : Bool :=
  match d with
  | .item _ => false
  | _ => true

/-- Take items until the end, at most `n`. -/
def collectWithin (r : ReservationId) (m : Meanwhile) :
    Nat → Session V → Option (Session V × List (Outcome V))
  | 0, s => some (s, [])
  | n + 1, s => do
    match ← s.pollOut r m with
    | (s, .item (some o)) =>
      let (s, os) ← collectWithin r {} n s
      some (s, o :: os)
    | (s, _) => some (s, [])

/-- What became of a computation that was run directly. -/
def directly : Delivery V → Direct V
  | .outcome (.ok v) => .value v
  | .outcome (.error (.panicked _)) => .panicked
  | _ => .cancelled

/-- Consume a reservation by a function of the caller. -/
def custom (s : Session V) (name : String) (run : Bool) : Option (Session V × Reply V) := do
  let r ← s.handle? name
  let x ← s.system.reservations[r]?
  let scope ← s.system.scopes[x.scope]?
  let reply := Reply.custom (r + 1) x.name scope.name
  if run then
    let w := ((s.act (.runDirectly r)).system.quiesce none).act (.letGo r)
    match w.waitOut r id with
    | (w, .delivered d) => some ({ s with system := w }.forget name, reply (some (directly d)))
    | _ => none
  else some ((s.act (.drop r)).forget name, reply none)

/-- Get a reference to the process-wide scope. -/
def acquire (s : Session V) : Option (Session V × Except Failure ScopeId) :=
  match Global.acquire s.files s.environment { system := s.system, place := s.place } with
  | (g, some o) => some ({ s with system := g.system, place := g.place }, o)
  | (_, none) => none

/-- Carry out an operation, up to the point where it is answered. -/
def perform (s : Session V) (q : Request V) : Option (Session V × Reply V) :=
  match q.operation with
  | .build name settings =>
    match s.system.build settings with
    | .refused f => some (s, .failure f)
    | .collapsed => none
    | .built id _ => ((s.act (.build settings)).bindScope name id).replyScope id
  | .borrow name title =>
    let id := s.system.scopes.length
    ((s.act (.borrow title s.pool)).bindScope name id).replyScope id
  | .share scope name => do
    let id ← s.scope? scope
    ((s.act (.share id)).bindScope name id).replyScope id
  | .unshare scope => do
    let id ← s.scope? scope
    some ({ s with scopes := s.scopes.filter (·.1 ≠ scope) }.act (.unshare id), .nothing)
  | .scopeState scope => do s.replyScope (← s.scope? scope)
  | .scopeTerm scope => do
    let state ← s.system.scopeState? (← s.scope? scope)
    some (s, .term state.term)
  | .shutdown scope limit => do
    let id ← s.scope? scope
    { s with system := shutdown s.system id limit q.inside }.replyScope id
  | .stopPool => some (s.act (.stopPool s.pool .background), .nothing)
  | .openGate g => some (s.act (.openGate g), .nothing)
  | .reserve scope handle name computation => do
    let id ← s.scope? scope
    let computation ← computation.resolve fun n => s.scope? n
    let r := s.system.reservations.length
    ((s.act (.reserve id name handle computation)).bindHandle handle r).replyStatus r
  | .global name => do
    match ← s.acquire with
    | (s, .ok id) => (s.bindScope name id).replyScope id
    | (s, .error f) => some (s, .failure f)
  | .reserveGlobally handle computation => do
    let computation ← computation.resolve fun n => s.scope? n
    match ← s.acquire with
    | (s, .ok id) =>
      let r := s.system.reservations.length
      let s := (s.act (.reserve id none handle computation)).act (.unshare id)
      (s.bindHandle handle r).replyStatus r
    | (s, .error f) => some (s, .failure f)
  | .spawn handle => do
    let r ← s.handle? handle
    some (s.use r .spawn, .started (r + 1))
  | .reshape handle shape => do
    let r ← s.handle? handle
    (s.act (.reshape r shape)).replyStatus r
  | .custom handle run => s.custom handle run
  | .block handle limit => s.blockOn handle (.block limit) q.meanwhile
  | .join handle limit => s.blockOn handle (.join limit) q.meanwhile
  | .get handle => s.blockOn handle .get q.meanwhile
  | .cancel handle | .dispose handle => do
    let r ← s.handle? handle
    some (s.act (.cancel r), .nothing)
  | .complete handle => do
    let r ← s.handle? handle
    some ((s.act (.complete r)).forget handle, .nothing)
  | .subscribe handle => do
    let r ← s.handle? handle
    some (s.use r .subscribe, .nothing)
  | .next handle => do
    let r ← s.handle? handle
    let (s, d) ← s.pollOut r q.meanwhile
    some (s, .delivery d)
  | .await handle => do
    let r ← s.handle? handle
    let (s, d) ← s.pollOut r q.meanwhile
    some (if isOneShot d then (s.act (.drop r)).forget handle else s, .delivery d)
  | .collect handle => do
    let r ← s.handle? handle
    let (s, os) ← s.collectWithin r q.meanwhile 2
    some ((s.act (.drop r)).forget handle, .items os)
  | .poll handle waker => do
    let r ← s.handle? handle
    let s := s.use r .poll
    match s.system.pollAnswer r (.named waker) with
    | some d => some (s.act (.poll r (.named waker)), .ready d)
    | none => some (s.act (.poll r (.named waker)), .pending)
  | .drop handle => do
    let r ← s.handle? handle
    let isStream := match ← s.system.status? r with
      | .stream .. => true
      | _ => false
    let s := if isStream then s.hush r else s
    some ((s.act (.drop r)).forget handle, .nothing)
  | .status handle => do s.replyStatus (← s.handle? handle)
  | .term handle => do
    let status ← s.system.status? (← s.handle? handle)
    some (s, .term status.term)

/-- Carry out an operation and let all come to rest. The result is the answer and what happened,
or `none` if the operation makes no sense or would never be answered. -/
def handle (s : Session V) (q : Request V) :
    Option (Session V × Reply V × List (String × Report V)) := do
  let before := s.system.reservations.map Reservation.extent
  let (s, reply) ← s.perform q
  let w := s.system.quiesce none
  some ({ s with system := w }, reply, w.reportsSince before s.quiet)

end Session

end Deferral
