import Deferral.System.Settle

/-!
# Reports

What callers see of scopes and handles: their states, their terms, and what happened during an
operation.

During an operation that drops a computation nothing else is reported of that computation. What
happened is listed by subject in the order of the subjects' names.
-/

namespace Deferral

/-- What a caller sees of a scope. -/
structure ScopeState where
  /-- The name. -/
  name : String
  /-- Whether it was shut down. -/
  closed : Bool
  /-- Whether it has a pool of its own. -/
  owns : Bool
  /-- The number of worker threads of the pool that it starts computations on. -/
  workers : Nat
  deriving DecidableEq, Repr

/-- The truth value as a word. -/
def wordOf : Bool → String
  | true => "true"
  | false => "false"

/-- The term of a scope. -/
def ScopeState.term (s : ScopeState) : String :=
  "ReserveScope \x7b name: " ++ Text.quoted s.name ++ ", closed: " ++ wordOf s.closed ++
    ", owns_runtime: " ++ wordOf s.owns ++ " \x7d"

/-- What a caller sees of a handle. The identity of a reservation counts from one. -/
inductive Status
  /-- A reservation. -/
  | reservation (id : Nat) (name : Option String) (scope : String)
  /-- A future, and whether its outcome is there. -/
  | future (id : Nat) (done : Bool)
  /-- A mono. -/
  | mono (id : Nat) (stage : Stage)
  /-- A maybe, and whether it was started. -/
  | maybe (id : Nat) (started : Bool)
  /-- A stream, and whether it was started. -/
  | stream (id : Nat) (started : Bool)
  /-- A subscription. -/
  | subscription
  deriving DecidableEq, Repr

/-- The number of items that a mono has still to yield. -/
def Stage.remaining : Stage → Nat
  | .done => 0
  | _ => 1

/-- Whether the computation was started. -/
def Stage.isStarted : Stage → Bool
  | .idle => false
  | _ => true

/-- The word for how far a mono has come. -/
def Stage.word : Stage → String
  | .idle => "idle"
  | .running => "running"
  | .done => "done"

/-- The term of an identity. -/
def identity (id : Nat) : String :=
  "ReserveId(" ++ toString id ++ ")"

/-- The term of a handle. -/
def Status.term : Status → String
  | .reservation id name scope =>
    let name := match name with
      | some n => "Some(" ++ Text.quoted n ++ ")"
      | none => "None"
    "Reserve \x7b id: " ++ identity id ++ ", name: " ++ name ++ ", scope: " ++ Text.quoted scope ++
      ", .. \x7d"
  | .future id done =>
    "ReserveFuture \x7b id: " ++ identity id ++ ", done: " ++ wordOf done ++ " \x7d"
  | .mono id stage =>
    "Mono \x7b id: " ++ identity id ++ ", state: " ++ Text.quoted stage.word ++ " \x7d"
  | .maybe id started =>
    "Maybe \x7b id: " ++ identity id ++ ", started: " ++ wordOf started ++ " \x7d"
  | .stream id started =>
    "SingleStream \x7b id: " ++ identity id ++ ", started: " ++ wordOf started ++ " \x7d"
  | .subscription => "-"

/-- The term of an access that blocks, by its bound. -/
def blockTerm (limit : Option Duration) : String :=
  let limit := match limit with
    | some d => "Some(" ++ d.text ++ ")"
    | none => "None"
  "BlockTransformer \x7b timeout: " ++ limit ++ " \x7d"

/-- Something that happened during an operation. -/
inductive Report (V : Type)
  /-- An event of a computation. -/
  | event (e : Event V)
  /-- A waker was woken. -/
  | woken
  /-- A callback was invoked. -/
  | called (o : Outcome V)
  deriving Repr

/-- Whether an event is the end of a computation that was dropped. -/
def Event.isDropped {V : Type} : Event V → Bool
  | .dropped => true
  | _ => false

namespace System

variable {V : Type}

/-- The state of a scope. -/
def scopeState? (s : ScopeId) (w : System V) : Option ScopeState := do
  let scope ← w.scopes[s]?
  let pool ← w.pools[scope.pool]?
  some { name := scope.name, closed := scope.closed, owns := scope.owns, workers := pool.workers }

/-- The status of a handle. -/
def status? (r : ReservationId) (w : System V) : Option Status := do
  let x ← w.reservations[r]?
  let id := r + 1
  match x.consumer.handle with
  | .reservation =>
    let scope ← w.scopes[x.scope]?
    some (.reservation id x.name scope.name)
  | .future => some (.future id x.consumer.cell.isDone)
  | .mono stage => some (.mono id stage)
  | .maybe stage => some (.maybe id stage.isStarted)
  | .stream stage => some (.stream id stage.isStarted)
  | .subscription _ => some .subscription
  | .waiting _ | .gone => none

end System

/-- How much of a reservation's history there is. -/
structure Extent where
  /-- The number of events. -/
  events : Nat := 0
  /-- The number of invocations of a callback. -/
  calls : Nat := 0
  /-- The number of wakes. -/
  wakes : Nat := 0

/-- How much of a reservation's history there is by now. -/
def Reservation.extent {V : Type} (x : Reservation V) : Extent where
  events := x.events.length
  calls := x.consumer.calls.length
  wakes := x.consumer.wakes.length

/-- What is reported of a computation for new events: if it was dropped, only that. -/
def reportable {V : Type} (events : List (Event V)) : List (Event V) :=
  if events.any Event.isDropped then [.dropped] else events

/-- What happened to a reservation since its history had the given extent. The wakes of a `quiet`
handle are left out. -/
def Reservation.reportsSince {V : Type} (x : Reservation V) (since : Extent) (quiet : Bool) :
    List (String × Report V) :=
  let events := (reportable (x.events.drop since.events)).map fun e => (x.label, .event e)
  let calls := (x.consumer.calls.drop since.calls).map fun o => ("callback:" ++ x.label, .called o)
  let wakes := (x.consumer.wakes.drop since.wakes).filterMap fun
    | .named name => some ("waker:" ++ x.label ++ ":" ++ name, .woken)
    | _ => none
  events ++ calls ++ if quiet then [] else wakes

/-- What happened in a system since its reservations' histories had the given extents, by
subject. -/
def System.reportsSince {V : Type} (w : System V) (since : List Extent)
    (quiet : List ReservationId) : List (String × Report V) :=
  let reports := w.reservations.zipIdx.flatMap fun (x, r) =>
    x.reportsSince (since[r]?.getD {}) (r ∈ quiet)
  reports.mergeSort fun a b => a.1 ≤ b.1

end Deferral
