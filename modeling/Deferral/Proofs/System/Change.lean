import Deferral.Proofs.Consumer
import Deferral.Proofs.System.Frame
import Mathlib.Logic.Relation

/-!
# What an action does to a reservation

`Change w r a x x'` lists all that can happen to a reservation `r` while the system `w` takes the
action `a`, with what must be the case for it to happen. An action leads from a reservation to what
it is afterwards by a sequence of such changes (`exists_changes_act`), and the reservations that it
adds are described by `New` (`new_or_changes_of_act`). What holds of every reservation of a run is
proved from these two, once for every change and once for every way of being new.
-/

namespace Deferral

variable {V : Type}

/-! ## Computations -/

namespace Computation

variable {S : Type}

/-- What comes after the first step. -/
def tail : Computation S V → Computation S V
  | finish e => finish e
  | gate _ rest | mark _ rest | yield rest | sleep _ rest | thread rest | shutdown _ rest
  | dropScope _ rest | await _ _ _ rest => rest

/-- Whether there is a step to take. -/
def hasStep : Computation S V → Bool
  | finish _ => false
  | _ => true

/-- What comes after the first `n` steps. -/
def after : Nat → Computation S V → Computation S V
  | 0, c => c
  | n + 1, c => (c.after n).tail

/-- What comes after a step mentions no other scopes. -/
theorem mentions_tail_subset (c : Computation S V) : c.tail.mentions ⊆ c.mentions := by
  cases c with
  | finish | gate | mark | yield | sleep | thread => exact List.Subset.refl _
  | shutdown s rest => exact List.subset_cons_self ..
  | dropScope s rest => exact List.subset_cons_self ..
  | await access s inner rest =>
    exact List.subset_cons_of_subset _ (List.subset_append_right ..)

end Computation

/-- The event by which a computation reports how it has ended. -/
def Ending.event : Ending V → Event V
  | .value _ => .done
  | .panic _ => .panic

/-- What the first step of a computation reports when it is over, on a thread of the given name. A
step that waits for a nested reservation reports the result `d`. -/
def Computation.reported {S : Type} (thread : String) (d : Delivery V) :
    Computation S V → List (Event V)
  | finish e => [e.event]
  | gate g _ => [.passed g]
  | mark v _ => [.mark v]
  | .thread _ => [.thread thread]
  | await .. => [.inner d]
  | yield _ | sleep .. | shutdown .. | dropScope .. => []

/-- The handle that an action of a caller is about. -/
def Action.handle? : Action V → Option ReservationId
  | .reshape r _ | .use r _ | .poll r _ | .fetch r | .expire r | .complete r | .cancel r | .drop r
  | .runDirectly r => some r
  | _ => none

/-- What a computation waits for by itself belongs to its next step. -/
def Pause.Fits {S : Type} : Pause → Computation S V → Prop
  | .gate g, c => ∃ rest, c = .gate g rest
  | .turn, c => ∃ rest, c = .yield rest
  | .until _, c => ∃ d rest, c = .sleep d rest
  | .inner _, _ => True

/-- If the computation waits for a gate, its next step is to pass that gate. -/
def Reservation.WaitsAtStep (x : Reservation V) : Prop :=
  ∀ g, x.phase = .paused (.gate g) → ∃ rest, x.rest = .gate g rest

namespace System

/-- The name of the threads that carry out what is started on a scope. -/
def threadName? (s : ScopeId) (w : System V) : Option String :=
  ((w.scopes[s]?).bind fun scope => w.pools[scope.pool]?).map Pool.threadName

/-- The actions by which something is done with the handle of a reservation. -/
inductive Handles (w : System V) (r : ReservationId) : Action V → Prop
  /-- Its caller does it. -/
  | caller {a : Action V} {x : Reservation V} (ha : a.handle? = some r)
      (hx : w.reservations[r]? = some x) (hoffered : isOffered x = true) : Handles w r a
  /-- The computation that awaits the outcome looks for it. -/
  | step {p : ReservationId} {y : Reservation V} (hy : w.reservations[p]? = some y)
      (hphase : y.phase = .active (.engaged r)) : Handles w r (.step p)
  /-- The computation that awaits the outcome is dropped. -/
  | dropTask {p : ReservationId} {y : Reservation V} (hy : w.reservations[p]? = some y)
      (hphase : y.phase = .paused (.inner r)) (hdoomed : w.isDoomed y = true) :
      Handles w r (.dropTask p)

/-- By the action `a` the computation of `r`, which is `x`, makes the reservation `c`. -/
structure Makes (w : System V) (r : ReservationId) (a : Action V) (x : Reservation V)
    (c : ReservationId) : Prop where
  /-- The action is a step of the computation. -/
  action_eq : a = .step r
  /-- Nothing has happened to the computation before in this action. -/
  getElem?_eq : w.reservations[r]? = some x
  /-- The computation is about to take its next step. -/
  phase_eq : x.phase = .active .step
  /-- The step is to wait for a nested reservation. -/
  rest_eq : ∃ access s inner rest, x.rest = .await access s inner rest
  /-- The reservation gets the next number. -/
  eq_length : c = w.reservations.length

/-- The computation `x` has looked for the result of the reservation `c`, and suspends without. -/
structure Suspends (w : System V) (x : Reservation V) (c : ReservationId) : Prop where
  /-- It has turned to the reservation. -/
  phase_eq : x.phase = .active (.engaged c)
  /-- Its way of waiting is one that suspends. -/
  rest_eq : ∃ access s inner rest, x.rest = .await access s inner rest ∧ access.blocks = false
  /-- The reservation was launched. -/
  isLaunched : ∃ y, w.reservations[c]? = some y ∧ y.phase.isLaunched = true

/-- The action `a` carries the computation of `r`, which is `x`, on. -/
structure Carries (w : System V) (r : ReservationId) (a : Action V) (x : Reservation V) : Prop where
  /-- It takes the computation up, or is a step of it. -/
  action_eq : a = .resume r ∨ a = .step r
  /-- If the computation was waiting for something, this has come. -/
  isDue : ∀ pause, x.phase = .paused pause → w.isDue pause = true

/-- What occupies a thread waits for nothing. -/
theorem Carries.of_isActive {w : System V} {r : ReservationId} {x : Reservation V}
    (h : x.phase.isActive = true) : w.Carries r (.step r) x := by
  refine ⟨.inr rfl, fun pause hphase => ?_⟩
  rw [hphase] at h
  cases h

/-- The actions that ask for an abort of a computation, all of them by means of its handle. -/
inductive AsksAbort (w : System V) (r : ReservationId) : Action V → Prop
  /-- The caller cancels. -/
  | cancel {x : Reservation V} (hx : w.reservations[r]? = some x) (hoffered : isOffered x = true)
      (hcancel : Consumer.canCancel x.consumer.handle = true) : AsksAbort w r (.cancel r)
  /-- A blocking operation gives up. -/
  | expire {x : Reservation V} {limit : Duration} (hx : w.reservations[r]? = some x)
      (hoffered : isOffered x = true) (hexpiry : x.consumer.expire.2 = .givenUp limit) :
      AsksAbort w r (.expire r)
  /-- The caller drops the handle. -/
  | drop {x : Reservation V} (hx : w.reservations[r]? = some x) (hoffered : isOffered x = true)
      (hgives : Consumer.givesUp x.consumer.handle = true) : AsksAbort w r (.drop r)
  /-- The computation that awaits the outcome is dropped, and the handle with it. -/
  | dropTask {p : ReservationId} {x y : Reservation V} (hx : w.reservations[r]? = some x)
      (hy : w.reservations[p]? = some y) (hphase : y.phase = .paused (.inner r))
      (hdoomed : w.isDoomed y = true) (hgives : Consumer.givesUp x.consumer.handle = true) :
      AsksAbort w r (.dropTask p)
  /-- The computation that awaits the outcome has received it, and drops the handle. -/
  | step {p : ReservationId} {x y : Reservation V} (hx : w.reservations[r]? = some x)
      (hy : w.reservations[p]? = some y) (hphase : y.phase = .active (.engaged r))
      (hready : x.consumer.isReady = true)
      (hgives : Consumer.givesUp x.consumer.handle = true) : AsksAbort w r (.step p)

/-- Something that happens to the reservation `r` while the system `w` takes the action `a`. -/
inductive Change (w : System V) (r : ReservationId) (a : Action V) :
    Reservation V → Reservation V → Prop
  /-- Something is done with its handle. -/
  | handle {x : Reservation V} {c : Consumer V} (hc : x.consumer.Handling c)
      (hby : w.Handles r a) : Change w r a x { x with consumer := c }
  /-- The callback that waited for its launch is registered. -/
  | attach {x : Reservation V} (ha : a = .attach r) :
      Change w r a x { x with consumer := x.consumer.attach }
  /-- Its launch begins. -/
  | launch {x : Reservation V} (hphase : x.phase = .captured) (ha : ∃ u, a = .use r u) :
      Change w r a x { x with phase := .launching, launches := x.launches + 1 }
  /-- Its launch finds the scope closed. -/
  | refuse {x : Reservation V} (ha : a = .testClosed r) (hx : w.reservations[r]? = some x)
      (hphase : x.phase = .launching) (hclosed : w.isClosed x.scope = true) :
      Change w r a x (x.conclude .dropped .dropped (.error .scopeClosed))
  /-- Its launch finds the scope open. -/
  | clear {x : Reservation V} (hphase : x.phase = .launching) (hopen : w.isClosed x.scope = false)
      (ha : a = .testClosed r) :
      Change w r a x { x with phase := .cleared }
  /-- It is to be run directly on the pool. -/
  | clearDirectly {x : Reservation V} (hphase : x.phase = .captured) (ha : a = .runDirectly r) :
      Change w r a x { x with phase := .cleared }
  /-- It is handed to its pool. -/
  | queue {x : Reservation V} (hphase : x.phase = .cleared)
      (halive : w.poolAlive x.scope = true) (ha : a = .spawn r ∨ a = .runDirectly r) :
      Change w r a x { x with phase := .queued, spawned := true }
  /-- It is handed to a pool that was shut down. -/
  | lose {x : Reservation V} (hphase : x.phase = .cleared)
      (hdead : w.poolAlive x.scope = false) (ha : a = .spawn r ∨ a = .runDirectly r) :
      Change w r a x
        ({ x with spawned := true }.conclude .dropped .dropped (.error .cancelled))
  /-- Its launch drops the reference to the scope. -/
  | letGo {x : Reservation V} (hlaunched : x.phase.isLaunched = true) (ha : a = .letGo r) :
      Change w r a x { x with holdsScope := false }
  /-- An abort is requested. -/
  | abort {x : Reservation V} (hasks : w.AsksAbort r a) (hspawned : x.spawned = true) :
      Change w r a x { x with aborted := true }
  /-- It is dropped without having been launched, and the reference to its scope with it. -/
  | discard {x : Reservation V} (hphase : x.phase = .captured) (hby : w.Handles r a) :
      Change w r a x
        { x with phase := .dropped, events := x.events ++ [.dropped], holdsScope := false }
  /-- Its task is started. -/
  | start {x : Reservation V} (hphase : x.phase = .queued) (hdoomed : w.isDoomed x = false)
      (ha : a = .resume r) :
      Change w r a x { x with phase := .active .step, events := x.events ++ [.start] }
  /-- Its task goes on to the next step. -/
  | advance {x : Reservation V} (events : List (Event V))
      (hphase : x.phase.isActive = true ∨ x.phase.isPaused = true ∧ w.isDoomed x = false)
      (hrest : x.rest.hasStep = true)
      (hevents : ∀ name, w.threadName? x.scope = some name → x.WaitsAtStep →
        ∃ d, events = x.rest.reported name d)
      (hdue : w.Carries r a x) :
      Change w r a x
        { x with
          rest := x.rest.tail
          position := x.position + 1
          phase := .active .step
          events := x.events ++ events }
  /-- Its task suspends. -/
  | pause {x : Reservation V} (pause : Pause) (hphase : x.phase.isActive = true)
      (hfits : pause.Fits x.rest)
      (hinner : ∀ c, pause = .inner c → w.Suspends x c) (ha : a = .step r) :
      Change w r a x { x with phase := .paused pause }
  /-- Its task turns to something else within a step. -/
  | engage {x : Reservation V} (activity : Activity)
      (hphase : x.phase.isActive = true ∨ x.phase.isPaused = true ∧ w.isDoomed x = false)
      (hinner : ∀ c, activity = .engaged c → x.phase = .paused (.inner c) ∨ w.Makes r a x c)
      (hdue : w.Carries r a x)
      (hclosing : activity = .closing → ∃ s rest, x.rest = .shutdown s rest) :
      Change w r a x { x with phase := .active activity }
  /-- Its computation is carried to its end. -/
  | finish {x : Reservation V} {e : Ending V} (hphase : x.phase.isActive = true)
      (hrest : x.rest = .finish e) (ha : a = .step r) :
      Change w r a x (x.conclude .ended e.event e.outcome)
  /-- Its task is dropped. -/
  | drop {x : Reservation V} (ha : a = .dropTask r) (hphase : x.phase.isSuspended = true)
      (hdoomed : w.isDoomed x = true) :
      Change w r a x (x.conclude .dropped .dropped (.error .cancelled))

/-- A sequence of things that happen to the reservation `r` during one action. -/
abbrev Changes (w : System V) (r : ReservationId) (a : Action V) :
    Reservation V → Reservation V → Prop :=
  Relation.ReflTransGen (w.Change r a)

/-- What every change preserves, a sequence of changes preserves. -/
theorem Changes.preserve {w : System V} {r : ReservationId} {a : Action V} {x x' : Reservation V}
    {P : Reservation V → Prop} (hP : ∀ y y', w.Change r a y y' → P y → P y')
    (h : w.Changes r a x x') (hx : P x) : P x' := by
  induction h with
  | refl => exact hx
  | tail _ hchange ih => exact hP _ _ hchange ih

/-- A reservation that the action `a` adds to the system `w`. -/
inductive New (w : System V) : Action V → Reservation V → Prop
  /-- A caller makes it. -/
  | reserve {s : ScopeId} {name : Option String} {label : String}
      {computation : Computation ScopeId V}
      (hheld : ∀ t ∈ s :: computation.mentions, t ∈ w.held) :
      New w (.reserve s name label computation)
        { label, name, parent := none, scope := s, computation, rest := computation }
  /-- A computation makes it, and begins its launch. -/
  | await {p : ReservationId} {y : Reservation V} {access : Access} {s : ScopeId}
      {inner rest : Computation ScopeId V} (hy : w.reservations[p]? = some y)
      (hphase : y.phase = .active .step) (hrest : y.rest = .await access s inner rest) :
      New w (.step p)
        { label := innerLabel y, name := none, parent := some p, scope := s, computation := inner,
          rest := inner, consumer := access.consumer, phase := .launching, launches := 1 }

end System

end Deferral
