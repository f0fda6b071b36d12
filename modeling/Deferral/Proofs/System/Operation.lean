import Deferral.Proofs.System.Nesting

/-!
# What a caller's operation makes of a reservation

An operation on a handle that is not offered does nothing. On one that is offered it changes this
reservation only, and `Reservation.operate` says how. Two operations reach further: dropping the
handle of a reservation that was not launched drops its references, and running a computation
directly hands it to the pool.

Main statements:
* `act_of_not_offered`: an operation that is not offered does nothing.
* `act_eq_update`: an operation that is offered changes one reservation.
* `Handles.handled`: what becomes of a reservation when something is done with its handle.
-/

namespace Deferral

variable {V : Type}

/-- Whether a blocking operation whose time is up gives the computation up. -/
def Consumer.Expiry.isGivenUp : Consumer.Expiry V → Bool
  | .givenUp _ => true
  | _ => false

/-- What an operation of its caller makes of a reservation whose handle is offered. -/
def Reservation.operate (a : Action V) (x : Reservation V) : Reservation V :=
  match a with
  | .reshape _ shape => { x with consumer := x.consumer.reshape shape }
  | .use _ u =>
    let begun := x.consumer.begin u
    if begun.launch ∧ x.phase = .captured then
      { x with consumer := begun.consumer, phase := .launching, launches := x.launches + 1 }
    else { x with consumer := begun.consumer }
  | .poll _ waker => { x with consumer := (x.consumer.poll waker).1 }
  | .fetch _ => { x with consumer := x.consumer.fetch.1 }
  | .expire _ =>
    { x with
      consumer := x.consumer.expire.1
      aborted := x.aborted || x.consumer.expire.2.isGivenUp && x.spawned }
  | .complete _ => { x with consumer := x.consumer.complete }
  | .cancel _ =>
    { x with aborted := x.aborted || Consumer.canCancel x.consumer.handle && x.spawned }
  | .drop _ => x.dropHandle
  | _ => x

namespace System

variable {w : System V} {a : Action V} {r : ReservationId} {x : Reservation V}

/-- Two changes of one reservation, one after the other. -/
theorem update_update (w : System V) (r : ReservationId) (f g : Reservation V → Reservation V) :
    (w.update r f).update r g = w.update r fun x => g (f x) := by
  unfold update
  rw [List.modify_modify_eq]
  rfl

/-- Two changes of a known reservation agree if they agree on it. -/
theorem update_congr {f g : Reservation V → Reservation V} (hx : w.reservations[r]? = some x)
    (h : f x = g x) : w.update r f = w.update r g := by
  unfold update
  rw [modify_congr hx h]

/-- A change that leaves a known reservation as it is. -/
theorem update_eq_self {f : Reservation V → Reservation V} (hx : w.reservations[r]? = some x)
    (h : f x = x) : w.update r f = w := by
  rw [update_congr (g := id) hx h, update, List.modify_id]

/-- A handle that is offered is operated on. -/
theorem onOffered_of_offered {f : Reservation V → System V} (hx : w.reservations[r]? = some x)
    (hoffered : isOffered x = true) : w.onOffered r f = f x := by
  simp only [onOffered, hx, if_pos hoffered]

/-- A handle that is not offered is left alone. -/
theorem onOffered_of_not_offered {f : Reservation V → System V}
    (h : ∀ x, w.reservations[r]? = some x → isOffered x = false) : w.onOffered r f = w := by
  unfold onOffered
  split
  next x hx => rw [h x hx, if_neg Bool.false_ne_true]
  next => rfl

/-- An operation on a handle that is not offered does nothing. -/
theorem act_of_not_offered (ha : a.handle? = some r)
    (h : ∀ x, w.reservations[r]? = some x → isOffered x = false) : w.act a = w := by
  cases a <;> simp only [Action.handle?, Option.some.injEq, reduceCtorEq] at ha <;> subst ha <;>
    exact onOffered_of_not_offered h

/-- Requesting an abort changes nothing but that it was requested. -/
theorem abort_eq_update (w : System V) (r : ReservationId) :
    w.abort r = w.update r fun x => { x with aborted := x.aborted || x.spawned } := by
  unfold abort
  congr 1
  funext x
  by_cases hspawned : x.spawned = true
  · simp [hspawned]
  · rw [if_neg hspawned, Bool.eq_false_iff.mpr hspawned, Bool.or_false]
    cases x
    simp_all

/-- An operation on a handle that is offered changes one reservation. -/
theorem act_eq_update (ha : a.handle? = some r) (hdrop : a ≠ .drop r) (hdirect : a ≠ .runDirectly r)
    (hx : w.reservations[r]? = some x) (hoffered : isOffered x = true) :
    w.act a = w.update r (Reservation.operate a) := by
  -- Where the system updates the reservation twice in a row, the two updates come to one.
  cases a with
  | reshape q shape =>
    obtain rfl := Option.some.inj ha
    exact onOffered_of_offered hx hoffered
  | use q u =>
    obtain rfl := Option.some.inj ha
    refine (onOffered_of_offered hx hoffered).trans ?_
    dsimp only
    split
    next hlaunch =>
      rw [startLaunch, updateConsumer, update_update]
      refine update_congr hx ?_
      simp only [Reservation.operate, hlaunch, true_and]
    next hlaunch =>
      refine update_congr hx ?_
      simp [Reservation.operate, hlaunch]
  | poll q waker =>
    obtain rfl := Option.some.inj ha
    refine (onOffered_of_offered hx hoffered).trans (update_congr hx rfl)
  | fetch q =>
    obtain rfl := Option.some.inj ha
    refine (onOffered_of_offered hx hoffered).trans (update_congr hx rfl)
  | expire q =>
    obtain rfl := Option.some.inj ha
    refine (onOffered_of_offered hx hoffered).trans ?_
    dsimp only
    split
    next hexpiry =>
      rw [abort_eq_update, updateConsumer, update_update]
      refine update_congr hx ?_
      simp [Reservation.operate, hexpiry, Consumer.Expiry.isGivenUp]
    next hexpiry =>
      refine update_congr hx ?_
      cases hkind : x.consumer.expire.2 with
      | givenUp limit => exact absurd hkind (hexpiry limit)
      | delivered | handedBack | unbounded =>
        simp [Reservation.operate, hkind, Consumer.Expiry.isGivenUp]
  | complete q =>
    obtain rfl := Option.some.inj ha
    exact onOffered_of_offered hx hoffered
  | cancel q =>
    obtain rfl := Option.some.inj ha
    refine (onOffered_of_offered hx hoffered).trans ?_
    split
    next hcancel =>
      rw [abort_eq_update]
      refine update_congr hx ?_
      simp [Reservation.operate, hcancel]
    next hcancel =>
      rw [update_eq_self hx]
      simp [Reservation.operate, hcancel]
  | drop q =>
    obtain rfl := Option.some.inj ha
    exact absurd rfl hdrop
  | runDirectly q =>
    obtain rfl := Option.some.inj ha
    exact absurd rfl hdirect
  | _ => cases ha

/-- An operation on a handle that is offered changes one reservation. -/
theorem reservations_act_of_offered (ha : a.handle? = some r) (hdirect : a ≠ .runDirectly r)
    (hx : w.reservations[r]? = some x) (hoffered : isOffered x = true) :
    (w.act a).reservations = w.reservations.modify r (Reservation.operate a) := by
  by_cases hdrop : a = .drop r
  · subst hdrop
    rw [act, drop, onOffered_of_offered hx hoffered, reservations_dropHandle]
    rfl
  · rw [act_eq_update ha hdrop hdirect hx hoffered, reservations_update]

/-- What an operation makes of a reservation whose handle is offered. -/
theorem getElem?_act_of_offered (ha : a.handle? = some r) (hdirect : a ≠ .runDirectly r)
    (hx : w.reservations[r]? = some x) (hoffered : isOffered x = true) :
    (w.act a).reservations[r]? = some (x.operate a) := by
  rw [reservations_act_of_offered ha hdirect hx hoffered, List.getElem?_modify_eq, hx]
  rfl

/-- Only a computation that is still in its reservation is run directly. -/
theorem runDirectly_eq_self (hx : w.reservations[r]? = some x)
    (hhandle : x.consumer.handle ≠ .reservation) : w.runDirectly r = w := by
  unfold runDirectly onOffered
  rw [hx]
  dsimp only
  split
  · split
    · exact absurd ‹_› hhandle
    · rfl
  · rfl

/-- A computation that is run directly is handed to the pool, if the pool takes it, and its caller
waits for it. -/
theorem getElem?_runDirectly (hx : w.reservations[r]? = some x) (hoffered : isOffered x = true)
    (hphase : x.phase = .captured) (hhandle : x.consumer.handle = .reservation) :
    (w.runDirectly r).reservations[r]? =
      let y := { x with
        consumer := { x.consumer with handle := .waiting .outcome }, spawned := true }
      some (if w.poolAlive x.scope then { y with phase := .queued }
        else y.conclude .dropped .dropped (.error .cancelled)) := by
  rw [runDirectly, onOffered_of_offered hx hoffered]
  simp only [hhandle, spawnDirectly]
  rw [updateConsumer, update_update]
  refine (getElem?_spawn (x := { x with
    consumer := { x.consumer with handle := .waiting .outcome }, phase := .cleared }) ?_ rfl).trans
    ?_
  · rw [reservations_update, List.getElem?_modify_eq, hx]
    simp [hphase]
  · rfl

/-! ## What is done with a handle -/

variable {p c : ReservationId} {x' : Reservation V}

/-- In every run, whoever waits for a reservation has the handle that it needs, with the reservation
launched once. -/
theorem exists_tends {actions : List (Action V)} (hx : (run {} actions).reservations[p]? = some x)
    (hawaits : x.phase.awaited? = some c) :
    ∃ access z, (run {} actions).Tends p x c access z ∧ p < c ∧ z.launches ≠ 0 := by
  obtain ⟨access, z, htends⟩ := tended_run actions p x c hx hawaits
  refine ⟨access, z, htends, parent_lt_run htends.getElem?_eq htends.parent_eq, ?_⟩
  rw [(started_run htends.getElem?_eq).launches_eq (by rw [htends.parent_eq]; nofun)]
  exact Nat.one_ne_zero

/-- The computation that looks for the result of a reservation has it, or leaves the
handle alone. -/
theorem getElem?_step_of_engaged {actions : List (Action V)} {y : Reservation V}
    (hx : (run {} actions).reservations[r]? = some x)
    (hy : (run {} actions).reservations[p]? = some y) (hphase : y.phase = .active (.engaged r))
    (hcan : (run {} actions).canStep y = true) :
    ∃ access, (∃ s inner rest, y.rest = .await access s inner rest) ∧
      ((run {} actions).act (.step p)).reservations[r]? = some (x.lookedAt (waker p access)) := by
  obtain ⟨access, z, htends, hlt, -⟩ := exists_tends hy (by rw [hphase]; rfl)
  obtain rfl := Option.some.inj (hx.symm.trans htends.getElem?_eq)
  obtain ⟨rest, hrest⟩ := htends.rest_eq
  refine ⟨access, ⟨_, _, rest, hrest⟩, ?_⟩
  rw [act, step_of_engaged hy hphase hrest hcan, getElem?_engage hx (Nat.ne_of_lt hlt)]

/-- The computation that is dropped while it waits for a reservation drops the handle. -/
theorem getElem?_dropTask_of_paused {actions : List (Action V)} {y : Reservation V}
    (hx : (run {} actions).reservations[r]? = some x)
    (hy : (run {} actions).reservations[p]? = some y) (hphase : y.phase = .paused (.inner r))
    (hdoomed : (run {} actions).isDoomed y = true) :
    ((run {} actions).act (.dropTask p)).reservations[r]? = some x.dropHandle := by
  obtain ⟨access, z, -, hlt, -⟩ := exists_tends hy (by rw [hphase]; rfl)
  exact getElem?_dropTask_inner hy hphase hdoomed hx (Nat.ne_of_lt hlt)

/-- What the action `a` makes of the reservation `r`, which is `x`, by doing something with its
handle. -/
inductive Handled (w : System V) (r : ReservationId) (x : Reservation V) :
    Action V → Reservation V → Prop
  /-- Its caller operates on it. -/
  | operate {a : Action V} (ha : a.handle? = some r) (hdirect : a ≠ .runDirectly r)
      (hoffered : isOffered x = true) : Handled w r x a (x.operate a)
  /-- Its caller runs the computation directly. -/
  | runDirectly {x' : Reservation V} (hoffered : isOffered x = true)
      (hx' : (w.runDirectly r).reservations[r]? = some x') : Handled w r x (.runDirectly r) x'
  /-- The computation that awaits the outcome looks for it. -/
  | look {p : ReservationId} {y : Reservation V} (access : Access)
      (hy : w.reservations[p]? = some y) (hphase : y.phase = .active (.engaged r))
      (hrest : ∃ s inner rest, y.rest = .await access s inner rest) (hcan : w.canStep y = true) :
      Handled w r x (.step p) (x.lookedAt (waker p access))
  /-- The computation that awaits the outcome has no thread, or the launch has not returned. -/
  | stay {p : ReservationId} {y : Reservation V} (hy : w.reservations[p]? = some y)
      (hphase : y.phase = .active (.engaged r)) (hcan : w.canStep y = false) :
      Handled w r x (.step p) x
  /-- The computation that awaits the outcome is dropped. -/
  | dropTask {p : ReservationId} {y : Reservation V} (hy : w.reservations[p]? = some y)
      (hphase : y.phase = .paused (.inner r)) (hdoomed : w.isDoomed y = true) :
      Handled w r x (.dropTask p) x.dropHandle

/-- Whoever does something with a handle does one of these things. -/
theorem Handles.handled {actions : List (Action V)} (h : (run {} actions).Handles r a)
    (hx : (run {} actions).reservations[r]? = some x)
    (hx' : ((run {} actions).act a).reservations[r]? = some x') :
    (run {} actions).Handled r x a x' := by
  cases h with
  | caller ha hy hoffered =>
    obtain rfl := Option.some.inj (hx.symm.trans hy)
    by_cases hdirect : a = .runDirectly r
    · subst hdirect
      exact .runDirectly hoffered hx'
    · have hoperate := getElem?_act_of_offered ha hdirect hx hoffered
      obtain rfl := Option.some.inj (hx'.symm.trans hoperate)
      exact .operate ha hdirect hoffered
  | @step p y hy hphase =>
    by_cases hcan : (run {} actions).canStep y = true
    · obtain ⟨access, hrest, hlook⟩ := getElem?_step_of_engaged hx hy hphase hcan
      obtain rfl := Option.some.inj (hx'.symm.trans hlook)
      exact .look access hy hphase hrest hcan
    · -- A task that cannot take its step leaves everything as it is.
      have hstays : (run {} actions).act (.step p) = run {} actions := by
        simp [act, System.step, hy, hcan]
      rw [hstays] at hx'
      obtain rfl := Option.some.inj (hx.symm.trans hx')
      exact .stay hy hphase (Bool.eq_false_iff.mpr hcan)
  | dropTask hy hphase hdoomed =>
    have hdrop := getElem?_dropTask_of_paused hx hy hphase hdoomed
    obtain rfl := Option.some.inj (hx'.symm.trans hdrop)
    exact .dropTask hy hphase hdoomed

end System

end Deferral
