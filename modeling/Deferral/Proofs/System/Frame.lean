import Deferral.System.Action
import Mathlib.Data.List.Basic

/-!
# What the operations of a system do to its reservations

Operations on scopes and pools leave the reservations alone, and an operation on a reservation
changes that reservation only. So an action changes the list of reservations by `List.modify`,
apart from the two that add a reservation to it.
-/

namespace Deferral

variable {V : Type}

/-! ## Phases -/

namespace Phase

/-- Whether a computation in this phase is a task that no thread is carrying out. -/
def isSuspended : Phase → Bool
  | .queued | .paused _ => true
  | _ => false

/-- Whether a computation in this phase was started and has suspended. -/
def isPaused : Phase → Bool
  | .paused _ => true
  | _ => false

/-- Whether a computation in this phase occupies a thread. -/
def isActive : Phase → Bool
  | .active _ => true
  | _ => false

/-- A task that is suspended waits for its first turn or for something else. -/
theorem eq_of_isSuspended {phase : Phase} (h : phase.isSuspended = true) :
    phase = .queued ∨ ∃ pause, phase = .paused pause := by
  cases phase with
  | queued => exact .inl rfl
  | paused pause => exact .inr ⟨pause, rfl⟩
  | _ => cases h

/-- A computation that was started and has suspended is a suspended task. -/
theorem isSuspended_of_isPaused {phase : Phase} (h : phase.isPaused = true) :
    phase.isSuspended = true := by
  cases phase <;> first | rfl | cases h

/-- A task that is suspended is not over. -/
theorem isOver_of_isSuspended {phase : Phase} (h : phase.isSuspended = true) :
    phase.isOver = false := by
  cases phase <;> first | rfl | cases h

/-- A task that is suspended occupies no thread. -/
theorem isActive_of_isSuspended {phase : Phase} (h : phase.isSuspended = true) :
    phase.isActive = false := by
  cases phase <;> first | rfl | cases h

/-- A task that occupies a thread is not over. -/
theorem isOver_of_isActive {phase : Phase} (h : phase.isActive = true) :
    phase.isOver = false := by
  cases phase <;> first | rfl | cases h

/-- A task that goes on is not over. -/
theorem isOver_of_isTask {phase : Phase} {P : Prop}
    (h : phase.isActive = true ∨ phase.isPaused = true ∧ P) : phase.isOver = false :=
  h.elim isOver_of_isActive fun h => isOver_of_isSuspended (isSuspended_of_isPaused h.1)

end Phase

/-! ## Reservations -/

/-- A reservation whose computation was let go of, and whose outcome was published. -/
def Reservation.conclude (phase : Phase) (event : Event V) (o : Outcome V) (x : Reservation V) :
    Reservation V :=
  { x with
    phase
    events := x.events ++ [event]
    consumer := x.consumer.publish o
    outcomes := x.outcomes ++ [o] }

/-- A reservation whose handle was dropped. -/
def Reservation.dropHandle (x : Reservation V) : Reservation V :=
  if Consumer.givesUp x.consumer.handle then
    { x with consumer := x.consumer.drop, aborted := x.aborted || x.spawned }
  else if x.phase = .captured then
    { x with
      consumer := x.consumer.drop
      phase := .dropped
      events := x.events ++ [.dropped]
      holdsScope := false }
  else { x with consumer := x.consumer.drop }

/-- Dropping the handle of a reservation that was launched touches neither its phase nor its
computation. -/
theorem Reservation.dropHandle_of_ne_captured {x : Reservation V} (h : x.phase ≠ .captured) :
    x.dropHandle.phase = x.phase ∧ x.dropHandle.rest = x.rest := by
  rw [Reservation.dropHandle, if_neg h]
  split <;> exact ⟨rfl, rfl⟩

/-- Whatever else is dropped with a handle, the consumer is left with none. -/
@[simp]
theorem Reservation.consumer_dropHandle (x : Reservation V) :
    x.dropHandle.consumer = x.consumer.drop := by
  unfold Reservation.dropHandle
  split
  · rfl
  · split <;> rfl

namespace System

/-! ## Changes of a list of reservations -/

section

variable {r : ReservationId}

/-- Two changes of a known entry agree if they agree on it. -/
theorem modify_congr {l : List (Reservation V)} {x : Reservation V}
    {f g : Reservation V → Reservation V} (hx : l[r]? = some x) (h : f x = g x) :
    l.modify r f = l.modify r g := by
  refine List.ext_getElem? fun q => ?_
  by_cases hq : r = q
  · subst hq
    rw [List.getElem?_modify_eq, List.getElem?_modify_eq, hx]
    exact congrArg some h
  · rw [List.getElem?_modify_ne _ _ hq, List.getElem?_modify_ne _ _ hq]

/-- A change of the last reservation. -/
theorem modify_concat (l : List (Reservation V)) (x : Reservation V)
    (f : Reservation V → Reservation V) : (l ++ [x]).modify l.length f = l ++ [f x] :=
  List.modifyTailIdx_add _ 0 l [x]

/-- A change of another reservation than the last. -/
theorem modify_append_left {l : List (Reservation V)} (h : r < l.length) (x : Reservation V)
    (f : Reservation V → Reservation V) : (l ++ [x]).modify r f = l.modify r f ++ [x] := by
  refine List.ext_getElem? fun q => ?_
  rw [List.getElem?_modify, List.getElem?_append, List.getElem?_append, List.length_modify,
    List.getElem?_modify]
  by_cases hq : q < l.length
  · rw [if_pos hq, if_pos hq]
  · have hne : r ≠ q := fun hrq => hq (hrq ▸ h)
    simp only [if_neg hq, if_neg hne, id_map']

/-- What a change keeps of every reservation, it keeps of one that is known. -/
theorem exists_getElem?_modify {l : List (Reservation V)} {x : Reservation V}
    {P : Reservation V → Prop} {f : Reservation V → Reservation V} (hx : l[r]? = some x)
    (hP : P x) (q : ReservationId) (hf : ∀ y, P y → P (f y)) :
    ∃ x', (l.modify q f)[r]? = some x' ∧ P x' := by
  by_cases hq : q = r
  · subst hq
    exact ⟨f x, by rw [List.getElem?_modify_eq, hx]; rfl, hf x hP⟩
  · exact ⟨x, by rw [List.getElem?_modify_ne _ _ hq, hx], hP⟩

end

variable (w : System V)

/-! ## Reservations under operations on scopes and pools -/

@[simp]
theorem reservations_updateScope (s : ScopeId) (f : Scope → Scope) :
    (w.updateScope s f).reservations = w.reservations := rfl

@[simp]
theorem reservations_stopPool (p : PoolId) (stop : Stop) :
    (w.stopPool p stop).reservations = w.reservations := rfl

@[simp]
theorem reservations_takePool (s : ScopeId) (stop : Stop) :
    (w.takePool s stop).reservations = w.reservations := by
  unfold takePool
  split
  next => split <;> rfl
  next => rfl

@[simp]
theorem reservations_retain (s : ScopeId) : (w.retain s).reservations = w.reservations := rfl

@[simp]
theorem reservations_release (s : ScopeId) : (w.release s).reservations = w.reservations := by
  simp only [release]
  split
  next => split <;> simp
  next => rfl

@[simp]
theorem reservations_releaseAll (ss : List ScopeId) :
    (w.releaseAll ss).reservations = w.reservations := by
  induction ss generalizing w with
  | nil => rfl
  | cons s ss ih =>
    rw [releaseAll, List.foldl_cons, ← releaseAll, ih, reservations_release]

@[simp]
theorem reservations_retainAll (ss : List ScopeId) :
    (w.retainAll ss).reservations = w.reservations := by
  induction ss generalizing w with
  | nil => rfl
  | cons s ss ih =>
    rw [retainAll, List.foldl_cons, ← retainAll, ih, reservations_retain]

@[simp]
theorem reservations_beginShutdown (s : ScopeId) (closing : Closing) :
    (w.beginShutdown s closing).reservations = w.reservations := by
  unfold beginShutdown
  split
  next => split <;> simp
  next => rfl

@[simp]
theorem reservations_finishShutdown (s : ScopeId) :
    (w.finishShutdown s).reservations = w.reservations := by
  unfold finishShutdown
  split <;> simp

@[simp]
theorem reservations_share (s : ScopeId) : (w.share s).reservations = w.reservations := by
  unfold share
  split <;> simp

@[simp]
theorem reservations_unshare (s : ScopeId) : (w.unshare s).reservations = w.reservations := by
  unfold unshare
  split <;> simp

@[simp]
theorem reservations_openGate (g : String) : (w.openGate g).reservations = w.reservations := by
  unfold openGate
  split <;> rfl

/-- What is built is there when the action is over. -/
theorem act_build {w' : System V} {c : Settings} {s : ScopeId} (h : w.build c = .built s w') :
    w.act (.build c) = w' := by
  rw [act, h]

/-- A scope that is built is the last one. It has a pool of its own, and its caller holds
the reference to it. -/
theorem eq_of_build {w' : System V} {c : Settings} {s : ScopeId} (h : w.build c = .built s w') :
    ∃ pool : Pool, pool.forScope = true ∧ pool.alive = true ∧ s = w.scopes.length ∧ w' =
      { w with
        pools := w.pools ++ [pool]
        scopes := w.scopes ++
          [{ name := c.threadName, pool := w.pools.length, owns := true, grace := c.grace }]
        held := w.scopes.length :: w.held } := by
  unfold build at h
  split at h
  next => cases h
  next =>
    split at h
    next => cases h
    next pool hcreate =>
      cases h
      unfold Pool.create? at hcreate
      split at hcreate
      next => cases hcreate
      next =>
        obtain rfl := Option.some.inj hcreate
        exact ⟨_, rfl, rfl, rfl, rfl⟩

/-! ## Reservations under operations on one of them -/

@[simp]
theorem reservations_update (r : ReservationId) (f : Reservation V → Reservation V) :
    (w.update r f).reservations = w.reservations.modify r f := rfl

/-- A computation that is over has its phase and its last event, and its references are gone. -/
@[simp]
theorem reservations_conclude (r : ReservationId) (phase : Phase) (event : Event V) :
    (w.conclude r phase event).reservations =
      w.reservations.modify r fun x => { x with phase, events := x.events ++ [event] } := by
  unfold conclude
  split
  next => simp
  next hx => rw [List.modify_eq_self (List.getElem?_eq_none_iff.mp hx)]

@[simp]
theorem reservations_reserve (s : ScopeId) (name : Option String) (label : String)
    (parent : Option ReservationId) (computation : Computation ScopeId V) (c : Consumer V) :
    (w.reserve s name label parent computation c).2.reservations =
      w.reservations ++
        [{ label, name, parent, scope := s, computation, rest := computation, consumer := c }] := by
  simp [reserve]

/-! ## What becomes of a known reservation -/

section

variable {w : System V} {r : ReservationId}

/-- A computation that is over has its outcome published, and its references are gone. -/
@[simp]
theorem reservations_concludeWith (w : System V) (r : ReservationId) (phase : Phase)
    (event : Event V) (o : Outcome V) :
    (w.concludeWith r phase event o).reservations =
      w.reservations.modify r (Reservation.conclude phase event o) := by
  rw [concludeWith, publish, reservations_update, reservations_conclude, List.modify_modify_eq]
  rfl

/-- A reservation that was launched drops its reference to the scope. -/
@[simp]
theorem reservations_letGo (w : System V) (r : ReservationId) :
    (w.letGo r).reservations = w.reservations.modify r fun x =>
      { x with holdsScope := x.holdsScope && !x.phase.isLaunched } := by
  unfold letGo
  split
  next x hx =>
    split
    next h =>
      rw [reservations_release, reservations_update]
      refine modify_congr hx ?_
      rw [(Bool.and_eq_true_iff.mp h).2, Bool.not_true, Bool.and_false]
    next h =>
      rw [modify_congr (g := id) hx ?_, List.modify_id]
      cases x with
      | mk => cases hholds : Reservation.holdsScope _ <;> simp_all
  next hx =>
    rw [List.modify_eq_self (List.getElem?_eq_none_iff.mp hx)]

/-- A reservation that was not launched is dropped with its references. -/
theorem reservations_discard {x : Reservation V} (hx : w.reservations[r]? = some x)
    (hphase : x.phase = .captured) :
    (w.discard r).reservations = w.reservations.modify r fun x =>
      { x with phase := .dropped, events := x.events ++ [.dropped], holdsScope := false } := by
  simp only [discard, hx, if_pos hphase]
  rw [reservations_letGo, reservations_conclude, List.modify_modify_eq]
  refine modify_congr hx ?_
  simp [Phase.isLaunched]

/-- Dropping a handle changes its own reservation only. -/
theorem reservations_dropHandle (w : System V) (r : ReservationId) :
    (w.dropHandle r).reservations = w.reservations.modify r Reservation.dropHandle := by
  unfold dropHandle
  split
  next x hx =>
    split
    next hgives =>
      rw [abort, updateConsumer, reservations_update, reservations_update, List.modify_modify_eq]
      refine modify_congr hx ?_
      rw [Reservation.dropHandle, if_pos hgives]
      cases hspawned : x.spawned <;> simp [hspawned]
    next hgives =>
      split
      next hphase =>
        have hx' : (w.updateConsumer r Consumer.drop).reservations[r]? =
            some { x with consumer := x.consumer.drop } := by
          rw [updateConsumer, reservations_update, List.getElem?_modify_eq, hx]
          rfl
        rw [reservations_discard hx' hphase, updateConsumer, reservations_update,
          List.modify_modify_eq]
        refine modify_congr hx ?_
        rw [Reservation.dropHandle, if_neg hgives, if_pos hphase]
        rfl
      next hphase =>
        rw [updateConsumer, reservations_update]
        refine modify_congr hx ?_
        rw [Reservation.dropHandle, if_neg hgives, if_neg hphase]
  next hx =>
    rw [List.modify_eq_self (List.getElem?_eq_none_iff.mp hx)]

/-- Dropping a handle leaves every computation that was launched where it is. -/
theorem exists_getElem?_dropHandle {x : Reservation V} (hx : w.reservations[r]? = some x)
    (hphase : x.phase ≠ .captured) (q : ReservationId) :
    ∃ x', (w.dropHandle q).reservations[r]? = some x' ∧ x'.phase = x.phase ∧ x'.rest = x.rest := by
  rw [reservations_dropHandle]
  refine exists_getElem?_modify hx ⟨rfl, rfl⟩ q fun y hy => ?_
  obtain ⟨hkeep, hkeep'⟩ := Reservation.dropHandle_of_ne_captured (hy.1 ▸ hphase)
  exact ⟨hkeep.trans hy.1, hkeep'.trans hy.2⟩

/-- A launch that looks at the scope goes on only if it is open. -/
theorem getElem?_testClosed {x : Reservation V} (hx : w.reservations[r]? = some x)
    (hphase : x.phase = .launching) :
    (w.testClosed r).reservations[r]? =
      some (if w.isClosed x.scope then x.conclude .dropped .dropped (.error .scopeClosed)
        else { x with phase := .cleared }) := by
  simp only [testClosed, hx, if_pos hphase]
  split
  · rw [reservations_concludeWith, List.getElem?_modify_eq, hx]
    rfl
  · rw [reservations_update, List.getElem?_modify_eq, hx]
    rfl

/-- A launch that hands the computation on makes a task, if the pool takes it. -/
theorem getElem?_spawn {x : Reservation V} (hx : w.reservations[r]? = some x)
    (hphase : x.phase = .cleared) :
    (w.spawn r).reservations[r]? =
      some (if w.poolAlive x.scope then { x with phase := .queued, spawned := true }
        else { x with spawned := true }.conclude .dropped .dropped (.error .cancelled)) := by
  simp only [spawn, hx, if_pos hphase]
  split
  · rw [reservations_update, List.getElem?_modify_eq, hx]
    rfl
  · rw [reservations_concludeWith, List.getElem?_modify_eq, reservations_update,
      List.getElem?_modify_eq, hx]
    rfl

/-- Dropping a handle publishes nothing. -/
@[simp]
theorem outcomes_dropHandle (x : Reservation V) : x.dropHandle.outcomes = x.outcomes := by
  unfold Reservation.dropHandle
  split
  · rfl
  · split <;> rfl

/-- A doomed task that is suspended can be dropped, and cancellation is published for it. -/
theorem exists_getElem?_dropTask {x : Reservation V} (hx : w.reservations[r]? = some x)
    (hsuspended : x.phase.isSuspended = true) (hdoomed : w.isDoomed x = true) :
    ∃ x', (w.dropTask r).reservations[r]? = some x' ∧ x'.phase = .dropped ∧
      x'.outcomes = x.outcomes ++ [.error .cancelled] := by
  have concluded {w' : System V} {y : Reservation V} (hy : w'.reservations[r]? = some y)
      (houtcomes : y.outcomes = x.outcomes) :
      ∃ x', (w'.concludeWith r .dropped .dropped (.error .cancelled)).reservations[r]? = some x' ∧
        x'.phase = .dropped ∧ x'.outcomes = x.outcomes ++ [.error .cancelled] := by
    rw [reservations_concludeWith, List.getElem?_modify_eq, hy, ← houtcomes]
    exact ⟨_, rfl, rfl, rfl⟩
  obtain hphase | ⟨pause, hphase⟩ := Phase.eq_of_isSuspended hsuspended
  · simp only [dropTask, hx, if_pos hdoomed, hphase]
    exact concluded hx rfl
  · simp only [dropTask, hx, if_pos hdoomed, hphase]
    cases pause with
    | inner child =>
      -- The handle that is dropped first may be its own.
      obtain ⟨y, hy, houtcomes⟩ : ∃ y, (w.dropHandle child).reservations[r]? = some y ∧
          y.outcomes = x.outcomes := by
        rw [reservations_dropHandle]
        exact exists_getElem?_modify (P := fun y => y.outcomes = x.outcomes) hx rfl child
          fun y h => (outcomes_dropHandle y).trans h
      exact concluded hy houtcomes
    | gate | turn | «until» => exact concluded hx rfl

/-- Dropping the handle of a doomed task does not save it. -/
theorem isDoomed_dropHandle {x : Reservation V} (h : w.isDoomed x = true) :
    w.isDoomed x.dropHandle = true := by
  unfold isDoomed at *
  unfold Reservation.dropHandle
  split
  · rw [Bool.or_eq_true] at h
    cases h with
    | inl haborted => simp [haborted]
    | inr hdead => simp [hdead]
  · split <;> exact h

/-- A task reserves a computation, begins its launch and turns to it. -/
theorem reservations_takeStep_await {x : Reservation V} {access : Access} {s : ScopeId}
    {inner rest : Computation ScopeId V} (hrest : x.rest = .await access s inner rest)
    (hx : w.reservations[r]? = some x) :
    (w.takeStep r x).reservations =
      (w.setPhase r (.active (.engaged w.reservations.length))).reservations ++
        [{ label := innerLabel x, name := none, parent := some r, scope := s,
           computation := inner, rest := inner, consumer := access.consumer,
           phase := .launching, launches := 1 }] := by
  have hlt := (List.getElem?_eq_some_iff.mp hx).1
  simp only [takeStep, hrest, setPhase, startLaunch, reservations_update, reservations_reserve]
  have hchild : (w.reserve s none (innerLabel x) (some r) inner access.consumer).1 =
      w.reservations.length := rfl
  rw [hchild, modify_concat, modify_append_left hlt]
  rfl

end

end System

end Deferral
