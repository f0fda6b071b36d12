import Deferral.Proofs.System.Growth

/-!
# What a reservation tells about its computation

`Sound` relates the parts of a reservation to each other: what remains of its computation to the
steps that were taken, and the outcomes that were published to the way in which the computation came
to its end. It holds of every reservation that is added, and every change preserves it.

Main statements:
* `sound_run`: every reservation of every run is sound.
-/

namespace Deferral

variable {V : Type}

/-- What a computation ends with by itself is not what is reported of one that was dropped. -/
theorem Ending.outcome_ne (e : Ending V) :
    e.outcome ≠ .error .scopeClosed ∧ e.outcome ≠ .error .cancelled := by
  cases e <;> exact ⟨nofun, nofun⟩

/-- Whether a computation in this phase has not been started. -/
def Phase.isFresh : Phase → Bool
  | .captured | .launching | .cleared | .queued => true
  | _ => false

/-- A computation that has not been started is not over. -/
theorem Phase.isOver_of_isFresh {phase : Phase} (h : phase.isFresh = true) :
    phase.isOver = false := by
  cases phase <;> first | rfl | cases h

namespace Reservation

/-- The computation was carried to its end, and the end is `e`. -/
structure RanTo (x : Reservation V) (e : Ending V) : Prop where
  /-- The task came to its end. -/
  phase_eq : x.phase = .ended
  /-- What was captured comes to this end after the steps that were taken. -/
  after_position : x.computation.after x.position = .finish e
  /-- The last thing that it reported was how it ended. -/
  getLast?_events : x.events.getLast? = some e.event

/-- The scope was found closed, and not one step of the computation was taken. -/
structure Refused (x : Reservation V) : Prop where
  /-- That the scope is closed is the one outcome. -/
  outcomes_eq : x.outcomes = [.error .scopeClosed]
  /-- No step was taken. -/
  position_eq : x.position = 0
  /-- Nothing was reported but that it was dropped. -/
  events_eq : x.events = [.dropped]

/-- The parts of a reservation agree with each other. -/
structure Sound (x : Reservation V) : Prop where
  /-- What remains is what comes after the steps that were taken. -/
  rest_eq : x.rest = x.computation.after x.position
  /-- No step is taken before the computation is started. -/
  fresh : x.phase.isFresh = true → x.position = 0 ∧ x.events = []
  /-- What was not launched was not launched. -/
  captured : x.phase = .captured → x.launches = 0
  /-- No outcome is published before the computation is over. -/
  running : x.phase.isOver = false → x.outcomes = []
  /-- A computation that came to its end has the outcome that belongs to this end. -/
  ended : x.phase = .ended → ∃ e, x.RanTo e ∧ x.outcomes = [e.outcome]
  /-- A computation that was dropped was never launched, was refused, or is reported as
  cancelled. -/
  dropped : x.phase = .dropped →
    x.launches = 0 ∧ x.outcomes = [] ∨ x.Refused ∨ x.outcomes = [.error .cancelled]
  /-- The cell is done as soon as an outcome is published. -/
  isDone_eq : x.consumer.cell.isDone = !x.outcomes.isEmpty
  /-- The outcome in the cell is one that was published. -/
  ready : ∀ o, x.consumer.cell.slot = .ready o → o ∈ x.outcomes

namespace Sound

variable {x x' : Reservation V}

/-- A reservation that is added is sound. -/
theorem of_new {w : System V} {a : Action V} (h : w.New a x) : x.Sound := by
  cases h with
  | reserve =>
    exact ⟨rfl, fun _ => ⟨rfl, rfl⟩, fun _ => rfl, fun _ => rfl, nofun, nofun, rfl, nofun⟩
  | await =>
    refine ⟨rfl, fun _ => ⟨rfl, rfl⟩, nofun, fun _ => rfl, nofun, nofun, ?_, fun o ho => ?_⟩
    · rw [Cell.isDone, Access.slot_consumer]
      rfl
    · rw [Access.slot_consumer] at ho
      cases ho

/-- What the computation refers to has no part in it, and no outcome is put into the cell. -/
theorem spend (hx : x.Sound) {c : Consumer V} (h : x.consumer.cell.slot.Spends c.cell.slot)
    (holdsScope spawned aborted : Bool) :
    { x with consumer := c, holdsScope, spawned, aborted }.Sound :=
  { rest_eq := hx.rest_eq
    fresh := hx.fresh
    captured := hx.captured
    running := hx.running
    ended := fun hphase => by
      obtain ⟨e, hran, houtcomes⟩ := hx.ended hphase
      exact ⟨e, ⟨hran.1, hran.2, hran.3⟩, houtcomes⟩
    dropped := fun hphase => (hx.dropped hphase).imp_right
      (Or.imp_left fun hrefused => ⟨hrefused.1, hrefused.2, hrefused.3⟩)
    isDone_eq := h.isDone_eq.trans hx.isDone_eq
    ready := fun o ho => hx.ready o (h.eq_ready ho) }

/-- A computation that is not over goes on, and its consumer is left alone. -/
theorem go (hx : x.Sound) (hover : x.phase.isOver = false) (hover' : x'.phase.isOver = false)
    (hrest : x'.rest = x'.computation.after x'.position)
    (hfresh : x'.phase.isFresh = true → x'.position = 0 ∧ x'.events = [])
    (hcaptured : x'.phase ≠ .captured) (houtcomes : x'.outcomes = x.outcomes)
    (hconsumer : x'.consumer = x.consumer) : x'.Sound where
  rest_eq := hrest
  fresh := hfresh
  captured h := absurd h hcaptured
  running _ := houtcomes.trans (hx.running hover)
  ended h := by simp [h, Phase.isOver] at hover'
  dropped h := by simp [h, Phase.isOver] at hover'
  isDone_eq := by rw [hconsumer, houtcomes, hx.isDone_eq]
  ready o ho := by
    rw [houtcomes]
    exact hx.ready o (hconsumer ▸ ho)

/-- A computation that is not over is let go of, and its outcome is published. -/
theorem conclude (hx : x.Sound) (hover : x.phase.isOver = false) {phase : Phase}
    {event : Event V} {o : Outcome V} (hover' : phase.isOver = true)
    (hended : phase = .ended → ∃ e, (x.conclude phase event o).RanTo e ∧ o = e.outcome)
    (hdropped : phase = .dropped →
      (x.conclude phase event o).Refused ∨ o = .error .cancelled) :
    (x.conclude phase event o).Sound := by
  -- Nothing was published before, so this is the only outcome.
  have houtcomes : (x.conclude phase event o).outcomes = [o] := by
    rw [Reservation.conclude, hx.running hover, List.nil_append]
  exact
    { rest_eq := hx.rest_eq
      fresh := fun h => by
        rw [Phase.isOver_of_isFresh (show phase.isFresh = true from h)] at hover'
        cases hover'
      captured := fun h => absurd hover' (by simp [show phase = .captured from h, Phase.isOver])
      running := fun h => absurd hover' (Bool.eq_false_iff.mp h)
      ended := fun h => by
        obtain ⟨e, hran, rfl⟩ := hended h
        exact ⟨e, hran, houtcomes⟩
      dropped := fun h => .inr ((hdropped h).imp_right fun ho => by rw [houtcomes, ho])
      isDone_eq := by
        rw [houtcomes]
        exact Consumer.isDone_publish o x.consumer
      ready := fun p hp => by
        rw [houtcomes, List.mem_singleton]
        cases Consumer.slot_publish o x.consumer with
        | inl hready => exact (Slot.ready.inj (hready.symm.trans hp)).symm
        | inr htaken => cases htaken.symm.trans hp }

/-- What an action does to a reservation leaves it sound. -/
theorem change {w : System V} {r : ReservationId} {a : Action V} (hx : x.Sound)
    (h : w.Change r a x x') : x'.Sound := by
  cases h with
  | handle hc => exact hx.spend hc.spends ..
  | attach => exact hx.spend (Consumer.attach_spends _) ..
  | letGo | abort => exact hx.spend (.refl _) ..
  | launch hphase | clear hphase | clearDirectly hphase | queue hphase =>
    have hfresh := hx.fresh (by rw [hphase]; rfl)
    exact hx.go (by rw [hphase]; rfl) rfl hx.rest_eq (fun _ => hfresh) nofun rfl rfl
  | refuse _ _ hphase =>
    -- The launch comes before the first step, so not one was taken.
    obtain ⟨hposition, hevents⟩ := hx.fresh (by rw [hphase]; rfl)
    have hover : x.phase.isOver = false := by rw [hphase]; rfl
    refine hx.conclude hover rfl nofun fun _ => .inl ⟨?_, hposition, ?_⟩
    · rw [Reservation.conclude, hx.running hover, List.nil_append]
    · rw [Reservation.conclude, hevents, List.nil_append]
  | lose hphase =>
    -- It counts as handed to the pool, which drops it at once.
    refine (hx.spend (.refl _) _ true _).conclude ?_ rfl nofun fun _ => .inr rfl
    rw [hphase]
    rfl
  | discard hphase =>
    have hover : x.phase.isOver = false := by rw [hphase]; rfl
    exact ⟨hx.rest_eq, nofun, nofun, nofun, nofun,
      fun _ => .inl ⟨hx.captured hphase, hx.running hover⟩, hx.isDone_eq, hx.ready⟩
  | start hphase =>
    exact hx.go (by rw [hphase]; rfl) rfl hx.rest_eq nofun nofun rfl rfl
  | advance _ hphase =>
    -- What remains and the number of steps move on together.
    refine hx.go (Phase.isOver_of_isTask hphase) rfl ?_ nofun nofun rfl rfl
    rw [hx.rest_eq]
    rfl
  | pause _ hphase =>
    exact hx.go (Phase.isOver_of_isActive hphase) rfl hx.rest_eq nofun nofun rfl rfl
  | engage _ hphase =>
    exact hx.go (Phase.isOver_of_isTask hphase) rfl hx.rest_eq nofun nofun rfl rfl
  | @finish e hphase hrest =>
    -- What remains is the end, so this is what comes after the steps that were taken.
    refine hx.conclude (Phase.isOver_of_isActive hphase) rfl
      (fun _ => ⟨e, ⟨rfl, ?_, ?_⟩, rfl⟩) nofun
    · exact hx.rest_eq.symm.trans hrest
    · exact List.getLast?_concat
  | drop _ hphase =>
    exact hx.conclude (Phase.isOver_of_isSuspended hphase) rfl nofun fun _ => .inr rfl

/-- A computation that was carried to its end has the outcome that belongs to this end. -/
theorem outcomes_of_ranTo (hx : x.Sound) {e : Ending V} (h : x.RanTo e) :
    x.outcomes = [e.outcome] := by
  -- The end is determined by what was captured and by how many steps were taken.
  obtain ⟨e', h', houtcomes⟩ := hx.ended h.phase_eq
  obtain rfl := Computation.finish.inj (h.after_position.symm.trans h'.after_position)
  exact houtcomes

/-- A published outcome is the only one, and it tells what has become of the computation. -/
theorem outcomes_of_mem (hx : x.Sound) {o : Outcome V} (h : o ∈ x.outcomes) :
    x.outcomes = [o] ∧ ((∃ e, x.RanTo e ∧ o = e.outcome) ∨ x.Refused ∧ o = .error .scopeClosed ∨
      x.phase = .dropped ∧ o = .error .cancelled) := by
  have single {p : Outcome V} (hp : x.outcomes = [p]) : o = p := by
    rw [hp] at h
    exact List.mem_singleton.mp h
  cases hover : x.phase.isOver with
  | false =>
    rw [hx.running hover] at h
    cases h
  | true =>
    have hphase : x.phase = .ended ∨ x.phase = .dropped := by
      cases hphase : x.phase <;> simp_all [Phase.isOver]
    cases hphase with
    | inl hended =>
      obtain ⟨e, hran, houtcomes⟩ := hx.ended hended
      obtain rfl := single houtcomes
      exact ⟨houtcomes, .inl ⟨e, hran, rfl⟩⟩
    | inr hdropped =>
      -- What was never launched has no outcome.
      obtain ⟨-, hnil⟩ | hrefused | hcancelled := hx.dropped hdropped
      · rw [hnil] at h
        cases h
      · obtain rfl := single hrefused.outcomes_eq
        exact ⟨hrefused.outcomes_eq, .inr (.inl ⟨hrefused, rfl⟩)⟩
      · obtain rfl := single hcancelled
        exact ⟨hcancelled, .inr (.inr ⟨hdropped, rfl⟩)⟩

/-- An outcome of a computation that came to its end is published exactly when it did. -/
theorem mem_outcomes_iff (hx : x.Sound) {o : Outcome V} (hclosed : o ≠ .error .scopeClosed)
    (hcancelled : o ≠ .error .cancelled) :
    o ∈ x.outcomes ↔ ∃ e, x.RanTo e ∧ o = e.outcome := by
  constructor
  · intro h
    obtain ⟨-, hran | ⟨-, ho⟩ | ⟨-, ho⟩⟩ := hx.outcomes_of_mem h
    · exact hran
    · exact absurd ho hclosed
    · exact absurd ho hcancelled
  · rintro ⟨e, hran, rfl⟩
    rw [hx.outcomes_of_ranTo hran]
    exact List.mem_cons_self

/-- A value is published exactly when the computation returned it. -/
theorem ok_mem_outcomes_iff (hx : x.Sound) (v : V) : .ok v ∈ x.outcomes ↔ x.RanTo (.value v) := by
  refine (hx.mem_outcomes_iff (o := .ok v) nofun nofun).trans ⟨?_, ?_⟩
  · rintro ⟨e, hran, he⟩
    cases e with
    | value => exact Except.ok.inj he ▸ hran
    | panic => cases he
  · exact fun hran => ⟨.value v, hran, rfl⟩

/-- A panic is published exactly when the computation panicked with this message. -/
theorem panicked_mem_outcomes_iff (hx : x.Sound) (m : String) :
    .error (.panicked m) ∈ x.outcomes ↔ ∃ p : Payload, x.RanTo (.panic p) ∧ m = p.message := by
  refine (hx.mem_outcomes_iff (o := .error (.panicked m)) nofun nofun).trans ⟨?_, ?_⟩
  · rintro ⟨e, hran, he⟩
    cases e with
    | value => cases he
    | panic p => exact ⟨p, hran, Failure.panicked.inj (Except.error.inj he)⟩
  · rintro ⟨p, hran, rfl⟩
    exact ⟨.panic p, hran, rfl⟩

/-- That the scope is closed is published only for a reservation that was refused. -/
theorem refused_of_mem (hx : x.Sound) (h : .error .scopeClosed ∈ x.outcomes) : x.Refused := by
  obtain ⟨-, ⟨e, -, he⟩ | ⟨hrefused, -⟩ | ⟨-, he⟩⟩ := hx.outcomes_of_mem h
  · exact absurd he.symm e.outcome_ne.1
  · exact hrefused
  · cases he

/-- Cancellation is published only for a computation that was dropped. -/
theorem dropped_of_mem (hx : x.Sound) (h : .error .cancelled ∈ x.outcomes) :
    x.phase = .dropped := by
  obtain ⟨-, ⟨e, -, he⟩ | ⟨-, he⟩ | ⟨hphase, -⟩⟩ := hx.outcomes_of_mem h
  · exact absurd he.symm e.outcome_ne.2
  · cases he
  · exact hphase

/-- When the computation of a launched reservation is over, its outcome is published. -/
theorem outcomes_ne_nil (hx : x.Sound) (hlaunched : x.launches ≠ 0)
    (hover : x.phase.isOver = true) : x.outcomes ≠ [] := by
  intro hnil
  cases hphase : x.phase with
  | ended =>
    obtain ⟨e, -, houtcomes⟩ := hx.ended hphase
    rw [hnil] at houtcomes
    cases houtcomes
  | dropped =>
    obtain ⟨hzero, -⟩ | hrefused | hcancelled := hx.dropped hphase
    · exact hlaunched hzero
    · cases hnil.symm.trans hrefused.outcomes_eq
    · cases hnil.symm.trans hcancelled
  | captured | launching | cleared | queued | paused | active =>
    rw [hphase] at hover
    cases hover

end Sound

end Reservation

/-- Every reservation of every run is sound. -/
theorem System.sound_run {actions : List (Action V)} {r : ReservationId} {x : Reservation V}
    (h : (run {} actions).reservations[r]? = some x) : x.Sound :=
  forall_run (fun _ _ _ => .of_new) (fun _ _ _ _ _ hchange hx => hx.change hchange) h

/-- Every reservation is sound after a run and one more action. -/
theorem System.sound_act {actions : List (Action V)} {a : Action V} {r : ReservationId}
    {x : Reservation V} (h : ((run {} actions).act a).reservations[r]? = some x) : x.Sound := by
  rw [← run_concat] at h
  exact sound_run h

end Deferral
