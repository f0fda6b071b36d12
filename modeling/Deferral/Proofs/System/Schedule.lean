import Deferral.Proofs.System.Likeness
import Deferral.Proofs.System.Rest

/-!
# What the scheduler does

The scheduler only takes actions of reservations and lets time pass, so what it does is a run that
is about no handle. It does not look at the consumer of a reservation that a caller has made, so it
does the same in two systems that are alike but for such a consumer. A deadline makes it stop
earlier, and changes nothing before that.

Main statements:
* `exists_schedule_quiesce`: the scheduler takes the same actions in systems that are alike.
* `exists_further_quiesce`: what the scheduler does without a deadline goes on where
  it stops at one.
-/

namespace Deferral

variable {V : Type}

/-- Whether nobody has to call anything for an action: it is a step of a launch or of a task, a gate
is opened, or time passes. -/
def Action.isUnattended : Action V → Bool
  | .testClosed _ | .spawn _ | .letGo _ | .attach _ | .resume _ | .step _ | .dropTask _ | .openGate _
  | .pass _ => true
  | _ => false

/-- What is done without a call is about no handle. -/
theorem Action.handle?_eq_none_of_isUnattended {a : Action V} (h : a.isUnattended = true) :
    a.handle? = none := by
  cases a <;> first | rfl | cases h

namespace System

variable {r q : ReservationId} {w w' : System V}

/-! ## The next action -/

/-- The next action needs no call. -/
theorem isUnattended_of_next? {a : Action V} (h : w.next? = some a) : a.isUnattended = true := by
  obtain ⟨q, x, -, hnext⟩ := exists_next h
  cases hnext <;> rfl

/-- The next action is about no handle. -/
theorem handle?_of_next? {a : Action V} (h : w.next? = some a) : a.handle? = none :=
  Action.handle?_eq_none_of_isUnattended (isUnattended_of_next? h)

/-- The reservation `r` is there, and a caller has made it. -/
def Owned (r : ReservationId) (w : System V) : Prop :=
  ∃ x, w.reservations[r]? = some x ∧ x.parent = none

/-- It stays the caller's. -/
theorem Owned.run (h : Owned r w) (actions : List (Action V)) : Owned r (w.run actions) := by
  obtain ⟨x, hx, hparent⟩ := h
  obtain ⟨x', hx', hgrows⟩ := exists_grows_run hx actions
  exact ⟨x', hx', hgrows.parent_eq.trans hparent⟩

/-- No computation waits for it. -/
theorem Owned.unawaited {actions : List (Action V)} (h : Owned r (System.run {} actions)) :
    Unawaited r (System.run {} actions) := by
  obtain ⟨x, hx, hparent⟩ := h
  refine unawaited_run fun y hy => ?_
  obtain rfl := Option.some.inj (hx.symm.trans hy)
  exact hparent

namespace Alike

theorem clock_eq (h : Alike r w w') : w'.clock = w.clock := by
  obtain ⟨c, rfl⟩ := h
  rfl

/-- What is read off reservations without their consumers is the same. -/
theorem map_eq (h : Alike r w w') {α : Type} {f : Reservation V → α}
    (hf : ∀ x c, f { x with consumer := c } = f x) :
    w'.reservations.map f = w.reservations.map f := by
  refine List.ext_getElem? fun q => ?_
  rw [List.getElem?_map, List.getElem?_map]
  rcases hx : w.reservations[q]? with _ | x
  · rw [h.getElem?_eq_none hx]
  · obtain ⟨c, hx', -⟩ := h.exists_getElem? hx
    rw [hx', Option.map_some, Option.map_some, hf]

theorem patience_eq (h : Alike r w w') : w'.patience = w.patience :=
  congrArg total (h.map_eq fun _ _ => rfl)

theorem nextTime?_eq (h : Alike r w w') : w'.nextTime? = w.nextTime? := by
  have hdoomed (x : Reservation V) : w'.isDoomed x = w.isDoomed x := h.isDoomed_eq x x.consumer
  have hread (l : List (Reservation V)) (f : Reservation V → Option Nat) :
      l.filterMap f = (l.map f).filterMap id := by
    rw [List.filterMap_map]
    rfl
  unfold nextTime?
  simp only [hdoomed]
  rw [hread, hread w.reservations, h.map_eq fun x c => rfl]

/-- A reservation has the same next action in both, unless it is the nested one that
they differ in. -/
theorem nextAction?_eq (h : Alike r w w') (hfree : w.Unawaited r) {x : Reservation V}
    (hx : w.reservations[q]? = some x) {c : Consumer V} (hc : x.parent = none ∨ c = x.consumer) :
    w'.nextAction? { x with consumer := c } q = w.nextAction? x q := by
  -- Whether a callback waits is looked at only for a nested reservation.
  have hattaching : (x.parent.isSome && x.phase.isLaunched && c.attaching.isSome) =
      (x.parent.isSome && x.phase.isLaunched && x.consumer.attaching.isSome) := by
    rcases hc with hparent | rfl
    · rw [hparent]
      rfl
    · rfl
  unfold nextAction?
  dsimp only
  rw [h.isDoomed_eq x c, h.canStep_eq (hfree q x hx) c, hattaching]
  cases hphase : x.phase with
  | paused pause =>
    dsimp only
    rw [h.isDue_eq fun heq => hfree q x hx (by rw [hphase, heq]; rfl)]
  | _ => rfl

/-- The next action is the same in both. -/
theorem next?_eq (h : Alike r w w') (howned : Owned r w) (hfree : w.Unawaited r) :
    w'.next? = w.next? := by
  have hread (w : System V) :
      w.next? = (w.reservations.mapIdx fun q x => w.nextAction? x q).findSome? id := by
    rw [List.mapIdx_eq_zipIdx_map, List.findSome?_map]
    rfl
  rw [hread, hread w]
  congr 1
  -- It is the first that a reservation has, so each is to have the same one in both.
  refine List.ext_getElem? fun q => ?_
  rw [List.getElem?_mapIdx, List.getElem?_mapIdx]
  rcases hx : w.reservations[q]? with _ | x
  · rw [h.getElem?_eq_none hx]
    rfl
  · obtain ⟨c, hx', hc⟩ := h.exists_getElem? hx
    rw [hx', Option.map_some, Option.map_some, h.nextAction?_eq hfree hx]
    by_cases hq : q = r
    · subst hq
      obtain ⟨y, hy, hparent⟩ := howned
      obtain rfl := Option.some.inj (hx.symm.trans hy)
      exact .inl hparent
    · exact .inr (hc hq)

/-- What is not about the handle leaves systems alike. -/
theorem run {actions actions' schedule : List (Action V)}
    (h : Alike r (run {} actions) (run {} actions')) (howned : Owned r (System.run {} actions))
    (hschedule : ∀ a ∈ schedule, a.handle? ≠ some r) :
    Alike r ((System.run {} actions).run schedule) ((System.run {} actions').run schedule) := by
  induction schedule generalizing actions actions' with
  | nil => exact h
  | cons a schedule ih =>
    have hact := h.act (hschedule a List.mem_cons_self) howned.unawaited
    rw [run_cons, run_cons]
    rw [← run_concat, ← run_concat] at hact ⊢
    have howned' : Owned r (System.run {} (actions ++ [a])) := by
      rw [run_append]
      exact howned.run [a]
    exact ih hact howned' fun b hb => hschedule b (List.mem_cons_of_mem _ hb)

end Alike

/-! ## Schedules -/

/-- The systems `v` and `v'` come from `w` and `w'` by the same actions, which are
about no handle. -/
def InStep (w w' v v' : System V) : Prop :=
  ∃ schedule : List (Action V), (∀ a ∈ schedule, a.handle? = none) ∧ v = w.run schedule ∧
    v' = w'.run schedule

namespace InStep

theorem refl (w w' : System V) : InStep w w' w w' :=
  ⟨[], nofun, rfl, rfl⟩

theorem trans {v v' u u' : System V} (h : InStep w w' v v') (h' : InStep v v' u u') :
    InStep w w' u u' := by
  obtain ⟨schedule, hschedule, rfl, rfl⟩ := h
  obtain ⟨schedule', hschedule', rfl, rfl⟩ := h'
  refine ⟨schedule ++ schedule', fun a ha => ?_, (run_append ..).symm, (run_append ..).symm⟩
  exact (List.mem_append.mp ha).elim (hschedule a) (hschedule' a)

theorem act {a : Action V} (ha : a.handle? = none) (w w' : System V) :
    InStep w w' (w.act a) (w'.act a) := by
  refine ⟨[a], fun b hb => ?_, rfl, rfl⟩
  rw [List.mem_singleton.mp hb, ha]

theorem left {v v' : System V} (h : InStep w w' v v') : InStep w w v v := by
  obtain ⟨schedule, hschedule, rfl, -⟩ := h
  exact ⟨schedule, hschedule, rfl, rfl⟩

theorem right {v v' : System V} (h : InStep w w' v v') : InStep w' w' v' v' := by
  obtain ⟨schedule, hschedule, -, rfl⟩ := h
  exact ⟨schedule, hschedule, rfl, rfl⟩

end InStep

/-- Two runs that lead to systems which are alike but for a consumer in the hands of a caller. -/
structure Twin (r : ReservationId) (w w' : System V) : Prop where
  /-- The one comes from a run. -/
  exists_run : ∃ actions, w = run {} actions
  /-- And so does the other. -/
  exists_run' : ∃ actions, w' = run {} actions
  /-- They are alike. -/
  alike : Alike r w w'
  /-- The reservation is there, and a caller has made it. -/
  owned : Owned r w

namespace Twin

variable {v v' : System V}

theorem left (h : Twin r w w') : Twin r w w :=
  ⟨h.exists_run, h.exists_run, .refl r w, h.owned⟩

theorem right (h : Twin r w w') : Twin r w' w' := by
  obtain ⟨x, hx, hparent⟩ := h.owned
  obtain ⟨c, hx', -⟩ := h.alike.exists_getElem? hx
  exact ⟨h.exists_run', h.exists_run', .refl r w', _, hx', hparent⟩

/-- Whoever goes on in step stays alike. -/
theorem inStep (h : Twin r w w') (hstep : InStep w w' v v') : Twin r v v' := by
  obtain ⟨⟨actions, rfl⟩, ⟨actions', rfl⟩, halike, howned⟩ := h
  obtain ⟨schedule, hschedule, rfl, rfl⟩ := hstep
  refine ⟨⟨actions ++ schedule, (run_append ..).symm⟩, ⟨actions' ++ schedule, (run_append ..).symm⟩,
    halike.run howned fun a ha => ?_, howned.run schedule⟩
  rw [hschedule a ha]
  nofun

/-- The scheduler takes the same actions in both. -/
theorem settleWithin (h : Twin r w w') (n : Nat) :
    InStep w w' (w.settleWithin n) (w'.settleWithin n) := by
  induction n generalizing w w' with
  | zero => exact .refl w w'
  | succ n ih =>
    have hfree : w.Unawaited r := by
      obtain ⟨⟨actions, rfl⟩, -, -, howned⟩ := h
      exact howned.unawaited
    rw [System.settleWithin, System.settleWithin, h.alike.next?_eq h.owned hfree]
    split
    next a ha =>
      have hact : InStep w w' (w.act a) (w'.act a) := .act (handle?_of_next? ha) w w'
      exact hact.trans (ih (h.inStep hact))
    next => exact .refl w w'

/-- The scheduler comes to rest after the same actions in both. -/
theorem settle (h : Twin r w w') : InStep w w' w.settle w'.settle := by
  have hsettle := h.settleWithin w.patience
  rwa [System.settle, System.settle, h.alike.patience_eq]

/-- The scheduler lets the same time pass in both. -/
theorem quiesceWithin (h : Twin r w w') (deadline : Option Nat) (n : Nat) :
    InStep w w' (w.quiesceWithin deadline n) (w'.quiesceWithin deadline n) := by
  induction n generalizing w w' with
  | zero => exact h.settle
  | succ n ih =>
    have hsettled := h.inStep h.settle
    rw [System.quiesceWithin, System.quiesceWithin, hsettled.alike.nextTime?_eq,
      hsettled.alike.clock_eq]
    split
    next t ht =>
      split
      · have hpass := InStep.act (a := .pass (t - w.settle.clock)) rfl w.settle w'.settle
        exact (h.settle.trans hpass).trans (ih (hsettled.inStep hpass))
      · exact h.settle
    next => exact h.settle

/-- The scheduler does the same in both. -/
theorem quiesce (h : Twin r w w') (deadline : Option Nat) :
    InStep w w' (w.quiesce deadline) (w'.quiesce deadline) := by
  have hquiesce := h.quiesceWithin deadline w.patience
  rwa [System.quiesce, System.quiesce, h.alike.patience_eq]

/-- The scheduler does the same in both, twice. -/
theorem quiesce_quiesce (h : Twin r w w') (deadline : Option Nat) :
    InStep w w' ((w.quiesce deadline).quiesce deadline) ((w'.quiesce deadline).quiesce deadline) :=
  (h.quiesce deadline).trans ((h.inStep (h.quiesce deadline)).quiesce deadline)

end Twin

/-! ## Deadlines -/

/-- A system at rest stays as it is until time passes. -/
theorem settleWithin_of_next?_eq_none (h : w.next? = none) (n : Nat) : w.settleWithin n = w := by
  cases n with
  | zero => rfl
  | succ n => rw [settleWithin, h]

/-- A scheduler that has stopped at a deadline does nothing more before it. -/
theorem quiesceWithin_of_stopped {deadline : Option Nat} {t : Nat} (hnext : w.next? = none)
    (ht : w.nextTime? = some t) (hstopped : deadline.all (t < ·) = false) (n : Nat) :
    w.quiesceWithin deadline n = w := by
  have hsettle : w.settle = w := settleWithin_of_next?_eq_none hnext _
  cases n with
  | zero => exact hsettle
  | succ n =>
    rw [quiesceWithin, hsettle]
    simp only [ht, hstopped, Bool.false_eq_true, if_false]

/-- What the scheduler does without a deadline goes on where it stops at one. -/
theorem exists_further_quiesceWithin (h : Twin r w w) (deadline : Option Nat) (n : Nat) :
    InStep (w.quiesceWithin deadline n) (w.quiesceWithin deadline n) (w.quiesceWithin none n)
        (w.quiesceWithin none n) ∧
      (w.quiesceWithin none n = w.quiesceWithin deadline n ∨
        ∀ m, (w.quiesceWithin deadline n).quiesceWithin deadline m =
          w.quiesceWithin deadline n) := by
  induction n generalizing w with
  | zero => exact ⟨.refl .., .inl rfl⟩
  | succ n ih =>
    have hsettled := h.inStep h.settle
    rw [quiesceWithin, quiesceWithin]
    rcases ht : w.settle.nextTime? with _ | t
    · exact ⟨.refl .., .inl rfl⟩
    · have hpass := InStep.act (a := .pass (t - w.settle.clock)) rfl w.settle w.settle
      simp only [Option.all_none, if_true]
      split
      · -- Up to the deadline both take the same steps.
        exact ih (hsettled.inStep hpass)
      next hstopped =>
        -- What happens next is past the deadline, where the bounded scheduler stops for good.
        refine ⟨hpass.trans ((hsettled.inStep hpass).quiesceWithin none n), .inr fun m => ?_⟩
        have hrest : w.settle.next? = none := by
          obtain ⟨⟨actions, rfl⟩, -⟩ := h
          exact next?_settle actions
        exact quiesceWithin_of_stopped hrest ht (by simpa using hstopped) m

/-- What the scheduler does without a deadline, twice, goes on where it stops at one. -/
theorem exists_further_quiesce (h : Twin r w w) (deadline : Option Nat) :
    InStep ((w.quiesce deadline).quiesce deadline) ((w.quiesce deadline).quiesce deadline)
      ((w.quiesce none).quiesce none) ((w.quiesce none).quiesce none) := by
  have hfirst := h.inStep (h.quiesce deadline)
  obtain ⟨hfurther, hsame | hstopped⟩ := exists_further_quiesceWithin h deadline w.patience
  · have hquiesce : w.quiesce none = w.quiesce deadline := hsame
    rw [hquiesce]
    exact (exists_further_quiesceWithin hfirst deadline _).1
  · have hquiesce : (w.quiesce deadline).quiesce deadline = w.quiesce deadline := hstopped _
    rw [hquiesce]
    have hlater : Twin r (w.quiesce none) (w.quiesce none) := hfirst.inStep hfurther
    exact InStep.trans hfurther (hlater.quiesce none)

end System

end Deferral
