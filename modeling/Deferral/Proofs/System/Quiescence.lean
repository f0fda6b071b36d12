import Deferral.Proofs.System.Progress

/-!
# How far the scheduler goes

The scheduler only takes actions of reservations and lets time pass. Every action takes away from
the effort that the reservations have still to make, and whenever the scheduler lets time pass to
wake a task up, that task can act. So a scheduler with as many turns as there is effort goes on
until no task can act and none sleeps. What is left then waits for a gate.

Main statements:
* `scheduled_quiesce`: what the scheduler does is a run that nobody attends to.
* `rests_quiesce`: without a deadline it goes on until no task can act and none sleeps.
* `atRest_quiesce`: it leaves all at rest if no task waits for a gate.
-/

namespace Deferral.System

variable {V : Type} {w : System V} {actions : List (Action V)}

/-! ## Schedules -/

/-- The system `w'` comes from `w` by actions of this kind. -/
def Via (P : Action V → Prop) (w w' : System V) : Prop :=
  ∃ later : List (Action V), (∀ a ∈ later, P a) ∧ w' = w.run later

namespace Via

variable {P Q : Action V → Prop} {w' w'' : System V}

theorem refl (P : Action V → Prop) (w : System V) : Via P w w :=
  ⟨[], List.forall_mem_nil _, rfl⟩

theorem act {a : Action V} (ha : P a) (w : System V) : Via P w (w.act a) :=
  ⟨[a], List.forall_mem_singleton.mpr ha, rfl⟩

theorem trans (h : Via P w w') (h' : Via P w' w'') : Via P w w'' := by
  obtain ⟨later, hlater, rfl⟩ := h
  obtain ⟨later', hlater', rfl⟩ := h'
  exact ⟨later ++ later', List.forall_mem_append.mpr ⟨hlater, hlater'⟩, (run_append ..).symm⟩

theorem mono (h : Via P w w') (himp : ∀ a, P a → Q a) : Via Q w w' := by
  obtain ⟨later, hlater, rfl⟩ := h
  exact ⟨later, fun a ha => himp a (hlater a ha), rfl⟩

/-- What comes from a run is a run that goes on. -/
theorem exists_run (h : Via P (run {} actions) w') :
    ∃ later, (∀ a ∈ later, P a) ∧ w' = run {} (actions ++ later) := by
  obtain ⟨later, hlater, rfl⟩ := h
  exact ⟨later, hlater, (run_append ..).symm⟩

end Via

/-- The system `w'` comes from `w` by actions that nobody attends to. -/
abbrev Scheduled : System V → System V → Prop :=
  Via fun a => a.isUnattended = true

theorem Scheduled.act {a : Action V} (ha : a.isUnattended = true) (w : System V) :
    Scheduled w (w.act a) :=
  Via.act ha w

/-- The tasks take actions that nobody attends to. -/
theorem scheduled_settleWithin (n : Nat) (w : System V) : Scheduled w (w.settleWithin n) := by
  induction n generalizing w with
  | zero => exact .refl _ w
  | succ n ih =>
    rw [settleWithin]
    split
    next a ha => exact (Scheduled.act (isUnattended_of_next? ha) w).trans (ih _)
    next => exact .refl _ w

/-- Nobody attends to what the scheduler does. -/
theorem scheduled_quiesceWithin (deadline : Option Nat) (n : Nat) (w : System V) :
    Scheduled w (w.quiesceWithin deadline n) := by
  induction n generalizing w with
  | zero => exact scheduled_settleWithin _ w
  | succ n ih =>
    have hsettle : Scheduled w w.settle := scheduled_settleWithin _ w
    rw [quiesceWithin]
    split
    next t ht =>
      split
      · exact (hsettle.trans (Scheduled.act rfl _)).trans (ih _)
      · exact hsettle
    next => exact hsettle

/-- Nobody attends to what the scheduler does. -/
theorem scheduled_quiesce (deadline : Option Nat) (w : System V) :
    Scheduled w (w.quiesce deadline) :=
  scheduled_quiesceWithin deadline _ w

/-! ## Turns -/

/-- Tasks that act take away from the effort, and do not add to it. -/
theorem effort_settleWithin_le (actions : List (Action V)) (n : Nat) :
    ((run {} actions).settleWithin n).effort ≤ (run {} actions : System V).effort := by
  induction n generalizing actions with
  | zero => exact Nat.le_refl _
  | succ n ih =>
    rw [settleWithin]
    split
    next a ha =>
      have hlt := effort_act_lt ha
      have hle := ih (actions ++ [a])
      rw [run_concat] at hle
      omega
    next => exact Nat.le_refl _

/-- If a task can act, effort is taken away. -/
theorem effort_settle_lt (hnext : (run {} actions : System V).next? ≠ none) :
    (run {} actions : System V).settle.effort < (run {} actions : System V).effort := by
  obtain ⟨a, ha⟩ := Option.ne_none_iff_exists'.mp hnext
  have hlt := effort_act_lt ha
  -- As there is effort to be made, the scheduler takes the action.
  obtain ⟨n, hn⟩ : ∃ n, (run {} actions : System V).patience = n + 1 := by
    have hle := effort_le_patience (run {} actions : System V)
    exact ⟨(run {} actions : System V).patience - 1, by omega⟩
  have hle := effort_settleWithin_le (actions ++ [a]) n
  rw [run_concat] at hle
  rw [settle, hn, settleWithin, ha]
  exact Nat.lt_of_le_of_lt hle hlt

/-- When time has passed for the first task that sleeps, effort is taken away. -/
theorem exists_effort_pass_lt {t : Nat}
    (ht : (run {} actions : System V).settle.nextTime? = some t) :
    ∃ later, (run {} actions : System V).settle.act (.pass (t - (run {} actions).settle.clock)) =
        run {} later ∧
      (run {} later : System V).settle.effort < (run {} actions : System V).settle.effort := by
  have hnext := next?_pass_ne_none ht
  obtain ⟨schedule, -, hsettle⟩ := (scheduled_settleWithin _ (run {} actions)).exists_run
  have hlater : (run {} actions : System V).settle.act (.pass (t - (run {} actions).settle.clock)) =
      run {} (actions ++ schedule ++ [.pass (t - (run {} actions).settle.clock)]) := by
    rw [run_concat, ← hsettle]
    rfl
  rw [hlater] at hnext
  refine ⟨_, hlater, Nat.lt_of_lt_of_eq (effort_settle_lt hnext) ?_⟩
  -- To let time pass takes no effort away by itself.
  rw [← hlater]
  rfl

/-- A scheduler with as many turns as there is effort left goes on until no task can
act and none sleeps. -/
theorem rests_quiesceWithin {n : Nat} (hn : (run {} actions : System V).settle.effort ≤ n) :
    ((run {} actions).quiesceWithin none n).next? = none ∧
      ((run {} actions).quiesceWithin none n).nextTime? = none := by
  induction n generalizing actions with
  | zero =>
    refine ⟨next?_settle actions, ?_⟩
    by_contra htime
    obtain ⟨t, ht⟩ := Option.ne_none_iff_exists'.mp htime
    obtain ⟨later, -, hlt⟩ := exists_effort_pass_lt ht
    omega
  | succ n ih =>
    rw [quiesceWithin]
    split
    next t ht =>
      obtain ⟨later, hlater, hlt⟩ := exists_effort_pass_lt ht
      rw [Option.all_none, if_pos rfl, hlater]
      exact ih (by omega)
    next htime => exact ⟨next?_settle actions, htime⟩

/-- In every run, the scheduler goes on until no task can act and none sleeps. -/
theorem rests_quiesce (actions : List (Action V)) :
    ((run {} actions : System V).quiesce none).next? = none ∧
      ((run {} actions : System V).quiesce none).nextTime? = none :=
  rests_quiesceWithin (Nat.le_trans (effort_settleWithin_le actions _) (effort_le_patience _))

/-- In every run, the scheduler leaves all at rest if no task waits for a gate then. -/
theorem atRest_quiesce
    (hgates : ∀ (r : ReservationId) (x : Reservation V) (g : String),
      ((run {} actions : System V).quiesce none).reservations[r]? = some x →
        x.phase ≠ .paused (.gate g)) : ((run {} actions : System V).quiesce none).AtRest where
  next?_eq := (rests_quiesce actions).1
  nextTime?_eq := (rests_quiesce actions).2
  mem_gates r x g hx hphase := absurd hphase (hgates r x g hx)

end Deferral.System
