import Deferral.Proofs.System.Inner
import Deferral.Proofs.System.Schedule

/-!
# Nobody waits for ever

A task waits for a gate, for a time of day, for its turn, or for the result of a reservation that it
has made. Such a reservation comes after that of the task, so tasks never wait for each other in a
circle. When nothing is left to be done, every gate that a task waits for is open, and no task
sleeps, then everything that was launched is over (`isOver_of_atRest`). A run can always be brought
that far by opening gates and letting time pass, with the tasks acting by themselves
(`exists_atRest`).

Main statements:
* `isOver_of_atRest`: in every run, when all is at rest, what was launched is over.
* `exists_atRest`: every run comes to rest if gates are opened and time passes.
-/

namespace Deferral.System

variable {V : Type} {w w' : System V} {r c : ReservationId} {x z : Reservation V}

/-! ## Nothing left to be done -/

/-- Nothing is left to be done, however many gates are opened and however much time passes. -/
structure AtRest (w : System V) : Prop where
  /-- No task can act. -/
  next?_eq : w.next? = none
  /-- No task sleeps. -/
  nextTime?_eq : w.nextTime? = none
  /-- The gates that tasks wait for are open. -/
  mem_gates : ∀ (r : ReservationId) (x : Reservation V) (g : String), w.reservations[r]? = some x →
    x.phase = .paused (.gate g) → g ∈ w.gates

/-- A reservation has nothing to do by itself. -/
structure Idle (w : System V) (x : Reservation V) : Prop where
  /-- If a computation has made it, its launch has returned. -/
  isSettled : x.parent ≠ none → x.phase ≠ .captured → x.isSettled = true
  /-- It does not wait for a thread. -/
  ne_queued : x.phase ≠ .queued
  /-- If it is paused, what it waits for has not come, and it is not to be dropped. -/
  paused : ∀ pause, x.phase = .paused pause → w.isDoomed x = false ∧ w.isDue pause = false
  /-- If it has a thread, it waits there. -/
  active : x.phase.isActive = true → w.canStep x = false

/-- A launch that is over in every respect has returned. -/
theorem isSettled_of_not_launching (hcaptured : x.phase ≠ .captured)
    (hlaunching : x.phase ≠ .launching) (hcleared : x.phase ≠ .cleared)
    (hholds : x.phase.isLaunched = true → x.holdsScope = false)
    (hattaching : x.phase.isLaunched = true → x.consumer.attaching = none) :
    x.isSettled = true := by
  have hlaunched : x.phase.isLaunched = true := by
    cases hphase : x.phase with
    | captured => exact absurd hphase hcaptured
    | launching => exact absurd hphase hlaunching
    | cleared => exact absurd hphase hcleared
    | queued | paused | active | ended | dropped => rfl
  simp [Reservation.isSettled, hlaunched, hholds hlaunched, hattaching hlaunched]

/-- A reservation has nothing to do if it can take no action by itself. -/
theorem idle_of_nextAction?_eq_none (h : w.nextAction? x r = none) : w.Idle x := by
  simp only [nextAction?, Bool.and_eq_true, decide_eq_true_eq] at h
  -- No step of a launch by a computation is left.
  split at h
  · cases h
  next hlaunching =>
  split at h
  · cases h
  next hcleared =>
  split at h
  · cases h
  next hholds =>
  split at h
  · cases h
  next hattaching =>
  refine ⟨fun hparent hcaptured => ?_, fun hphase => ?_, fun pause hphase => ?_, fun hactive => ?_⟩
  · have hsome : x.parent.isSome = true := Option.isSome_iff_ne_none.mpr hparent
    exact isSettled_of_not_launching hcaptured (fun hphase => hlaunching ⟨hsome, hphase⟩)
      (fun hphase => hcleared ⟨hsome, hphase⟩)
      (fun hlaunched => by simpa [hsome, hlaunched] using hholds)
      (fun hlaunched => by simpa [hsome, hlaunched] using hattaching)
  · rw [hphase] at h
    dsimp only at h
    split at h <;> cases h
  · rw [hphase] at h
    dsimp only at h
    split at h
    · cases h
    next hdoomed =>
    split at h
    · cases h
    next hdue => exact ⟨Bool.eq_false_iff.mpr hdoomed, Bool.eq_false_iff.mpr hdue⟩
  · cases hphase : x.phase with
    | active activity =>
      rw [hphase] at h
      dsimp only at h
      split at h
      · cases h
      next hcan => exact Bool.eq_false_iff.mpr hcan
    | captured | launching | cleared | queued | paused | ended | dropped =>
      rw [hphase] at hactive
      cases hactive

/-- When no task can act, no reservation has anything to do. -/
theorem idle_of_next?_eq_none (h : w.next? = none) (hx : w.reservations[r]? = some x) :
    w.Idle x := by
  refine idle_of_nextAction?_eq_none (r := r) ?_
  exact List.findSome?_eq_none_iff.mp h (x, r) (List.mem_zipIdx_iff_getElem?.mpr hx)

/-- When nobody sleeps, no task waits for a time of day unless it is doomed. -/
theorem isDoomed_of_nextTime?_eq_none {t : Nat} (h : w.nextTime? = none)
    (hx : w.reservations[r]? = some x) (hphase : x.phase = .paused (.until t)) :
    w.isDoomed x = true := by
  by_contra hspared
  rw [nextTime?, List.min?_eq_none_iff] at h
  have hnone := List.filterMap_eq_nil_iff.mp h x (List.mem_of_getElem? hx)
  simp [hphase, hspared] at hnone

/-! ## Tasks that wait for results -/

/-- In every run, the result of a nested reservation is found by the computation that waits for it,
as soon as the reservation is over and its launch has returned. -/
theorem isReady_of_tends {actions : List (Action V)} {access : Access}
    (htends : (run {} actions).Tends r x c access z) (hover : z.phase.isOver = true)
    (hsettled : z.isSettled = true) : z.consumer.isReady = true := by
  have hz := htends.getElem?_eq
  have hparent : z.parent ≠ none := by
    rw [htends.parent_eq]
    nofun
  -- What was launched is not over without an outcome.
  have hlaunches : z.launches ≠ 0 := by
    rw [(started_run hz).launches_eq hparent]
    exact Nat.one_ne_zero
  obtain ⟨o, rest, houtcomes⟩ :=
    List.exists_cons_of_ne_nil ((sound_run hz).outcomes_ne_nil hlaunches hover)
  obtain ⟨callback?, howes⟩ : ∃ callback?, z.consumer.Owes callback? z.outcomes.head? := by
    rcases owes_inner_run hz hparent with hgone | ⟨-, -, howes⟩
    · rw [htends.handle_eq] at hgone
      cases access <;> cases hgone
    · exact howes
  have hlook := (howes.look (attaching_eq_none_of_isSettled hsettled).2
    (htends.handle_eq ▸ access.isPolled_or_waiting) .thread).1
  rw [← Consumer.look_isSome .thread, hlook, houtcomes]
  rfl

/-- In every run, a computation waits for what comes after it. -/
theorem lt_of_awaits {actions : List (Action V)} (hx : (run {} actions).reservations[r]? = some x)
    (hawaits : x.phase.awaited? = some c) : r < c := by
  obtain ⟨-, access, z, htends, -⟩ := exists_awaited hx hawaits
  exact parent_lt_run htends.getElem?_eq htends.parent_eq

/-- When all is at rest, the result that a computation waits for is there, if what was launched
to give it is over. -/
theorem exists_ready_of_atRest {actions : List (Action V)} (hrest : (run {} actions).AtRest)
    (hx : (run {} actions).reservations[r]? = some x) (hawaits : x.phase.awaited? = some c)
    (hover : ∀ z, (run {} actions).reservations[c]? = some z → z.phase.isLaunched = true →
      z.phase.isOver = true) :
    ∃ access z, (run {} actions).Tends r x c access z ∧ z.isSettled = true ∧
      z.consumer.isReady = true := by
  obtain ⟨-, access, z, htends, hcaptured⟩ := exists_awaited hx hawaits
  have hz := htends.getElem?_eq
  have hparent : z.parent ≠ none := by
    rw [htends.parent_eq]
    nofun
  have hsettled := (idle_of_next?_eq_none hrest.next?_eq hz).isSettled hparent hcaptured
  have hlaunched := (attaching_eq_none_of_isSettled hsettled).1
  exact ⟨access, z, htends, hsettled, isReady_of_tends htends (hover z hz hlaunched) hsettled⟩

/-- In every run, when all is at rest, everything that was launched is over. -/
theorem isOver_of_atRest {actions : List (Action V)} (hrest : (run {} actions).AtRest)
    (hx : (run {} actions).reservations[r]? = some x) (hlaunched : x.phase.isLaunched = true) :
    x.phase.isOver = true := by
  -- What a task waits for comes after it, so the last reservations are looked at first.
  induction hn : (run {} actions).reservations.length - r using Nat.strongRecOn
    generalizing r x with
  | ind n ih =>
    have hidle := idle_of_next?_eq_none hrest.next?_eq hx
    have hlater {c : ReservationId} (hc : r < c) (z : Reservation V)
        (hz : (run {} actions).reservations[c]? = some z) (hlaunched : z.phase.isLaunched = true) :
        z.phase.isOver = true := by
      have hindex := (List.getElem?_eq_some_iff.mp hz).1
      exact ih _ (hn ▸ Nat.sub_lt_sub_left (Nat.lt_trans hc hindex) hc) hz hlaunched rfl
    have hready {c : ReservationId} (hawaits : x.phase.awaited? = some c) :=
      exists_ready_of_atRest hrest hx hawaits (hlater (lt_of_awaits hx hawaits))
    cases hphase : x.phase with
    | captured | launching | cleared =>
      rw [hphase] at hlaunched
      cases hlaunched
    | queued => exact absurd hphase hidle.ne_queued
    | paused pause =>
      obtain ⟨hspared, hdue⟩ := hidle.paused pause hphase
      cases pause with
      | gate g =>
        have hopen := hrest.mem_gates r x g hx hphase
        simp [isDue, hopen] at hdue
      | turn => cases hdue
      | «until» t =>
        cases hspared.symm.trans (isDoomed_of_nextTime?_eq_none hrest.nextTime?_eq hx hphase)
      | inner c =>
        obtain ⟨access, z, htends, -, hready⟩ := hready (by rw [hphase]; rfl)
        simp [isDue, htends.getElem?_eq, hready] at hdue
    | active activity =>
      have hstays := hidle.active (by rw [hphase]; rfl)
      cases activity with
      | step | closing => simp [canStep, hphase] at hstays
      | engaged c =>
        obtain ⟨access, z, htends, hsettled, hready⟩ := hready (by rw [hphase]; rfl)
        obtain ⟨rest, hawait⟩ := htends.rest_eq
        simp [canStep, hphase, hawait, htends.getElem?_eq, hsettled, hready] at hstays
    | ended | dropped => rfl

/-! ## Runs that nobody attends to -/

/-- When a gate is opened, a task that waits for it can act. -/
theorem next?_openGate_ne_none {g : String} (hx : w.reservations[r]? = some x)
    (hphase : x.phase = .paused (.gate g)) : (w.act (.openGate g)).next? ≠ none := by
  intro hnone
  have hx' : (w.act (.openGate g)).reservations[r]? = some x := by
    rw [act, reservations_openGate, hx]
  have hdue := ((idle_of_next?_eq_none hnone hx').paused _ hphase).2
  have hopen : g ∈ (w.act (.openGate g)).gates := by
    rw [act, openGate]
    split
    next hmem => exact hmem
    next => exact List.mem_cons_self
  simp [isDue, hopen] at hdue

/-- When enough time has passed, the first task that sleeps can act. -/
theorem next?_pass_ne_none {t : Nat} (htime : w.nextTime? = some t) :
    (w.act (.pass (t - w.clock))).next? ≠ none := by
  intro hnone
  obtain ⟨x, hx, hsleeps⟩ := List.mem_filterMap.mp (List.min?_mem htime)
  obtain ⟨r, hr⟩ := List.getElem?_of_mem hx
  split at hsleeps
  next u hphase =>
    split at hsleeps
    · cases hsleeps
    · obtain rfl := Option.some.inj hsleeps
      have hdue := ((idle_of_next?_eq_none (w := w.act (.pass (u - w.clock))) hnone hr).paused _
        hphase).2
      have hpassed : u ≤ w.clock + (u - w.clock) := by omega
      simp [isDue, act, hpassed] at hdue
  next => cases hsleeps

/-- Unless all is at rest, a task can act, at the latest when time has passed or a
gate was opened. -/
theorem exists_next?_of_not_atRest (h : ¬w.AtRest) : ∃ early : List (Action V),
    (∀ a ∈ early, a.isUnattended = true) ∧ (w.run early).reservations = w.reservations ∧
      ∃ a, (w.run early).next? = some a := by
  cases hnext : w.next? with
  | some a => exact ⟨[], List.forall_mem_nil _, rfl, a, hnext⟩
  | none =>
    cases htime : w.nextTime? with
    | some t =>
      exact ⟨[.pass (t - w.clock)], List.forall_mem_singleton.mpr rfl, rfl,
        Option.ne_none_iff_exists'.mp (next?_pass_ne_none htime)⟩
    | none =>
      -- Nobody sleeps, so somebody waits for a gate.
      obtain ⟨r, x, g, hx, hphase⟩ : ∃ (r : ReservationId) (x : Reservation V) (g : String),
          w.reservations[r]? = some x ∧ x.phase = .paused (.gate g) := by
        by_contra hnobody
        exact h ⟨hnext, htime, fun r x g hx hphase => absurd ⟨r, x, g, hx, hphase⟩ hnobody⟩
      exact ⟨[.openGate g], List.forall_mem_singleton.mpr rfl, reservations_openGate ..,
        Option.ne_none_iff_exists'.mp (next?_openGate_ne_none hx hphase)⟩

/-- Every run comes to rest if gates are opened and time passes, without any call. -/
theorem exists_atRest (actions : List (Action V)) : ∃ further : List (Action V),
    (∀ a ∈ further, a.isUnattended = true) ∧ ((run {} actions).run further).AtRest := by
  induction hn : (run {} actions : System V).effort using Nat.strongRecOn generalizing actions with
  | ind n ih =>
    by_cases hrest : (run {} actions : System V).AtRest
    · exact ⟨[], List.forall_mem_nil _, hrest⟩
    · -- What comes before the action that is next adds nothing to the effort, and that takes
      -- away from it.
      obtain ⟨early, hearly, hsame, a, ha⟩ := exists_next?_of_not_atRest hrest
      rw [← run_append] at hsame ha
      have heffort : (run {} (actions ++ early) : System V).effort = n := by
        rw [← hn, effort, effort, hsame]
      have hlt := effort_act_lt ha
      rw [heffort, ← run_concat] at hlt
      obtain ⟨further, hfurther, hrest⟩ := ih _ hlt (actions ++ early ++ [a]) rfl
      refine ⟨early ++ a :: further, ?_, ?_⟩
      · exact List.forall_mem_append.mpr
          ⟨hearly, List.forall_mem_cons.mpr ⟨isUnattended_of_next? ha, hfurther⟩⟩
      · rw [run_concat, run_append] at hrest
        rwa [run_append, run_cons]

end Deferral.System
