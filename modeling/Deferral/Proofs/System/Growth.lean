import Deferral.Proofs.System.Action
import Deferral.Proofs.System.Aging
import Mathlib.Data.List.Induction

/-!
# What lasts throughout a run

A reservation keeps its scope and its computation, the outcomes published for it stay published, and
once its computation is over it stays as it is. The scopes that a system refers to are there, with
their pools, and a pool that was shut down stays so.

Main statements:
* `exists_grows_run`: how a reservation develops in any run.
* `run_induction`, `run_induction_from`: induction along a run for one reservation, with a case for
  each way in which the last action can have led to it.
* `valid_run`: no run refers to a scope or a pool that there is not.
* `isDown_run`: in any run, a pool that was shut down stays so.
-/

namespace Deferral

variable {V : Type}

/-- The reservation `x` can have become `x'`. -/
structure Reservation.Grows (x x' : Reservation V) : Prop where
  /-- It stays nested where it was. -/
  parent_eq : x'.parent = x.parent
  /-- It stays on its scope. -/
  scope_eq : x'.scope = x.scope
  /-- What was captured stays captured. -/
  computation_eq : x'.computation = x.computation
  /-- The steps that remain mention no other scopes. -/
  mentions_subset : x'.rest.mentions ⊆ x.rest.mentions
  /-- A launch is not undone. -/
  launches_le : x.launches ≤ x'.launches
  /-- What was handed to a pool was handed to it for good. -/
  spawned_of_spawned : x.spawned = true → x'.spawned = true
  /-- An abort that was requested stays so. -/
  aborted_of_aborted : x.aborted = true → x'.aborted = true
  /-- An outcome that was published stays published. -/
  outcomes_prefix : x.outcomes <+: x'.outcomes
  /-- A computation that is over stays so, and no further outcome is published. -/
  eq_of_isOver : x.phase.isOver = true → x'.phase = x.phase ∧ x'.outcomes = x.outcomes

namespace Reservation.Grows

/-- A reservation can stay as it is. -/
theorem refl (x : Reservation V) : x.Grows x where
  parent_eq := rfl
  scope_eq := rfl
  computation_eq := rfl
  mentions_subset := List.Subset.refl _
  launches_le := Nat.le_refl _
  spawned_of_spawned h := h
  aborted_of_aborted h := h
  outcomes_prefix := List.prefix_rfl
  eq_of_isOver _ := ⟨rfl, rfl⟩

/-- A reservation can go on growing. -/
theorem trans {x x' x'' : Reservation V} (h : x.Grows x') (h' : x'.Grows x'') : x.Grows x'' where
  parent_eq := h'.parent_eq.trans h.parent_eq
  scope_eq := h'.scope_eq.trans h.scope_eq
  computation_eq := h'.computation_eq.trans h.computation_eq
  mentions_subset := List.Subset.trans h'.mentions_subset h.mentions_subset
  launches_le := Nat.le_trans h.launches_le h'.launches_le
  spawned_of_spawned hspawned := h'.spawned_of_spawned (h.spawned_of_spawned hspawned)
  aborted_of_aborted haborted := h'.aborted_of_aborted (h.aborted_of_aborted haborted)
  outcomes_prefix := h.outcomes_prefix.trans h'.outcomes_prefix
  eq_of_isOver hover := by
    obtain ⟨hphase, houtcomes⟩ := h.eq_of_isOver hover
    obtain ⟨hphase', houtcomes'⟩ := h'.eq_of_isOver (hphase ▸ hover)
    exact ⟨hphase'.trans hphase, houtcomes'.trans houtcomes⟩

/-- A computation that is not over was not over before. -/
theorem isOver_eq_false {x x' : Reservation V} (h : x.Grows x') (hover : x'.phase.isOver = false) :
    x.phase.isOver = false := by
  cases hx : x.phase.isOver with
  | false => rfl
  | true =>
    rw [(h.eq_of_isOver hx).1, hx] at hover
    cases hover

/-- What was launched stays so. -/
theorem launches_ne_zero {x x' : Reservation V} (h : x.Grows x') (hlaunches : x.launches ≠ 0) :
    x'.launches ≠ 0 := by
  intro hzero
  exact hlaunches (Nat.le_zero.mp (hzero ▸ h.launches_le))

/-- Where no abort is requested, none was requested before. -/
theorem aborted_eq_false {x x' : Reservation V} (h : x.Grows x') (haborted : x'.aborted = false) :
    x.aborted = false := by
  cases hx : x.aborted with
  | false => rfl
  | true => cases haborted.symm.trans (h.aborted_of_aborted hx)

end Reservation.Grows

namespace System

variable {w w' : System V} {a : Action V} {r : ReservationId} {x x' : Reservation V}

/-! ## Reservations -/

/-- Only the handle, the reference to the scope and the request for an abort of a computation that is
over still change. -/
theorem Change.exists_eq_of_isOver (h : w.Change r a x x') (hover : x.phase.isOver = true) :
    ∃ consumer holdsScope aborted,
      x' = { x with consumer := consumer, holdsScope := holdsScope, aborted := aborted } := by
  cases h with
  | handle | attach | letGo | abort => exact ⟨_, _, _, rfl⟩
  | launch hphase | clear hphase | clearDirectly hphase | queue hphase | discard hphase
  | start hphase | refuse _ _ hphase | lose hphase =>
    rw [hphase] at hover
    cases hover
  | advance _ hphase | engage _ hphase =>
    rw [Phase.isOver_of_isTask hphase] at hover
    cases hover
  | pause _ hphase | finish hphase =>
    rw [Phase.isOver_of_isActive hphase] at hover
    cases hover
  | drop _ hphase =>
    rw [Phase.isOver_of_isSuspended hphase] at hover
    cases hover

/-- The phase and the outcomes of a computation that is over change no more. -/
theorem Change.eq_of_isOver (h : w.Change r a x x') (hover : x.phase.isOver = true) :
    x'.phase = x.phase ∧ x'.outcomes = x.outcomes := by
  obtain ⟨_, _, _, rfl⟩ := h.exists_eq_of_isOver hover
  exact ⟨rfl, rfl⟩

/-- A launch that is about to look at the scope does nothing to the computation before it has. -/
theorem Change.cases_of_launching (h : w.Change r a x x') (hphase : x.phase = .launching) :
    (∃ consumer holdsScope aborted,
      x' = { x with consumer := consumer, holdsScope := holdsScope, aborted := aborted }) ∨
    (w.isClosed x.scope = true ∧ x' = x.conclude .dropped .dropped (.error .scopeClosed)) ∨
    (w.isClosed x.scope = false ∧ x' = { x with phase := .cleared }) := by
  cases h with
  | handle | attach | letGo | abort => exact .inl ⟨_, _, _, rfl⟩
  | refuse _ _ _ hclosed => exact .inr (.inl ⟨hclosed, rfl⟩)
  | clear _ hopen => exact .inr (.inr ⟨hopen, rfl⟩)
  | launch hphase' | clearDirectly hphase' | queue hphase' | lose hphase' | discard hphase'
  | start hphase' | advance _ hphase' | pause _ hphase' | engage _ hphase' | finish hphase'
  | drop _ hphase' => simp [hphase, Phase.isActive, Phase.isPaused, Phase.isSuspended] at hphase'

/-- A suspended task is left alone, taken up again unless it is doomed, or dropped if it is. -/
theorem Change.cases_of_isSuspended (h : w.Change r a x x')
    (hsuspended : x.phase.isSuspended = true) :
    (∃ consumer holdsScope aborted,
      x' = { x with consumer := consumer, holdsScope := holdsScope, aborted := aborted }) ∨
    (w.isDoomed x = false ∧ (x.phase = .queued ∨ w.Carries r a x)) ∨
    (a = .dropTask r ∧ x' = x.conclude .dropped .dropped (.error .cancelled)) := by
  have hinactive := Phase.isActive_of_isSuspended hsuspended
  cases h with
  | handle | attach | letGo | abort => exact .inl ⟨_, _, _, rfl⟩
  | launch hphase | clear hphase | clearDirectly hphase | queue hphase | discard hphase
  | refuse _ _ hphase | lose hphase =>
    rw [hphase] at hsuspended
    cases hsuspended
  | start hphase hspared => exact .inr (.inl ⟨hspared, .inl hphase⟩)
  | advance _ htask _ _ hcarries | engage _ htask _ hcarries =>
    obtain hactive | ⟨-, hspared⟩ := htask
    · cases hinactive.symm.trans hactive
    · exact .inr (.inl ⟨hspared, .inr hcarries⟩)
  | pause _ hactive | finish hactive => cases hinactive.symm.trans hactive
  | drop ha => exact .inr (.inr ⟨ha, rfl⟩)

/-- Every change lets a reservation grow. -/
theorem Change.grows (h : w.Change r a x x') : x.Grows x' := by
  have hover := h.eq_of_isOver
  cases h with
  | handle | attach | clear | clearDirectly | letGo | discard | start | pause | engage =>
    exact ⟨rfl, rfl, rfl, List.Subset.refl _, Nat.le_refl _, id, id, List.prefix_rfl, hover⟩
  | launch =>
    exact ⟨rfl, rfl, rfl, List.Subset.refl _, Nat.le_succ _, id, id, List.prefix_rfl, hover⟩
  | queue =>
    exact ⟨rfl, rfl, rfl, List.Subset.refl _, Nat.le_refl _, fun _ => rfl, id,
      List.prefix_rfl, hover⟩
  | abort =>
    exact ⟨rfl, rfl, rfl, List.Subset.refl _, Nat.le_refl _, id, fun _ => rfl,
      List.prefix_rfl, hover⟩
  | advance =>
    exact ⟨rfl, rfl, rfl, Computation.mentions_tail_subset _, Nat.le_refl _, id, id,
      List.prefix_rfl, hover⟩
  -- These publish an outcome, after those that were published before.
  | refuse | finish | drop =>
    exact ⟨rfl, rfl, rfl, List.Subset.refl _, Nat.le_refl _, id, id, List.prefix_append .., hover⟩
  | lose =>
    exact ⟨rfl, rfl, rfl, List.Subset.refl _, Nat.le_refl _, fun _ => rfl, id,
      List.prefix_append .., hover⟩

/-- Every sequence of changes lets a reservation grow. -/
theorem Changes.grows (h : w.Changes r a x x') : x.Grows x' := by
  induction h with
  | refl => exact .refl x
  | tail _ hchange ih => exact ih.trans hchange.grows

/-- What a reservation is after an action, it has grown to. -/
theorem grows_of_act (hx : w.reservations[r]? = some x)
    (hx' : (w.act a).reservations[r]? = some x') : x.Grows x' :=
  Changes.grows (changes_of_act hx hx')

@[simp]
theorem run_nil (w : System V) : w.run [] = w := rfl

@[simp]
theorem run_cons (w : System V) (a : Action V) (actions : List (Action V)) :
    w.run (a :: actions) = (w.act a).run actions := rfl

@[simp]
theorem run_append (w : System V) (actions actions' : List (Action V)) :
    w.run (actions ++ actions') = (w.run actions).run actions' :=
  List.foldl_append ..

/-- The last action of a run is taken where the others have led to. -/
theorem run_concat (w : System V) (actions : List (Action V)) (a : Action V) :
    w.run (actions ++ [a]) = (w.run actions).act a := by
  rw [run_append, run_cons, run_nil]

/-- A system can be reached exactly by the runs from the beginning. -/
theorem reachable_iff_exists_run : w.Reachable ↔ ∃ actions, w = run {} actions := by
  constructor
  · intro h
    induction h with
    | empty => exact ⟨[], rfl⟩
    | act a _ ih =>
      obtain ⟨actions, rfl⟩ := ih
      exact ⟨actions ++ [a], by rw [run_concat]⟩
  · rintro ⟨actions, rfl⟩
    induction actions using List.reverseRecOn with
    | nil => exact .empty
    | append_singleton actions a ih =>
      rw [run_concat]
      exact .act a ih

/-- A reservation develops in a run, and is not removed. -/
theorem exists_grows_run (hx : w.reservations[r]? = some x) (actions : List (Action V)) :
    ∃ x', (w.run actions).reservations[r]? = some x' ∧ x.Grows x' := by
  induction actions generalizing w x with
  | nil => exact ⟨x, hx, .refl x⟩
  | cons a actions ih =>
    obtain ⟨x', hx', hchanges⟩ := exists_changes_act hx a
    obtain ⟨x'', hx'', hgrows⟩ := ih hx'
    exact ⟨x'', hx'', (Changes.grows hchanges).trans hgrows⟩

/-- What a reservation is after a run, it has grown to. -/
theorem grows_of_run {actions : List (Action V)} (hx : w.reservations[r]? = some x)
    (hx' : (w.run actions).reservations[r]? = some x') : x.Grows x' := by
  obtain ⟨y, hy, hgrows⟩ := exists_grows_run hx actions
  obtain rfl := Option.some.inj (hx'.symm.trans hy)
  exact hgrows

/-- Induction along a run for a reservation that is there after it: the reservation was there from
the beginning, or the last action has added it or has changed what it was before. -/
@[elab_as_elim]
theorem run_induction
    {motive : ∀ (actions : List (Action V)) (x : Reservation V),
      (w.run actions).reservations[r]? = some x → Prop}
    (start : ∀ {x} (hx : w.reservations[r]? = some x), motive [] x hx)
    (new : ∀ {actions a x} (hx : ((w.run actions).act a).reservations[r]? = some x),
      (w.run actions).reservations[r]? = none → (w.run actions).New a x →
        motive (actions ++ [a]) x (by rwa [run_concat]))
    (act : ∀ {actions a x y} (hx : ((w.run actions).act a).reservations[r]? = some x)
      (hy : (w.run actions).reservations[r]? = some y), (w.run actions).Changes r a y x →
        motive actions y hy → motive (actions ++ [a]) x (by rwa [run_concat]))
    {actions : List (Action V)} {x : Reservation V}
    (hx : (w.run actions).reservations[r]? = some x) : motive actions x hx := by
  induction actions using List.reverseRecOn generalizing x with
  | nil => exact start hx
  | append_singleton actions a ih =>
    have hact : ((w.run actions).act a).reservations[r]? = some x := by rwa [run_concat] at hx
    -- Which case it is depends on whether the reservation was there before the last action.
    cases hy : (w.run actions).reservations[r]? with
    | none => exact new hact hy ((leads_act _ a).new r x hy hact)
    | some y => exact act hact hy (changes_of_act hy hact) (ih hy)

/-- Induction along a run for a reservation that is there before it. -/
@[elab_as_elim]
theorem run_induction_from (hx : w.reservations[r]? = some x)
    {motive : ∀ (actions : List (Action V)) (x' : Reservation V),
      (w.run actions).reservations[r]? = some x' → Prop}
    (start : motive [] x hx)
    (act : ∀ {actions a y x'} (hx' : ((w.run actions).act a).reservations[r]? = some x')
      (hy : (w.run actions).reservations[r]? = some y), x.Grows y →
        (w.run actions).Changes r a y x' → motive actions y hy →
          motive (actions ++ [a]) x' (by rwa [run_concat]))
    {actions : List (Action V)} {x' : Reservation V}
    (hx' : (w.run actions).reservations[r]? = some x') : motive actions x' hx' := by
  induction hx' using run_induction with
  | start hx' =>
    obtain rfl := Option.some.inj (hx.symm.trans hx')
    exact start
  | @new actions _ _ _ hnone =>
    -- No reservation is removed.
    obtain ⟨y, hy, -⟩ := exists_grows_run hx actions
    cases hnone.symm.trans hy
  | act hx' hy hchanges ih => exact act hx' hy (grows_of_run hx hy) hchanges ih

/-- What holds of every reservation that is added, and is preserved by every change, holds of every
reservation throughout a run from the beginning. -/
theorem forall_run {P : Reservation V → Prop} (hnew : ∀ w a x, New w a x → P x)
    (hchange : ∀ w r a x x', Change w r a x x' → P x → P x') {actions : List (Action V)}
    (h : (run {} actions).reservations[r]? = some x) : P x := by
  induction h using run_induction with
  | start h => cases h
  | new _ _ hadded => exact hnew _ _ _ hadded
  | act _ _ hchanges ih => exact Changes.preserve (hchange _ _ _) hchanges ih

/-! ## Scopes and pools -/

/-- In any run scopes and pools age. -/
theorem ages_run (w : System V) (actions : List (Action V)) : Ages w (w.run actions) := by
  induction actions generalizing w with
  | nil => exact .refl w
  | cons a actions ih => exact (ages_act w a).trans (ih _)

/-- Whatever a system refers to is there. -/
structure Valid (w : System V) : Prop where
  /-- A scope has a pool. -/
  pool_lt : ∀ (s : ScopeId) (scope : Scope), w.scopes[s]? = some scope →
    scope.pool < w.pools.length
  /-- Callers hold references to scopes that there are. -/
  held_lt : ∀ s ∈ w.held, s < w.scopes.length
  /-- Reservations refer to scopes that there are. -/
  scope_lt : ∀ (r : ReservationId) (x : Reservation V), w.reservations[r]? = some x →
    ∀ s ∈ x.scope :: x.rest.mentions, s < w.scopes.length

/-- A reservation that is added refers to scopes that there are. -/
theorem New.scope_lt (hnew : w.New a x') (hw : w.Valid) :
    ∀ s ∈ x'.scope :: x'.rest.mentions, s < w.scopes.length := by
  cases hnew with
  | reserve hheld => exact fun s hs => hw.held_lt s (hheld s hs)
  | await hy _ hrest =>
    -- What it refers to is mentioned by the computation that awaits it.
    refine fun s hs => hw.scope_lt _ _ hy s (List.mem_cons_of_mem _ ?_)
    rw [hrest, Computation.mentions]
    cases List.mem_cons.mp hs with
    | inl heq => exact heq ▸ List.mem_cons_self
    | inr hmem => exact List.mem_cons_of_mem _ (List.mem_append_left _ hmem)

/-- No action makes a system refer to anything that there is not. -/
theorem Valid.act (hw : w.Valid) (a : Action V) : (w.act a).Valid where
  pool_lt s scope' h := by
    have hages := ages_act w a
    cases hages.scopes s scope' h with
    | inl hold =>
      -- A scope keeps its pool, and no pool is removed.
      obtain ⟨scope, hscope, haged⟩ := hold
      rw [haged.pool_eq]
      exact Nat.lt_of_lt_of_le (hw.pool_lt s scope hscope) hages.pools_length_le
    | inr hnew => exact hnew.2
  held_lt s hs := by
    have hages := ages_act w a
    cases hages.held s hs with
    | inl hold => exact Nat.lt_of_lt_of_le (hw.held_lt s hold) hages.length_le
    | inr hnew => exact hnew
  scope_lt r x' hx' s hs := by
    refine Nat.lt_of_lt_of_le ?_ (ages_act w a).length_le
    obtain hadded | ⟨x, hx, hchanges⟩ := new_or_changes_of_act hx'
    · exact hadded.scope_lt hw s hs
    · -- A reservation that goes on refers to nothing that it has not referred to before.
      have hgrows := Changes.grows hchanges
      refine hw.scope_lt r x hx s ?_
      rw [hgrows.scope_eq] at hs
      exact List.cons_subset_cons _ hgrows.mentions_subset hs

/-- No run makes a system refer to anything that there is not. -/
theorem Valid.run (hw : w.Valid) (actions : List (Action V)) : (w.run actions).Valid := by
  induction actions generalizing w with
  | nil => exact hw
  | cons a actions ih => exact ih (hw.act a)

/-- In a run from the beginning, whatever the system refers to is there. -/
theorem valid_run (actions : List (Action V)) : Valid (run {} actions) := by
  refine Valid.run ⟨?_, ?_, ?_⟩ actions
  · simp
  · simp
  · simp

/-- In any run, a scope that was closed stays closed. -/
theorem isClosed_run {s : ScopeId} (h : w.isClosed s = true) (actions : List (Action V)) :
    (w.run actions).isClosed s = true := by
  obtain ⟨scope, hscope, hclosed⟩ := (Option.any_eq_true _ _).mp h
  obtain ⟨scope', hscope', haged⟩ := (ages_run w actions).exists_scope hscope
  rw [isClosed, hscope', Option.any_some, haged.closed hclosed]

/-- The pool of a scope was shut down. -/
def IsDown (s : ScopeId) (w : System V) : Prop :=
  ∃ scope pool, w.scopes[s]? = some scope ∧ w.pools[scope.pool]? = some pool ∧ pool.stops ≠ []

/-- A pool takes no computations once it was shut down. -/
theorem IsDown.poolAlive_eq_false {s : ScopeId} (h : w.IsDown s) : w.poolAlive s = false := by
  obtain ⟨scope, pool, hscope, hpool, hstops⟩ := h
  simp only [poolAlive, hscope, hpool, Option.any_some, Pool.alive]
  simpa using hstops

/-- A pool that takes no computations was shut down. -/
theorem Valid.isDown_of_poolAlive_eq_false {s : ScopeId} (hw : w.Valid)
    (hs : s < w.scopes.length) (h : w.poolAlive s = false) : w.IsDown s := by
  -- The scope and its pool are there, so only a shutdown can keep the pool from taking anything.
  have hscope := List.getElem?_eq_getElem hs
  have hpool := List.getElem?_eq_getElem (hw.pool_lt s _ hscope)
  refine ⟨_, _, hscope, hpool, ?_⟩
  simp only [poolAlive, hscope, hpool, Option.any_some, Pool.alive] at h
  simpa using h

/-- A pool that was shut down stays so. -/
theorem IsDown.ages {s : ScopeId} (h : w.IsDown s) (hages : Ages w w') : w'.IsDown s := by
  obtain ⟨scope, pool, hscope, hpool, hstops⟩ := h
  obtain ⟨scope', hscope', haged⟩ := hages.exists_scope hscope
  obtain ⟨pool', hpool', -, hstops'⟩ := hages.pools _ pool hpool
  refine ⟨scope', pool', hscope', by rw [haged.pool_eq, hpool'], fun hnil => hstops ?_⟩
  rw [hnil] at hstops'
  exact List.prefix_nil.mp hstops'

/-- In any run, a pool that was shut down stays so. -/
theorem isDown_run {s : ScopeId} (h : w.IsDown s) (actions : List (Action V)) :
    (w.run actions).IsDown s :=
  h.ages (ages_run w actions)

end System

end Deferral
