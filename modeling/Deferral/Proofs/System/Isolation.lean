import Deferral.Proofs.System.Provenance
import Deferral.Proofs.System.Reach

/-!
# Scopes do not touch each other

What shuts a scope down, or drops references to it, reaches no further than the scope and the pool
that it has. So computations on other pools never notice, and if the scope has no pool of its own,
no computation does at all. What comes of a launch depends on two things only, whether the scope
that it was reserved on is closed and whether the pool is up, and in each case it is definite.

Main statements:
* `hasTask_run`, `hasTask_of_isLaunched`: on a pool that is up, what was launched
  comes to its own end.
* `unstarted_run`, `leadsTo_cancelled_of_isDown`: on a pool that is down, it is cancelled unstarted.
* `eq_of_owns`: a pool belongs to one scope at most.
* `isolation_run`: what can be relied on in every run.
-/

namespace Deferral.System

variable {V : Type} {w w' : System V} {s t : ScopeId} {r : ReservationId} {x x' : Reservation V}

/-! ## Outcomes -/

/-- In every run, a computation that was refused is on a scope that is closed. -/
theorem isClosed_of_mem_outcomes {actions : List (Action V)}
    (hx : (run {} actions).reservations[r]? = some x)
    (hclosed : .error .scopeClosed ∈ x.outcomes) : (run {} actions).isClosed x.scope = true := by
  obtain ⟨before, after, y, rfl, hy, -, hfound⟩ := (explained_run hx).scopeClosed hclosed
  rw [run_append, run_cons] at hx ⊢
  rw [← run_cons] at hx ⊢
  rw [(grows_of_run hy hx).scope_eq]
  exact isClosed_run hfound (.testClosed r :: after)

/-- In every run, no computation on a scope that is open was refused. -/
theorem scopeClosed_notMem_outcomes {actions : List (Action V)}
    (hx : (run {} actions).reservations[r]? = some x)
    (hopen : (run {} actions).isClosed x.scope = false) : .error .scopeClosed ∉ x.outcomes := by
  intro hmem
  cases hopen.symm.trans (isClosed_of_mem_outcomes hx hmem)

theorem not_refused_of_open {actions : List (Action V)}
    (hx : (run {} actions).reservations[r]? = some x)
    (hopen : (run {} actions).isClosed x.scope = false) : ¬x.Refused := by
  intro hrefused
  refine scopeClosed_notMem_outcomes hx hopen ?_
  rw [hrefused.outcomes_eq]
  exact List.mem_singleton_self _

/-- In every run, a computation that was cancelled was aborted, or its pool was shut down. -/
theorem condemned_of_mem_outcomes {actions : List (Action V)}
    (hx : (run {} actions).reservations[r]? = some x)
    (hcancelled : .error .cancelled ∈ x.outcomes) : (run {} actions).Condemned x := by
  obtain ⟨before, a, after, y, rfl, hy, -, hcause⟩ := (explained_run hx).cancelled hcancelled
  rw [run_append] at hx ⊢
  rcases hcause with ⟨-, z, hz, haborted⟩ | hdown
  · -- The request reaches the task at once.
    rw [run_cons] at hx ⊢
    exact .inl ((grows_of_run hz hx).aborted_of_aborted haborted)
  · refine .inr ?_
    rw [(grows_of_run hy hx).scope_eq]
    exact isDown_run hdown (a :: after)

/-- In every run, a task stays one until it comes to its end, unless it is aborted or its
pool is shut down. -/
theorem hasTask_run {actions further : List (Action V)}
    (hx : (run {} actions).reservations[r]? = some x) (htask : x.HasTask)
    (hx' : ((run {} actions).run further).reservations[r]? = some x')
    (halive : ((run {} actions).run further).poolAlive x.scope = true)
    (haborted : x'.aborted = false) :
    x'.HasTask ∨ ∃ e, x'.RanTo e ∧ x'.outcomes = [e.outcome] := by
  have hgrows := grows_of_run hx hx'
  obtain ⟨y, hy, honPool⟩ :=
    leadsTo_of_change (fun _ _ _ _ hchange => hchange.onPool) hx (.task htask.2) further
  obtain rfl := Option.some.inj (hx'.symm.trans hy)
  cases honPool with
  | task h => exact .inl ⟨hgrows.spawned_of_spawned htask.1, h⟩
  | ended e hran houtcomes => exact .inr ⟨e, hran, houtcomes⟩
  | cancelled hphase houtcomes =>
    rw [← run_append] at hx' halive
    have hmem : .error .cancelled ∈ x'.outcomes := by
      rw [houtcomes]
      exact List.mem_singleton_self _
    -- It was cancelled, so it was aborted or lost its pool, and neither is the case.
    rcases condemned_of_mem_outcomes hx' hmem with haborted' | hdown
    · cases haborted.symm.trans haborted'
    · rw [hgrows.scope_eq] at hdown
      cases hdown.poolAlive_eq_false.symm.trans halive

/-! ## What comes of a launch -/

/-- In every run, a launch that is over has left a task or an outcome of the computation behind, if
the scope is open and the pool is up. -/
theorem hasTask_of_isLaunched {actions : List (Action V)}
    (hx : (run {} actions).reservations[r]? = some x) (hlaunches : x.launches ≠ 0)
    (hphase : x.phase.isLaunched = true) (hopen : (run {} actions).isClosed x.scope = false)
    (halive : (run {} actions).poolAlive x.scope = true) (haborted : x.aborted = false) :
    x.HasTask ∨ ∃ e, x.RanTo e ∧ x.outcomes = [e.outcome] := by
  have hlaunched : x.IsLaunched := .inl hlaunches
  refine (hlaunched.hasTask_or_isAnswered (sound_run hx) (flagged_run hx) hphase).imp_right ?_
  rintro ⟨-, o, houtcomes, hcause⟩
  have hmem : o ∈ x.outcomes := by rw [houtcomes]; exact List.mem_singleton_self o
  rcases hcause with rfl | rfl | ⟨e, hran, rfl⟩
  · exact absurd hmem (scopeClosed_notMem_outcomes hx hopen)
  · rcases condemned_of_mem_outcomes hx hmem with haborted' | hdown
    · cases haborted.symm.trans haborted'
    · cases hdown.poolAlive_eq_false.symm.trans halive
  · exact ⟨e, hran, houtcomes⟩

/-- What is launched on a pool that takes no computations is not started. -/
theorem Change.unstarted_of_launched {a : Action V} (h : w.Change r a x x') (hsound : x.Sound)
    (hdead : w.poolAlive x.scope = false) (hx : x.launches ≠ 0 → x.Unstarted) :
    x'.launches ≠ 0 → x'.Unstarted := by
  intro hlaunches
  by_cases hbefore : x.launches = 0
  · -- Only the beginning of a launch is counted, and then nothing was done yet.
    cases h with
    | launch hphase =>
      obtain ⟨hposition, hevents⟩ := hsound.fresh (by rw [hphase]; rfl)
      exact ⟨.inr (.inl rfl), hposition, hevents⟩
    | handle | attach | refuse | clear | clearDirectly | queue | lose | letGo | abort | discard
    | start | advance | pause | engage | finish | drop => exact absurd hbefore hlaunches
  · exact h.unstarted hdead (hx hbefore)

/-- In every run, what is launched on a pool after it was shut down is not started. -/
theorem unstarted_run {actions further : List (Action V)} (hdown : (run {} actions).IsDown s)
    (hbefore : ∀ x, (run {} actions).reservations[r]? = some x → x.launches = 0)
    (hx' : ((run {} actions).run further).reservations[r]? = some x') (hs : x'.scope = s)
    (hlaunched : x'.launches ≠ 0) : x'.Unstarted := by
  induction hx' using run_induction with
  | start hx' => exact absurd (hbefore _ hx') hlaunched
  | new _ _ hnew => exact hnew.unstarted
  | @act further _ _ y _ hy hchanges ih =>
    have hsound : y.Sound := (sound_and_flagged_run hy).1
    have hscope := hchanges.grows.scope_eq.symm.trans hs
    have hdead := (isDown_run hdown further).poolAlive_eq_false
    have hkept := hchanges.preserve
      (P := fun z => z.Sound ∧ z.scope = s ∧ (z.launches ≠ 0 → z.Unstarted))
      (fun z z' hz hzP => ⟨hzP.1.change hz, hz.grows.scope_eq.trans hzP.2.1,
        hz.unstarted_of_launched hzP.1 (hzP.2.1 ▸ hdead) hzP.2.2⟩)
      ⟨hsound, hscope, ih hscope⟩
    exact hkept.2.2 hlaunched

/-- In every run, a launch on a pool that was shut down comes to nothing: the computation is
cancelled, unless the scope is closed, too. -/
theorem outcomes_of_unstarted {actions : List (Action V)}
    (hx : (run {} actions).reservations[r]? = some x) (hunstarted : x.Unstarted)
    (hlaunches : x.launches ≠ 0) (hopen : (run {} actions).isClosed x.scope = false) :
    x.phase = .dropped ∧ x.outcomes = [.error .cancelled] ∨
      x.phase = .launching ∨ x.phase = .cleared := by
  rcases hunstarted.phase_eq with hphase | hphase | hphase | hphase
  · exact absurd ((sound_run hx).captured hphase) hlaunches
  · exact .inr (.inl hphase)
  · exact .inr (.inr hphase)
  · rcases (sound_run hx).dropped hphase with ⟨hnone, -⟩ | hrefused | hcancelled
    · exact absurd hnone hlaunches
    · exact absurd hrefused (not_refused_of_open hx hopen)
    · exact .inl ⟨hphase, hcancelled⟩

/-- In every run, a launch that takes its steps although the pool was shut down ends in a
cancellation, unless the scope is closed, too. -/
theorem leadsTo_cancelled_of_isDown {actions further : List (Action V)}
    (hx : (run {} actions).reservations[r]? = some x)
    (hphase : x.phase = .launching ∨ x.phase = .cleared) (hlaunches : x.launches ≠ 0)
    (hdown : (run {} actions).IsDown x.scope) (hsteps : (launchSteps r x.phase).Sublist further)
    (hopen : ((run {} actions).run further).isClosed x.scope = false) :
    (run {} actions).LeadsTo further r fun x' =>
      x'.IsAnswered ∧ x'.outcomes = [.error .cancelled] := by
  obtain ⟨x', hx', hanswered, hclosed | hcancelled⟩ :=
    leadsTo_isAnswered_of_isDown hx hphase (.inl hlaunches) hdown hsteps
  · -- The scope is open, so nobody is told that it was closed.
    have hgrows := grows_of_run hx hx'
    rw [← run_append, ← hgrows.scope_eq] at hopen
    rw [← run_append] at hx'
    refine absurd ?_ (scopeClosed_notMem_outcomes hx' hopen)
    rw [hclosed]
    exact List.mem_singleton_self _
  · exact ⟨x', hx', hanswered, hcancelled⟩

/-! ## Pools with several scopes -/

/-- In every run, a pool belongs to one scope at most. -/
theorem eq_of_owns {actions : List (Action V)} {scope scope' : Scope}
    (hscope : (run {} actions).scopes[s]? = some scope) (hown : scope.owns = true)
    (hscope' : (run {} actions).scopes[t]? = some scope') (hown' : scope'.owns = true)
    (hsame : scope'.pool = scope.pool) : t = s := by
  induction actions using List.reverseRecOn generalizing scope scope' with
  | nil => cases hscope
  | append_singleton actions a ih =>
    have hvalid := valid_run actions
    rw [run_concat] at hscope hscope'
    rcases scope_of_act hscope with
      ⟨old, hold, hages⟩ | ⟨settings, rfl, hlast, hnew⟩ | ⟨name, rfl, hnone⟩
    · rcases scope_of_act hscope' with
        ⟨old', hold', hages'⟩ | ⟨settings, rfl, -, hnew'⟩ | ⟨name, rfl, hnone'⟩
      · refine ih hold (hages.owns hown) hold' (hages'.owns hown') ?_
        rw [← hages.pool_eq, ← hages'.pool_eq, hsame]
      · -- The pool of a scope that is built is a new one.
        have hlt := hvalid.pool_lt s old hold
        rw [← hages.pool_eq, ← hsame, hnew'] at hlt
        exact absurd hlt (Nat.lt_irrefl _)
      · cases hnone'.symm.trans hown'
    · rcases scope_of_act hscope' with ⟨old', hold', hages'⟩ | ⟨-, -, hlast', -⟩ | ⟨_, hborrow, -⟩
      · have hlt := hvalid.pool_lt t old' hold'
        rw [← hages'.pool_eq, hsame, hnew] at hlt
        exact absurd hlt (Nat.lt_irrefl _)
      · exact hlast'.trans hlast.symm
      · cases hborrow
    · cases hnone.symm.trans hown

/-- The pool of a scope is down when the scope that it belongs to has finished its shutdown. -/
theorem isDown_finishShutdown {scope scope' : Scope} (hscope : w.scopes[s]? = some scope)
    (hown : scope.owns = true) (hclosing : scope.closing.isSome = true)
    (hscope' : w.scopes[t]? = some scope') (hsame : scope'.pool = scope.pool)
    (hpool : scope.pool < w.pools.length) : (w.finishShutdown s).IsDown t := by
  obtain ⟨closing, hclosing⟩ := Option.isSome_iff_exists.mp hclosing
  have htake : (w.takePool s closing.stop).IsDown t := by
    obtain ⟨scope₁, hscope₁, hages⟩ :=
      (Ages.operational.takePool w s closing.stop).exists_scope hscope'
    have hstopped : ∃ pool, (w.takePool s closing.stop).pools[scope.pool]? = some pool ∧
        pool.stops ≠ [] := by
      refine ⟨{ w.pools[scope.pool] with stops := w.pools[scope.pool].stops ++ [closing.stop] },
        ?_, List.append_ne_nil_of_right_ne_nil _ (List.cons_ne_nil _ _)⟩
      rw [takePool, hscope]
      simp only [hown, if_true]
      rw [stopPool, updatePool, List.getElem?_modify_eq]
      exact congrArg _ (List.getElem?_eq_getElem hpool)
    obtain ⟨pool, hpool', hstops⟩ := hstopped
    refine ⟨scope₁, pool, hscope₁, ?_, hstops⟩
    rw [hages.pool_eq, hsame]
    exact hpool'
  have hfinish : w.finishShutdown s = (((w.takePool s closing.stop).updateScope s
      fun x => { x with closing := none }).release s) := by
    rw [finishShutdown, hscope, Option.bind_some, hclosing]
  rw [hfinish]
  -- What is left of the shutdown revives no pool.
  have hcease : Ages (w.takePool s closing.stop) ((w.takePool s closing.stop).updateScope s
      fun x => { x with closing := none }) :=
    .updateScope _ s fun _ => ⟨rfl, id, id⟩
  exact (htake.ages hcease).ages (Ages.operational.release _ s)

/-- A scope that is made on the pool of somebody else never has a pool of its own. -/
theorem exists_borrowed_run {name : String} {p : PoolId} (hp : p < w.pools.length)
    (further : List (Action V)) :
    ∃ scope, ((w.act (.borrow name p)).run further).scopes[w.scopes.length]? = some scope ∧
      scope.pool = p ∧ scope.owns = false := by
  have hborrow : (w.act (.borrow name p)).scopes[w.scopes.length]? =
      some { name, pool := p, owns := false, grace := .zero } := by
    rw [act, if_pos hp]
    exact List.getElem?_concat_length ..
  obtain ⟨scope, hscope, hages⟩ := (ages_run _ further).exists_scope hborrow
  refine ⟨scope, hscope, hages.pool_eq, ?_⟩
  by_contra hown
  cases hages.owns (eq_true_of_ne_false hown)

/-- The pool of a scope is down when its owner, who is no scope, has shut it down. -/
theorem isDown_stopPool {scope : Scope} (hscope : w.scopes[t]? = some scope)
    (hpool : scope.pool < w.pools.length) (stop : Stop) :
    (w.stopPool scope.pool stop).IsDown t := by
  refine ⟨scope, { w.pools[scope.pool] with stops := w.pools[scope.pool].stops ++ [stop] }, hscope,
    ?_, List.append_ne_nil_of_right_ne_nil _ (List.cons_ne_nil _ _)⟩
  rw [stopPool, updatePool, List.getElem?_modify_eq]
  exact congrArg _ (List.getElem?_eq_getElem hpool)

/-! ## All together -/

/-- What can be relied on with the scopes of a system, whoever uses which of them. -/
structure Isolation (w : System V) : Prop where
  /-- Shutting scopes down and dropping references to them changes these scopes, the pools that they
  have of their own, and the reservations of those who do it. -/
  confined : ∀ S R a, w.Touches S R a → Confined S R w (w.act a)
  /-- So does a call of shutdown as a whole. -/
  shuts : ∀ s limit inside, Confined [s] [] w (w.shutdown s limit inside)
  /-- Computations on other pools are as they were, and are doomed exactly if they were. -/
  spared : ∀ S R a, w.Touches S R a → ∀ r x, w.reservations[r]? = some x → r ∉ R →
    w.Elsewhere S x.scope → (w.act a).reservations[r]? = some x ∧ (w.act a).isDoomed x = w.isDoomed x
  /-- Scopes that have no pools of their own touch no pool. -/
  poolless : ∀ S R a, w.Touches S R a →
    (∀ s ∈ S, ∀ scope, w.scopes[s]? = some scope → scope.owns = false) → (w.act a).pools = w.pools
  /-- A scope that is made on the pool of somebody else never has one of its own. -/
  borrowed : ∀ name p, p < w.pools.length → ∀ further, ∃ scope,
    ((w.act (.borrow name p)).run further).scopes[w.scopes.length]? = some scope ∧
      scope.pool = p ∧ scope.owns = false
  /-- A pool belongs to one scope at most. -/
  owner : ∀ (s t : ScopeId) (scope scope' : Scope), w.scopes[s]? = some scope → scope.owns = true →
    w.scopes[t]? = some scope' → scope'.owns = true → scope'.pool = scope.pool → t = s
  /-- Nothing is cancelled that was not aborted, as long as its pool is up. -/
  cancelled : ∀ (r : ReservationId) (x : Reservation V), w.reservations[r]? = some x →
    .error .cancelled ∈ x.outcomes → w.Condemned x
  /-- So a task stays one until it comes to its own end, whatever scopes are shut down meanwhile. -/
  lasts : ∀ (r : ReservationId) (x : Reservation V), w.reservations[r]? = some x → x.HasTask →
    ∀ (further : List (Action V)) (x' : Reservation V), (w.run further).reservations[r]? = some x' →
      (w.run further).poolAlive x.scope = true → x'.aborted = false →
        x'.HasTask ∨ ∃ e, x'.RanTo e ∧ x'.outcomes = [e.outcome]
  /-- A launch leaves a task behind, or one that has come to its own end already, if its scope is
  open and the pool is up. -/
  runs : ∀ (r : ReservationId) (x : Reservation V), w.reservations[r]? = some x → x.launches ≠ 0 →
    ∀ further, (launchSteps r x.phase).Sublist further → w.LeadsTo further r fun x' =>
      (w.run further).isClosed x.scope = false → (w.run further).poolAlive x.scope = true →
        x'.aborted = false → x'.HasTask ∨ ∃ e, x'.RanTo e ∧ x'.outcomes = [e.outcome]
  /-- A call of shutdown closes the scope for good, whoever the pool belongs to. -/
  closes : ∀ s ∈ w.held, ∀ closing further,
    ((w.act (.beginShutdown s closing)).run further).isClosed s = true
  /-- So does one that a computation makes. -/
  closes_step : ∀ s p x rest, w.reservations[p]? = some x → x.phase = .active .step →
    x.rest = .shutdown s rest → ∀ further, ((w.act (.step p)).run further).isClosed s = true
  /-- So does a call as a whole. -/
  closes_shutdown : ∀ s scope, w.scopes[s]? = some scope → ∀ limit inside further,
    ((w.shutdown s limit inside).run further).isClosed s = true
  /-- A launch that begins on a closed scope is refused, whether the pool is up or not. -/
  refuses : ∀ s, w.isClosed s = true → ∀ r,
    (∀ x, w.reservations[r]? = some x → x.launches = 0) → ∀ further x',
      (w.run further).reservations[r]? = some x' → x'.scope = s → x'.launches ≠ 0 →
        x'.phase = .dropped ∧ x'.Refused ∨
          x'.phase = .launching ∧ x'.position = 0 ∧ x'.outcomes = [] ∧
            ∃ y, ((w.run further).act (.testClosed r)).reservations[r]? = some y ∧
              y.phase = .dropped ∧ y.Refused
  /-- A launch that begins on an open scope whose pool is down starts nothing, and when it has taken
  its steps the computation is cancelled. -/
  cancels : ∀ s, w.IsDown s → ∀ r, (∀ x, w.reservations[r]? = some x → x.launches = 0) →
    ∀ further x', (w.run further).reservations[r]? = some x' → x'.scope = s → x'.launches ≠ 0 →
      (w.run further).isClosed s = false → x'.Unstarted ∧
        (x'.phase = .dropped ∧ x'.outcomes = [.error .cancelled] ∨
          (x'.phase = .launching ∨ x'.phase = .cleared) ∧ ∀ more,
            (launchSteps r x'.phase).Sublist more → ((w.run further).run more).isClosed s = false →
              (w.run further).LeadsTo more r fun y =>
                y.IsAnswered ∧ y.outcomes = [.error .cancelled])
  /-- When a scope shuts its pool down, that of all other scopes on it is down, but
  they stay open. -/
  shared : ∀ (s t : ScopeId) (scope scope' : Scope), w.scopes[s]? = some scope →
    scope.owns = true → scope.closing.isSome = true → w.scopes[t]? = some scope' →
      scope'.pool = scope.pool → t ≠ s →
        (w.act (.finishShutdown s)).IsDown t ∧
          (w.act (.finishShutdown s)).isClosed t = w.isClosed t
  /-- It is the same when the pool belongs to no scope and its owner shuts it down. -/
  outside : ∀ (t : ScopeId) (scope : Scope) stop, w.scopes[t]? = some scope →
    w.isScopes scope.pool = false → (w.act (.stopPool scope.pool stop)).IsDown t ∧
      (w.act (.stopPool scope.pool stop)).isClosed t = w.isClosed t

/-- In every run, scopes are isolated from each other. -/
theorem isolation_run (actions : List (Action V)) : Isolation (run {} actions) where
  confined S R a h := h.confined
  shuts s limit inside := .shutdown (List.mem_singleton_self s) limit inside
  spared S R a h r x hx hr helsewhere := by
    have hlt := (valid_run actions).scope_lt r x hx x.scope List.mem_cons_self
    exact ⟨(h.confined.reservations_eq r hr).trans hx, h.confined.isDoomed_eq hlt helsewhere⟩
  poolless S R a h hnone := h.confined.pools_eq_self hnone
  borrowed name p hp further := exists_borrowed_run hp further
  owner s t scope scope' hscope hown hscope' hown' hsame := eq_of_owns hscope hown hscope' hown' hsame
  cancelled r x hx hmem := condemned_of_mem_outcomes hx hmem
  lasts r x hx htask further x' hx' halive haborted := hasTask_run hx htask hx' halive haborted
  runs r x hx hlaunches further hsteps := by
    have hcaptured : x.phase ≠ .captured := fun hphase => hlaunches ((sound_run hx).captured hphase)
    obtain ⟨x', hx', hphase⟩ := leadsTo_isLaunched_of_launchSteps hcaptured hx hsteps
    obtain ⟨y, hy, hgrows⟩ := exists_grows_run hx further
    obtain rfl := Option.some.inj (hx'.symm.trans hy)
    refine ⟨x', hx', fun hopen halive haborted => ?_⟩
    have hlaunches' : x'.launches ≠ 0 := fun hzero =>
      hlaunches (Nat.le_zero.mp (hzero ▸ hgrows.launches_le))
    rw [← hgrows.scope_eq, ← run_append] at hopen halive
    rw [← run_append] at hx'
    exact hasTask_of_isLaunched hx' hlaunches' hphase hopen halive haborted
  closes s hheld closing further :=
    isClosed_run (isClosed_act_beginShutdown (valid_run actions) hheld closing) further
  closes_step s p x rest hx hphase hrest further :=
    isClosed_run (isClosed_act_step (valid_run actions) hx hphase hrest) further
  closes_shutdown s scope hscope limit inside further :=
    isClosed_run (isClosed_shutdown hscope limit inside) further
  refuses s hclosed r hbefore further x' hx' hs hlaunched :=
    refused_run hclosed hbefore hx' hs hlaunched
  cancels s hdown r hbefore further x' hx' hs hlaunched hopen := by
    have hunstarted := unstarted_run hdown hbefore hx' hs hlaunched
    -- A pool that is down stays down.
    have hdown' := isDown_run hdown further
    subst hs
    rw [← run_append] at hx' hopen hdown' ⊢
    refine ⟨hunstarted, (outcomes_of_unstarted hx' hunstarted hlaunched hopen).imp_right ?_⟩
    intro hphase
    refine ⟨hphase, fun more hsteps hopen' => ?_⟩
    exact leadsTo_cancelled_of_isDown hx' hphase hlaunched hdown' hsteps hopen'
  shared s t scope scope' hscope hown hclosing hscope' hsame hne := by
    have hpool := (valid_run actions).pool_lt s scope hscope
    refine ⟨isDown_finishShutdown hscope hown hclosing hscope' hsame hpool, ?_⟩
    exact (Touches.finishShutdown s).confined.isClosed_eq fun hmem => hne (List.mem_singleton.mp hmem)
  outside t scope stop hscope hforeign := by
    have hstop : (run {} actions).act (.stopPool scope.pool stop) =
        (run {} actions).stopPool scope.pool stop := by
      rw [act, hforeign, if_neg Bool.false_ne_true]
    rw [hstop]
    exact ⟨isDown_stopPool hscope ((valid_run actions).pool_lt t scope hscope) stop, rfl⟩

/-- Two scopes are on the pool of somebody else, and the first one is shut down. What is in flight
on it goes on, what is launched on it is refused, and the other scope takes computations until the
pool is shut down. -/
example : (run {} [.addPool { threadName := "worker", workers := 1 }, .borrow "one" 0, .borrow "two" 0,
    .reserve 0 none "a" (.gate "door" (.finish (.value 7))), .reserve 0 none "b" (.finish (.value 8)),
    .reserve 1 none "c" (.finish (.value 9)), .reserve 1 none "d" (.finish (.value 10)),
    .use 0 .spawn, .testClosed 0, .spawn 0, .resume 0, .step 0,
    .beginShutdown 0 { limit := .zero, inside := false }, .finishShutdown 0,
    .use 1 .spawn, .testClosed 1, .use 2 .spawn, .testClosed 2, .spawn 2, .resume 2, .step 2,
    .openGate "door", .resume 0, .step 0, .stopPool 0 .background,
    .use 3 .spawn, .testClosed 3, .spawn 3] : System Nat).reservations.map Reservation.outcomes =
      [[.ok 7], [.error .scopeClosed], [.ok 9], [.error .cancelled]] := rfl

end Deferral.System
