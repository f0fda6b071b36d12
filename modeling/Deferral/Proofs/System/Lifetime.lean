import Deferral.Proofs.System.Lifecycle

/-!
# How long the pool of a scope lives

A scope that is built has its pool up as long as it was not shut down and somebody refers to it:
callers, reservations until their launch is over, and computations until they have let go of what
they mention. With the last reference the pool is shut down in the background, on whatever thread
that happens. Then suspended computations are dropped and reported as cancelled, but one that
occupies a thread goes on until it suspends or comes to its end.

Main statements:
* `stranded_run`: what becomes of the computations on a pool that was shut down.
* `lifetime_run`: when the pool of a scope is shut down, for want of which references.
-/

namespace Deferral

variable {V : Type}

/-- The computation was handed to a pool that took it: it is suspended or occupies a thread, or it
has come to its end or was cancelled. -/
inductive Reservation.OnPool (x : Reservation V) : Prop
  /-- Its task is not over. -/
  | task (htask : x.phase.isSuspended = true ∨ x.phase.isActive = true) : OnPool x
  /-- It has come to its end. -/
  | ended (e : Ending V) (hran : x.RanTo e) (houtcomes : x.outcomes = [e.outcome]) : OnPool x
  /-- It was dropped before. -/
  | cancelled (hphase : x.phase = .dropped) (houtcomes : x.outcomes = [.error .cancelled]) : OnPool x

/-- With the last reference the pool of an open scope is shut down in the background. -/
theorem Scope.Standing.background {scope : Scope} {call? : Option Closing} {pool? : Option Pool}
    (h : scope.Standing true call? pool?) (hopen : scope.closed = false)
    (hzero : scope.references = 0) : ∃ pool, pool? = some pool ∧ pool.stops = [.background] := by
  obtain ⟨pool, hpool, -, hstops⟩ := h.stops rfl
  -- Nobody has closed the scope, so it was not a call of shutdown that has taken the pool out.
  have hcall : call? = none := by
    have hclosed := h.closed_eq
    rw [hopen] at hclosed
    exact Option.isNone_iff_eq_none.mp (Option.isSome_eq_false_iff.mp hclosed.symm)
  have hgone : ¬scope.owns = true := by
    intro hown
    have hpos := (h.owns_iff.mp hown).2.1
    omega
  refine ⟨pool, hpool, ?_⟩
  rw [hstops, if_neg hgone, hcall]
  rfl

namespace System

variable {w w' : System V} {s : ScopeId} {a : Action V} {r : ReservationId} {x x' : Reservation V}

/-! ## Pools and tasks -/

/-- What was handed to a pool ends there, or is dropped and cancelled. -/
theorem Change.onPool (h : w.Change r a x x') (hsound : x.Sound) (hx : x.OnPool) : x'.OnPool := by
  have hsound' := hsound.change h
  -- A task stays one until it ends or is dropped; what is over does not change any more.
  cases hx with
  | task htask =>
    have hover : x.phase.isOver = false :=
      htask.elim Phase.isOver_of_isSuspended Phase.isOver_of_isActive
    cases h with
    | handle | attach | letGo | abort => exact .task htask
    | start | advance | engage => exact .task (.inr rfl)
    | pause => exact .task (.inl rfl)
    | finish =>
      obtain ⟨e, hran, houtcomes⟩ := hsound'.ended rfl
      exact .ended e hran houtcomes
    | drop =>
      refine .cancelled rfl ?_
      show x.outcomes ++ _ = _
      rw [hsound.running hover, List.nil_append]
    | launch hphase | refuse _ _ hphase | clear hphase | clearDirectly hphase | queue hphase
    | lose hphase | discard hphase => simp [hphase, Phase.isSuspended, Phase.isActive] at htask
  | ended e hran houtcomes =>
    obtain ⟨hphase, -⟩ := h.eq_of_isOver (by rw [hran.phase_eq]; rfl)
    obtain ⟨e', hran', houtcomes'⟩ := hsound'.ended (hphase.trans hran.phase_eq)
    exact .ended e' hran' houtcomes'
  | cancelled hphase houtcomes =>
    obtain ⟨hphase', houtcomes'⟩ := h.eq_of_isOver (by rw [hphase]; rfl)
    exact .cancelled (hphase'.trans hphase) (houtcomes'.trans houtcomes)

/-! ## Computations on a pool that was shut down -/

/-- What becomes of the computation of `r`, which is `x`, when its pool was shut down. -/
structure Stranded (w : System V) (r : ReservationId) (x : Reservation V) : Prop where
  /-- If it is suspended, it is not taken up again but dropped, and cancelled. -/
  suspended : x.phase.isSuspended = true → w.Due r x
  /-- If it occupies a thread, it goes on until it suspends, and is due to be dropped then, or until
  it comes to its end. -/
  active : x.phase.isActive = true → ∀ further, w.LeadsTo further r fun x' =>
    x'.phase.isActive = true ∨ x'.phase.isSuspended = true ∧ (w.run further).Due r x' ∨
      (∃ e, x'.RanTo e ∧ x'.outcomes = [e.outcome]) ∨ x'.outcomes = [.error .cancelled]
  /-- It comes to its end only without having suspended. -/
  ended : x.phase.isActive = true → ∀ further,
    (w.LeadsTo further r fun x' => x'.phase = .ended) →
      ∀ n, w.LeadsTo (further.take n) r fun x' => x'.phase.isSuspended = false
  /-- If its launch is under way, no task comes of it. -/
  launching : x.phase = .launching ∨ x.phase = .cleared → x.IsLaunched →
    ∀ further, (launchSteps r x.phase).Sublist further → w.LeadsTo further r fun x' =>
      x'.IsAnswered ∧ (x'.outcomes = [.error .scopeClosed] ∨ x'.outcomes = [.error .cancelled])

/-- A computation whose pool was shut down does not come to its end once it has suspended. -/
theorem phase_ne_ended_of_isDown {actions : List (Action V)}
    (hx : (run {} actions).reservations[r]? = some x) (hdown : (run {} actions).IsDown x.scope)
    (hsuspended : x.phase.isSuspended = true) (further : List (Action V)) :
    (run {} actions).LeadsTo further r fun x' => x'.phase ≠ .ended := by
  by_cases hdrop : .dropTask r ∈ further
  · obtain ⟨x', hx', hmem⟩ := leadsTo_cancelled_of_mem (.inr hdown) hsuspended hx hdrop
    have hphase := (sound_and_flagged_run hx').1.dropped_of_mem hmem
    refine ⟨x', hx', ?_⟩
    intro hended
    cases hphase.symm.trans hended
  · obtain ⟨x', hx', -, hphase⟩ := exists_condemned_run (.inr hdown) hsuspended hx hdrop
    refine ⟨x', hx', ?_⟩
    intro hended
    rw [← hphase, hended] at hsuspended
    cases hsuspended

/-- In every run, computations on a pool that was shut down are dropped when they suspend. -/
theorem stranded_run {actions : List (Action V)}
    (hx : (run {} actions).reservations[r]? = some x) (hdown : (run {} actions).IsDown x.scope) :
    (run {} actions).Stranded r x := by
  have hlater (further : List (Action V)) : ∃ y,
      ((run {} actions).run further).reservations[r]? = some y ∧
        ((run {} actions).run further).IsDown y.scope := by
    obtain ⟨y, hy, hgrows⟩ := exists_grows_run hx further
    refine ⟨y, hy, ?_⟩
    rw [hgrows.scope_eq]
    exact isDown_run hdown further
  refine ⟨?_, ?_, ?_, ?_⟩
  · intro hsuspended
    exact due_of_condemned hx hsuspended (.inr hdown)
  · intro hactive further
    obtain ⟨y, hy, honPool⟩ := leadsTo_of_change
      (fun _ _ _ _ hchange hsound hz => hchange.onPool hsound hz) hx (.task (.inr hactive)) further
    obtain ⟨y₁, hy₁, hdown'⟩ := hlater further
    obtain rfl := Option.some.inj (hy.symm.trans hy₁)
    refine ⟨y, hy, ?_⟩
    cases honPool with
    | task htask =>
      rcases htask with hsuspended | hactive'
      · refine .inr (.inl ⟨hsuspended, ?_⟩)
        rw [← run_append] at hy hdown' ⊢
        exact due_of_condemned hy hsuspended (.inr hdown')
      · exact .inl hactive'
    | ended e hran houtcomes => exact .inr (.inr (.inl ⟨e, hran, houtcomes⟩))
    | cancelled _ houtcomes => exact .inr (.inr (.inr houtcomes))
  · intro _ further hended n
    obtain ⟨y, hy, hdown'⟩ := hlater (further.take n)
    refine ⟨y, hy, ?_⟩
    by_contra hsuspended
    -- What comes after the first actions is a run from there.
    rw [← run_append] at hy hdown'
    obtain ⟨z, hz, hnot⟩ :=
      phase_ne_ended_of_isDown hy hdown' (eq_true_of_ne_false hsuspended) (further.drop n)
    rw [← run_append, List.append_assoc, List.take_append_drop, run_append] at hz
    obtain ⟨z', hz', hended'⟩ := hended
    obtain rfl := Option.some.inj (hz.symm.trans hz')
    exact hnot hended'
  · intro hphase hlaunched further hsteps
    exact leadsTo_isAnswered_of_isDown hx hphase hlaunched hdown hsteps

/-! ## The pool of a scope -/

/-- How long the pool of the scope `s` lives, which is `scope` and was built with a pool. -/
structure Lifetime (s : ScopeId) (w : System V) (scope : Scope) : Prop
    extends Holders s w scope where
  /-- The pool was shut down exactly if the call of shutdown is over that has closed the scope, or
  nobody refers to the scope. -/
  isDown_iff : w.IsDown s ↔ scope.closed = true ∧ scope.closing = none ∨ scope.references = 0
  /-- A call of shutdown that is carried to its end has shut it down, or another one before. -/
  shuts : s ∈ w.held → ∀ closing,
    ((w.act (.beginShutdown s closing)).act (.finishShutdown s)).IsDown s
  /-- A computation that is not over keeps the pool of a scope up that it refers to, its own as well
  as any other, unless that is shut down. -/
  keeps : ∀ x ∈ w.reservations, x.phase.isOver = false → s ∈ x.rest.mentions →
    scope.closed = false → ¬w.IsDown s
  /-- With the last reference the pool is shut down without waiting for anything. -/
  background : scope.closed = false → scope.references = 0 →
    ∃ pool, w.pools[scope.pool]? = some pool ∧ pool.stops = [.background]
  /-- The computations on the pool are dropped then as soon as they suspend. -/
  stranded : w.IsDown s → ∀ r x scope', w.reservations[r]? = some x →
    w.scopes[x.scope]? = some scope' → scope'.pool = scope.pool → w.Stranded r x

/-- The pool of a scope that was built is down exactly if the scope was shut down or
nobody refers to it. -/
theorem isDown_iff_of_standing {scope : Scope} {call? : Option Closing}
    (hscope : w.scopes[s]? = some scope)
    (hstanding : scope.Standing true call? w.pools[scope.pool]?) :
    w.IsDown s ↔ scope.closed = true ∧ scope.closing = none ∨ scope.references = 0 := by
  obtain ⟨pool, hpool, -, hstops⟩ := hstanding.stops rfl
  constructor
  · rintro ⟨scope', pool', hscope', hpool', hdown⟩
    obtain rfl := Option.some.inj (hscope.symm.trans hscope')
    obtain rfl := Option.some.inj (hpool.symm.trans hpool')
    -- The pool is down, so the scope has given it up, by its shutdown or with its last reference.
    have hgone : scope.owns = false := by
      by_contra hown
      rw [if_pos (eq_true_of_ne_false hown)] at hstops
      exact hdown hstops
    rcases hstanding.taken rfl hgone with ⟨hcall, hover⟩ | ⟨-, hzero⟩
    · exact .inl ⟨hstanding.closed_eq.trans hcall, hover⟩
    · exact .inr hzero
  · intro hcause
    refine ⟨scope, pool, hscope, hpool, ?_⟩
    have hgone : ¬scope.owns = true := by
      intro hown
      obtain ⟨-, hpos, hstill⟩ := hstanding.owns_iff.mp hown
      rcases hcause with ⟨hclosed, hover⟩ | hzero
      · rcases hstill with hopen | hsome
        · cases hopen.symm.trans hclosed
        · rw [hover] at hsome
          cases hsome
      · omega
    rw [hstops, if_neg hgone]
    nofun

/-- In every run, the pool of a scope that was built is down after a call of shutdown that was
carried to its end. -/
theorem isDown_of_calls {actions : List (Action V)} (further : List (Action V)) {scope : Scope}
    (hscope : (run {} actions).scopes[s]? = some scope) (hopen : scope.closed = false)
    (hbuilt : scope.owns = true) (hheld : s ∈ ((run {} actions).run further).held)
    (closing : Closing) :
    ((((run {} actions).run further).act (.beginShutdown s closing)).act
      (.finishShutdown s)).IsDown s := by
  have hclosed := isClosed_act_beginShutdown ((valid_run actions).run further) hheld closing
  have hover := closing_finishShutdown s
    (((run {} actions).run further).act (.beginShutdown s closing))
  have hrun : (((run {} actions).run further).act (.beginShutdown s closing)).act
      (.finishShutdown s) =
        (run {} actions).run (further ++ [.beginShutdown s closing, .finishShutdown s]) := by
    rw [run_append, run_cons, run_cons, run_nil]
  have hclosed' := isClosed_run hclosed [.finishShutdown s]
  rw [← act] at hover
  rw [run_cons, run_nil] at hclosed'
  rw [hrun] at hover hclosed' ⊢
  obtain ⟨last, hlast, -⟩ := (ages_run (run {} actions)
    (further ++ [.beginShutdown s closing, .finishShutdown s])).exists_scope hscope
  have hstanding := standing_run hscope hopen hlast
  rw [hbuilt] at hstanding
  rw [isClosed, hlast, Option.any_some] at hclosed'
  rw [hlast, Option.bind_some] at hover
  exact (isDown_iff_of_standing hlast hstanding).mpr (.inl ⟨hclosed', hover⟩)

/-- In every run, a computation that is not over keeps the pool of a scope up that it refers to. -/
theorem not_isDown_of_mentions {actions : List (Action V)} {scope : Scope} {record? : Option Record}
    (hiff : (run {} actions).IsDown s ↔
      scope.closed = true ∧ scope.closing = none ∨ scope.references = 0)
    (hcounted : scope.Counted ((run {} actions).references.count s) record?)
    (hx : x ∈ (run {} actions).reservations) (hover : x.phase.isOver = false)
    (hmem : s ∈ x.rest.mentions) (hopen : scope.closed = false) : ¬(run {} actions).IsDown s := by
  intro hdown
  -- It is not down by a shutdown, and not for want of references, since this computation has one.
  rcases hiff.mp hdown with ⟨hclosed, -⟩ | hzero
  · cases hopen.symm.trans hclosed
  · have hreferred : s ∈ (run {} actions).references := by
      refine List.mem_append_right _ (List.mem_flatMap.mpr ⟨x, hx, List.mem_append_right _ ?_⟩)
      rwa [Reservation.mentions, hover, if_neg Bool.false_ne_true]
    have hcount := List.count_pos_iff.mpr hreferred
    have hreferences := hcounted.references_eq
    omega

/-- In every run, the pool of a scope that was built lives exactly as long as the scope is referred
to and was not shut down. -/
theorem lifetime_run {early : List (Action V)} {settings : Settings}
    (hbuild : (run {} early).build settings = .built s w') (actions : List (Action V)) :
    ∃ scope, (w'.run actions).scopes[s]? = some scope ∧ Lifetime s (w'.run actions) scope := by
  obtain ⟨scope₀, hscope₀, hbuilt, hopen⟩ := (Made.build hbuild).exists_scope
  have hact : (run {} early).act (.build settings) = w' := by rw [act, hbuild]
  have hrun : w' = run {} (early ++ [.build settings]) := by
    rw [run_concat, hact]
  rw [hact, hrun] at hscope₀
  obtain ⟨scope, hscope, -⟩ :=
    (ages_run (run {} (early ++ [.build settings])) actions).exists_scope hscope₀
  obtain ⟨hcounted, -⟩ := counted_run hscope₀ hopen hscope rfl
  have hstanding := standing_run hscope₀ hopen hscope
  rw [hbuilt] at hstanding
  have hshuts := isDown_of_calls actions hscope₀ hopen hbuilt
  have hiff := isDown_iff_of_standing hscope hstanding
  rw [hrun]
  refine ⟨scope, hscope, ?_⟩
  -- What has led to the scope and what has come since are one run.
  rw [← run_append] at hscope hcounted hshuts hiff hstanding ⊢
  exact
    { holders_of_counted hscope hcounted with
      isDown_iff := hiff
      shuts := hshuts
      keeps := fun x hx hover hmem hopen =>
        not_isDown_of_mentions hiff hcounted hx hover hmem hopen
      background := hstanding.background
      stranded := fun hdown r x scope' hx hscope' hsame => by
        obtain ⟨scope₁, pool, hscope₁, hpool, hstops⟩ := hdown
        obtain rfl := Option.some.inj (hscope.symm.trans hscope₁)
        exact stranded_run hx ⟨scope', pool, hscope', hsame ▸ hpool, hstops⟩ }

/-- What happens on a scope whose only caller drops it while a computation waits at a gate. -/
def leftWaiting : List (Action Nat) :=
  [.reserve 0 none "a" (.gate "door" (.finish (.value 7))), .use 0 .spawn, .testClosed 0, .spawn 0,
    .letGo 0, .resume 0, .step 0, .unshare 0]

/-- The pool is shut down in the background, and the computation is suspended on it. -/
theorem lifetime_leftWaiting : ∃ w x pool, (run {} []).build {} = .built 0 w ∧
    (w.run leftWaiting).reservations = [x] ∧ x.phase = .paused (.gate "door") ∧
    (w.run leftWaiting).pools = [pool] ∧ pool.stops = [.background] ∧
    ∃ scope, (w.run leftWaiting).scopes[0]? = some scope ∧
      Lifetime 0 (w.run leftWaiting : System Nat) scope :=
  ⟨_, _, _, rfl, rfl, rfl, rfl, rfl,
    lifetime_run (show (run {} []).build {} = .built 0 _ from rfl) leftWaiting⟩

/-- A reservation that nobody starts keeps the pool up after the caller has dropped the scope, and
when its handle is dropped the pool is shut down. -/
example :
    let before : List (Action Nat) :=
      [.build {}, .reserve 0 none "a" (.finish (.value 7)), .unshare 0]
    (run {} before).pools.map Pool.stops = [[]] ∧
      (run {} (before ++ [.drop 0])).pools.map Pool.stops = [[.background]] :=
  ⟨rfl, rfl⟩

/-- A run in which a computation has kept its scope to the last, and lets go of it. -/
def lastToLeave : List (Action Nat) :=
  [.build {}, .reserve 0 none "a" (.gate "door" (.dropScope 0 (.finish (.value 7)))), .unshare 0,
    .use 0 .spawn, .testClosed 0, .spawn 0, .letGo 0, .resume 0, .step 0, .openGate "door", .resume 0,
    .step 0]

/-- Nobody refers to the scope any more, and the computation is not over. It is not cancelled,
because it comes to its end without suspending. -/
theorem not_cancelled_lastToLeave :
    (∃ scope x, (run {} lastToLeave).scopes = [scope] ∧ scope.references = 0 ∧
      (run {} lastToLeave).IsDown 0 ∧ (run {} lastToLeave).reservations = [x] ∧ x.scope = 0 ∧
      x.phase.isOver = false) ∧
    ∃ x', (run {} (lastToLeave ++ [.step 0])).reservations = [x'] ∧ x'.phase = .ended ∧
      x'.outcomes = [.ok 7] :=
  ⟨⟨_, _, rfl, rfl, ⟨_, _, rfl, rfl, nofun⟩, rfl, rfl, rfl⟩, _, rfl, rfl, rfl⟩

end System

end Deferral
