import Deferral.Proofs.System.Blocking
import Deferral.Proofs.System.Timed
import Deferral.Proofs.System.Lifetime

/-!
# Timing out

How a call stands that blocks for a limited time, whatever happens meanwhile and in whatever order:
its caller blocks, or was answered, or is to give up, or has given up. A computation that was given
up takes no step any more once it is suspended, and nobody is handed its outcome.

Main statements:
* `Sees.parted`, `Sees.blocked`, `Sees.failed`: what a move does to a caller that has no handle,
  that blocks, and that is to give up.
* `abandoned_of_parted`: a computation of which the caller has given up is given up for good.
* `stands_run`: how a call stands after any moves.
-/

namespace Deferral

variable {V : Type}

/-! ## Computations that take no further step -/

/-- From `x` to `x'` the computation took no step, and at most was dropped. -/
structure Reservation.Stops (x x' : Reservation V) : Prop where
  position_eq : x'.position = x.position
  rest_eq : x'.rest = x.rest
  phase_eq : x'.phase = x.phase ∨ x'.phase = .dropped

/-- The computation is over, or an abort of it was requested. -/
def Reservation.IsDoomed (x : Reservation V) : Prop :=
  x.aborted = true ∨ x.phase.isOver = true

theorem Reservation.IsDoomed.grows {x x' : Reservation V} (h : x.IsDoomed) (hgrows : x.Grows x') :
    x'.IsDoomed :=
  h.imp hgrows.aborted_of_aborted fun hover => by rw [(hgrows.eq_of_isOver hover).1, hover]

namespace System

variable {w : System V} {a : Action V} {r : ReservationId} {x x' : Reservation V}

/-- A computation that is over takes no step any more. -/
theorem leadsTo_still {actions : List (Action V)} (hx : (run {} actions).reservations[r]? = some x)
    (hover : x.phase.isOver = true) (further : List (Action V)) :
    (run {} actions).LeadsTo further r x.Stops := by
  obtain ⟨x', hx', hposition, hrest, hphase⟩ := leadsTo_of_change
    (P := fun y => y.position = x.position ∧ y.rest = x.rest ∧ y.phase = x.phase)
    (fun w a y y' hchange _ hy => by
      obtain ⟨_, _, _, rfl⟩ := hchange.exists_eq_of_isOver (hy.2.2 ▸ hover)
      exact hy)
    hx ⟨rfl, rfl, rfl⟩ further
  exact ⟨x', hx', hposition, hrest, .inl hphase⟩

/-- A computation that is doomed takes no step once it is suspended, or over. -/
theorem leadsTo_stops {actions : List (Action V)} (hx : (run {} actions).reservations[r]? = some x)
    (hdoomed : x.IsDoomed) (hphase : x.phase.isSuspended = true ∨ x.phase.isOver = true)
    (further : List (Action V)) : (run {} actions).LeadsTo further r x.Stops := by
  by_cases hover : x.phase.isOver = true
  · exact leadsTo_still hx hover further
  · obtain ⟨x', hx', hposition, hrest, hphase'⟩ := leadsTo_halted hx (hdoomed.resolve_right hover)
      (.inl (hphase.resolve_right hover)) further
    exact ⟨x', hx', hposition, hrest, hphase'⟩

end System

namespace Timed

variable {t t' : Timed V} {m : Move V} {r : ReservationId} {x x' : Reservation V} {d : Duration}
  {l : List (Delivery V)}

/-- The system of the process has come about by actions, from the beginning. -/
def Rooted (t : Timed V) : Prop :=
  ∃ actions, t.system = System.run {} actions

theorem rooted_run (moves : List (Move V)) : Rooted (run {} moves) :=
  exists_system_run {} moves

/-- A reservation develops in a sequence of moves. -/
theorem grows_of_run {moves : List (Move V)} (hx : t.system.reservations[r]? = some x)
    (hx' : (t.run moves).system.reservations[r]? = some x') : x.Grows x' := by
  obtain ⟨actions, hactions⟩ := exists_system_run t moves
  rw [hactions] at hx'
  exact System.grows_of_run hx hx'

/-- A reservation develops in a move. -/
theorem grows_of_step {m : Move V} (hx : t.system.reservations[r]? = some x)
    (hx' : (t.step m).system.reservations[r]? = some x') : x.Grows x' := by
  rw [← run_nil (t.step m), ← run_cons] at hx'
  exact grows_of_run hx hx'

/-- What gives up takes the handle away, and requests an abort if the outcome was not published. -/
theorem getElem?_leaving {w : System V} (hx : w.reservations[r]? = some x)
    (hoffered : System.isOffered x = true) (hhandle : x.consumer.handle = .waiting (.blocking d))
    (hphase : x.phase ≠ .captured) :
    (w.act (leaving r w)).reservations[r]? = some { x with
      consumer := { x.consumer with handle := .gone }
      aborted := x.aborted || (w.expireAnswer r).isGivenUp && x.spawned } := by
  -- Both ways of leaving take the handle away; only the first one requests an abort.
  have hanswer : w.expireAnswer r = x.consumer.expire.2 := by
    rw [System.expireAnswer, hx]
    exact if_pos hoffered
  unfold leaving
  split
  next hgiven =>
    have hpending := ((Consumer.isGivenUp_expire_iff _).mp (hanswer ▸ hgiven)).2
    have hexpire : x.consumer.expire = ({ x.consumer with handle := .gone }, .givenUp d) := by
      simp [Consumer.expire, Consumer.fetch, hhandle, Cell.take?, hpending]
    rw [System.getElem?_act_of_offered (a := .expire r) rfl (by simp) hx hoffered,
      Reservation.operate, hanswer, hexpire]
  next hspares =>
    -- A handle that waits does not give up when it is dropped.
    have hdrop : x.dropHandle = { x with consumer := { x.consumer with handle := .gone } } := by
      rw [Reservation.dropHandle, if_neg (by simp [hhandle, Consumer.givesUp]), if_neg hphase,
        Consumer.drop, hhandle]
    rw [System.getElem?_act_of_offered (a := .drop r) rfl (by simp) hx hoffered,
      Bool.eq_false_iff.mpr hspares]
    show some x.dropHandle = _
    rw [hdrop]
    simp

/-! ## What a move does to a caller -/

/-- A caller without a handle, who is not to give up, is handed nothing, and requests no abort. -/
theorem Sees.parted (h : Sees r t m t' l) (hroot : t.Rooted)
    (hx : t.system.reservations[r]? = some x) (hparted : x.Parted) (hfree : r ∉ t.failed) :
    ∃ x', t'.system.reservations[r]? = some x' ∧ x'.Parted ∧ x'.aborted = x.aborted ∧
      r ∉ t'.failed ∧ (r ∈ t'.requested ↔ r ∈ t.requested) ∧ l = [] := by
  obtain ⟨actions, hactions⟩ := hroot
  rw [hactions] at hx
  cases h with
  | nothing hsystem hfailed hrequested =>
    exact ⟨x, by rw [hsystem, hactions, hx], hparted, rfl, hfailed.not.mpr hfree, hrequested, rfl⟩
  | other a ha hsystem hfailed hrequested =>
    obtain ⟨x', hx', -⟩ := System.exists_grows_run hx [a]
    obtain ⟨hparted', haborted, hhanded⟩ := System.parted_act hx hparted hx'
    exact ⟨x', by rw [hsystem, hactions]; exact hx', hparted', haborted, hfailed.not.mpr hfree,
      hrequested, by rw [hactions, hhanded]⟩
  | @own a ha =>
    obtain ⟨x', hx', -⟩ := System.exists_grows_run hx [a]
    obtain ⟨hparted', haborted, hhanded⟩ := System.parted_act hx hparted hx'
    exact ⟨x', by rw [hactions]; exact hx', hparted', haborted, hfree, .rfl,
      by rw [hactions, hhanded]⟩
  | inVain _ hgiven =>
    -- Without a handle he does not look.
    obtain ⟨y, limit, hy, -, hhandle, -⟩ := exists_blocking_of_isGivenUp hgiven
    rw [hactions] at hy
    obtain rfl := Option.some.inj (hx.symm.trans hy)
    cases hparted.handle_eq.symm.trans hhandle
  | giveUp hfailed => exact absurd hfailed hfree

/-- A caller that blocks only looks. -/
theorem eq_look_of_permits {a : Action V} (ha : a.handle? = some r) (hpermits : t.permits a = true)
    (hx : t.system.reservations[r]? = some x) (hblocks : x.consumer.handle.blocks = true) :
    (a = .fetch r ∨ a = .expire r) ∧ r ∉ t.failed := by
  have hblocked : t.isBlocked r = true := by rw [isBlocked, hx, Option.any_some, hblocks]
  cases a with
  | fetch q =>
    obtain rfl := Option.some.inj ha
    exact ⟨.inl rfl, by simpa [permits] using hpermits⟩
  | expire q =>
    obtain rfl := Option.some.inj ha
    exact ⟨.inr rfl, by simpa [permits] using hpermits⟩
  | reshape | use | poll | complete | cancel | drop | runDirectly =>
    simp [permits, ha, hblocked] at hpermits
  | _ => cases ha

/-- What a move does to a caller that blocks: he goes on, or is answered with the outcome, or has
looked in vain for the last time. -/
theorem Sees.blocked (h : Sees r t m t' l) (hroot : t.Rooted)
    (hx : t.system.reservations[r]? = some x) (hblocked : x.Blocked d) (hfree : r ∉ t.failed) :
    ∃ x', t'.system.reservations[r]? = some x' ∧ x'.aborted = x.aborted ∧
      (r ∈ t'.requested ↔ r ∈ t.requested) ∧
      (r ∉ t'.failed ∧ x'.Blocked d ∧ l = [] ∨
        r ∉ t'.failed ∧ x'.Parted ∧ (∃ o, x'.outcomes.head? = some o ∧ l = [.outcome o]) ∨
        r ∈ t'.failed ∧ m = .act (.expire r) ∧ x' = x ∧ x.outcomes = [] ∧ x.isSettled = true ∧
          x.spawned = true ∧ l = []) := by
  obtain ⟨actions, hactions⟩ := hroot
  rw [hactions] at hx
  cases h with
  | nothing hsystem hfailed hrequested =>
    exact ⟨x, by rw [hsystem, hactions, hx], rfl, hrequested,
      .inl ⟨hfailed.not.mpr hfree, hblocked, rfl⟩⟩
  | other a ha hsystem hfailed hrequested =>
    obtain ⟨x', hx', -⟩ := System.exists_grows_run hx [a]
    obtain ⟨hblocked', haborted, hhanded⟩ := System.blocked_of_others hx hblocked ha hx'
    exact ⟨x', by rw [hsystem, hactions]; exact hx', haborted, hrequested,
      .inl ⟨hfailed.not.mpr hfree, hblocked', by rw [hactions, hhanded]⟩⟩
  | @own a ha hpermits hvain =>
    have hlook := (eq_look_of_permits ha hpermits (by rw [hactions]; exact hx)
      (by rw [hblocked.handle_eq]; rfl)).1
    have hspares : a = .expire r →
        ((System.run {} actions).expireAnswer r).isGivenUp = false := by
      rintro rfl
      simpa [Timed.inVain?, hactions] using hvain
    rw [hactions]
    -- He is answered exactly if the launch has returned and the outcome was published.
    by_cases hthere : System.isOffered x = true ∧ x.outcomes ≠ []
    · obtain ⟨o, rest, ho⟩ := List.exists_cons_of_ne_nil hthere.2
      have hhead : x.outcomes.head? = some o := by rw [ho]; rfl
      obtain ⟨x', hx', -⟩ := System.exists_grows_run hx [a]
      obtain ⟨hparted, houtcomes, haborted, hhanded⟩ :=
        System.blocked_look hx hblocked hthere.1 hlook hhead hx'
      exact ⟨x', hx', haborted, .rfl, .inr (.inl ⟨hfree, hparted, o, by rw [houtcomes, hhead],
        hhanded⟩)⟩
    · obtain ⟨hx', hhanded⟩ := System.blocked_look_of_pending hx hblocked hlook hspares
        fun hoffered => by simpa [hoffered] using hthere
      exact ⟨x, hx', rfl, .rfl, .inl ⟨hfree, hblocked, hhanded⟩⟩
  | inVain _ hgiven =>
    rw [hactions] at hgiven
    obtain ⟨y, limit, hy, hoffered, -⟩ := exists_blocking_of_isGivenUp hgiven
    obtain rfl := Option.some.inj (hx.symm.trans hy)
    have houtcomes := (System.isGivenUp_expireAnswer_iff hx hblocked hoffered).mp hgiven
    obtain ⟨hsettled, hspawned⟩ := System.spawned_of_blocked hx hblocked hoffered houtcomes
    exact ⟨x, by rw [hactions, hx], rfl, .rfl,
      .inr (.inr ⟨List.mem_cons_self, rfl, rfl, houtcomes, hsettled, hspawned, rfl⟩)⟩
  | giveUp hfailed => exact absurd hfailed hfree

/-- Who gives up returns that he has timed out. -/
theorem handed_giveUp (hx : t.system.reservations[r]? = some x)
    (hoffered : System.isOffered x = true)
    (hhandle : x.consumer.handle = .waiting (.blocking d)) (hphase : x.phase ≠ .captured)
    (hfailed : r ∈ t.failed) : t.handed r (.giveUp r) = [.outcome (.error (.timedOut d))] := by
  have hlimit : t.system.waitLimit? r = some d := by
    rw [System.waitLimit?, hx, Option.bind_some, hhandle]
    rfl
  have hsystem : (t.step (.giveUp r)).system = t.system.act (leaving r t.system) := by
    simp only [step, Timed.giveUp, if_pos hfailed]
  simp [handed, Move.handle?, answer?, hfailed, hlimit, hsystem, System.calls, hx,
    getElem?_leaving hx hoffered hhandle hphase]

/-- What a move does to a caller that is to give up: he has still to do it, or he requests an
abort and returns. -/
theorem Sees.failed (h : Sees r t m t' l) (hroot : t.Rooted)
    (hx : t.system.reservations[r]? = some x) (hblocked : x.Blocked d)
    (hsettled : x.isSettled = true)
    (hspawned : x.spawned = true) (hfailed : r ∈ t.failed) :
    ∃ x', t'.system.reservations[r]? = some x' ∧ x'.spawned = true ∧
      (r ∈ t'.failed ∧ x'.Blocked d ∧ x'.isSettled = true ∧ x'.aborted = x.aborted ∧
          (r ∈ t'.requested ↔ r ∈ t.requested) ∧ l = [] ∨
        m = .giveUp r ∧ r ∉ t'.failed ∧ r ∈ t'.requested ∧ x'.Parted ∧ x'.IsDoomed ∧
          l = [.outcome (.error (.timedOut d))]) := by
  have hoffered := System.isOffered_of_isSettled hblocked.parent_eq hsettled
  have hphase := System.ne_captured_of_isSettled hsettled
  obtain ⟨actions, hactions⟩ := hroot
  cases h with
  | nothing hsystem hfailed' hrequested =>
    exact ⟨x, by rw [hsystem, hx], hspawned,
      .inl ⟨hfailed'.mpr hfailed, hblocked, hsettled, rfl, hrequested, rfl⟩⟩
  | other a ha hsystem hfailed' hrequested =>
    rw [hactions] at hx
    obtain ⟨x', hx', hgrows⟩ := System.exists_grows_run hx [a]
    obtain ⟨hblocked', haborted, hhanded⟩ := System.blocked_of_others hx hblocked ha hx'
    have hsettled' :=
      System.isSettled_of_others (by simpa using ha) hx hblocked.parent_eq hsettled hx'
    exact ⟨x', by rw [hsystem, hactions]; exact hx', hgrows.spawned_of_spawned hspawned,
      .inl ⟨hfailed'.mpr hfailed, hblocked', hsettled', haborted, hrequested,
        by rw [hactions, hhanded]⟩⟩
  | own ha hpermits =>
    have hlook := eq_look_of_permits ha hpermits hx (by rw [hblocked.handle_eq]; rfl)
    exact absurd hfailed hlook.2
  | inVain hfree => exact absurd hfailed hfree
  | giveUp =>
    have hleft := getElem?_leaving hx hoffered hblocked.handle_eq hphase
    have habortable : t.isAbortable r = true := by rw [isAbortable, hx, Option.any_some, hspawned]
    -- The launch has left a task, so that there is something to abort.
    have hgiveUp : t.giveUp r =
        { system := t.system.act (leaving r t.system), failed := t.failed.filter (· ≠ r),
          requested := r :: t.requested } := by
      rw [Timed.giveUp, if_pos hfailed, if_pos habortable]
    rw [hgiveUp]
    refine ⟨_, hleft, hspawned, .inr ⟨rfl, ?_, List.mem_cons_self, ?_, ?_,
      handed_giveUp hx hoffered hblocked.handle_eq hphase hfailed⟩⟩
    · simp
    · exact ⟨hblocked.parent_eq, rfl, hblocked.uncalled.attaching_eq, hblocked.uncalled.unheard⟩
    · -- Without an outcome the abort is requested; with one the computation is over.
      by_cases houtcomes : x.outcomes = []
      · have hgiven := (System.isGivenUp_expireAnswer_iff hx hblocked hoffered).mpr houtcomes
        exact .inl (by simp [hgiven, hspawned])
      · rw [hactions] at hx
        refine .inr ?_
        by_contra hover
        exact houtcomes ((System.sound_run hx).running (Bool.eq_false_iff.mpr hover))

/-! ## Computations that were given up -/

/-- The computation of the reservation `r` was given up for good by a caller that has timed out. -/
structure Abandoned (r : ReservationId) (t : Timed V) : Prop where
  /-- There was a task to abort, and an abort was requested. -/
  requested : r ∈ t.requested ∧ ∃ x, t.system.reservations[r]? = some x ∧ x.spawned = true
  /-- Whatever follows, the computation takes no step from when it is suspended on. -/
  stops : ∀ between y, (t.run between).system.reservations[r]? = some y →
    y.phase.isSuspended = true ∨ y.phase.isOver = true → ∀ later z,
      ((t.run between).run later).system.reservations[r]? = some z → y.Stops z
  /-- Whatever follows, nobody is handed the outcome, and nobody has a handle to look for it. -/
  undelivered : ∀ later, received r t later = [] ∧
    ∀ z, (t.run later).system.reservations[r]? = some z → z.Parted

theorem Rooted.run (h : t.Rooted) (moves : List (Move V)) : (t.run moves).Rooted := by
  obtain ⟨actions, hactions⟩ := h
  obtain ⟨further, hrun⟩ := exists_system_run t moves
  exact ⟨actions ++ further, by rw [hrun, hactions, System.run_append]⟩

/-- Whatever follows, a caller without a handle is handed nothing. -/
theorem parted_run (hroot : t.Rooted) (hx : t.system.reservations[r]? = some x) (hparted : x.Parted)
    (hfree : r ∉ t.failed) (moves : List (Move V)) : received r t moves = [] ∧
      ∃ x', (t.run moves).system.reservations[r]? = some x' ∧ x'.Parted := by
  induction moves generalizing t x with
  | nil => exact ⟨rfl, x, hx, hparted⟩
  | cons m moves ih =>
    obtain ⟨y, hy, hparted', -, hfree', -, hhanded⟩ :=
      (sees_step r t m).parted hroot hx hparted hfree
    obtain ⟨hreceived, hlater⟩ := ih (t := t.step m) (hroot.run [m]) hy hparted' hfree'
    exact ⟨by rw [received, hhanded, hreceived]; rfl, hlater⟩

/-- What has become of a computation of which the caller has just given up. -/
theorem abandoned_of_parted (hroot : t.Rooted) (hx : t.system.reservations[r]? = some x)
    (hparted : x.Parted) (hdoomed : x.IsDoomed) (hspawned : x.spawned = true) (hfree : r ∉ t.failed)
    (hrequested : r ∈ t.requested) : Abandoned r t where
  requested := ⟨hrequested, x, hx, hspawned⟩
  stops between y hy hphase later z hz := by
    have hgrows := grows_of_run hx hy
    obtain ⟨actions, hactions⟩ := hroot.run between
    -- The moves come to actions, of which it is known that they do not carry on what is doomed.
    obtain ⟨further, hfurther⟩ := exists_system_run (t.run between) later
    rw [hactions] at hy hfurther
    obtain ⟨z', hz', hstops⟩ := System.leadsTo_stops hy (hdoomed.grows hgrows) hphase further
    rw [hfurther, hz'] at hz
    exact Option.some.inj hz ▸ hstops
  undelivered later := by
    obtain ⟨hreceived, x', hx', hparted'⟩ := parted_run hroot hx hparted hfree later
    refine ⟨hreceived, fun z hz => ?_⟩
    exact Option.some.inj (hx'.symm.trans hz) ▸ hparted'

/-- During the moves the caller of the reservation `r` has looked, and no outcome had been
published. It was his last look: ever since he is to give up. -/
def LookedInVain (r : ReservationId) (t : Timed V) (moves : List (Move V)) : Prop :=
  ∃ early between x, moves = early ++ .act (.expire r) :: between ∧
    (t.run early).system.reservations[r]? = some x ∧ x.outcomes = [] ∧
    ∀ since, since <+: between → r ∈ (t.run (early ++ .act (.expire r) :: since)).failed

/-- During the moves the caller of the reservation `r` has looked in vain for the last
time, and then, before he has returned anything, has requested an abort that gives the
computation up for good. -/
def GaveUp (r : ReservationId) (t : Timed V) (moves : List (Move V)) : Prop :=
  ∃ early late, moves = early ++ .giveUp r :: late ∧ LookedInVain r t early ∧ received r t early = [] ∧
    Abandoned r (t.run (early ++ [.giveUp r]))

/-- Who goes on being to give up has not looked again. -/
theorem LookedInVain.step {moves : List (Move V)} (h : LookedInVain r t moves)
    (hfailed : r ∈ (t.run (moves ++ [m])).failed) : LookedInVain r t (moves ++ [m]) := by
  obtain ⟨early, between, x, rfl, hx, houtcomes, hsince⟩ := h
  refine ⟨early, between ++ [m], x, by simp, hx, houtcomes, fun since hpre => ?_⟩
  rcases List.prefix_concat_iff.mp hpre with rfl | hpre
  · simpa using hfailed
  · exact hsince since hpre

theorem GaveUp.append {moves : List (Move V)} (h : GaveUp r t moves) (further : List (Move V)) :
    GaveUp r t (moves ++ further) := by
  obtain ⟨early, late, rfl, hgaveUp⟩ := h
  exact ⟨early, late ++ further, by simp, hgaveUp⟩

/-! ## How a call stands -/

/-- A call that blocks for at most `d`. -/
def call (r : ReservationId) (d : Duration) : Move V :=
  .act (.use r (.block (some d)))

/-- How a call stands that blocks for at most `d`, with what its caller was handed. It was made when
the reservation was `x₀`, and has led to the process `t`; since then the moves have followed, and
now the reservation is `x`. -/
inductive Stands (r : ReservationId) (d : Duration) (x₀ : Reservation V) (t : Timed V)
    (moves : List (Move V)) (x : Reservation V) : List (Delivery V) → Prop
  /-- The caller blocks. -/
  | blocked (hfree : r ∉ (t.run moves).failed) (hspared : r ∉ (t.run moves).requested)
      (haborted : x.aborted = x₀.aborted) (hblocked : x.Blocked d) : Stands r d x₀ t moves x []
  /-- He was answered with the outcome, or that there is none any more. -/
  | returned (o : Outcome V) (hfree : r ∉ (t.run moves).failed)
      (hspared : r ∉ (t.run moves).requested) (haborted : x.aborted = x₀.aborted)
      (hparted : x.Parted) (hcause : x.outcomes.head? = some o ∨
        x₀.consumer.handle = .mono .done ∧ o = spent) : Stands r d x₀ t moves x [.outcome o]
  /-- He is to give up. -/
  | failed (hfailed : r ∈ (t.run moves).failed) (hspared : r ∉ (t.run moves).requested)
      (haborted : x.aborted = x₀.aborted) (hblocked : x.Blocked d) (hsettled : x.isSettled = true)
      (hspawned : x.spawned = true) (hlooked : LookedInVain r t moves) : Stands r d x₀ t moves x []
  /-- He has given up. -/
  | gaveUp (hfree : r ∉ (t.run moves).failed) (hparted : x.Parted) (hspawned : x.spawned = true)
      (hgaveUp : GaveUp r t moves) : Stands r d x₀ t moves x [.outcome (.error (.timedOut d))]

/-- A move leads from one way to stand to another. -/
theorem Stands.step {x₀ : Reservation V} {moves : List (Move V)} (h : Stands r d x₀ t moves x l)
    (hroot : t.Rooted) (hx : (t.run moves).system.reservations[r]? = some x)
    (hreceived : received r t moves = l) (m : Move V) :
    ∃ x', (t.run (moves ++ [m])).system.reservations[r]? = some x' ∧
      Stands r d x₀ t (moves ++ [m]) x' (received r t (moves ++ [m])) := by
  have hlater := hroot.run moves
  have hsees := sees_step r (t.run moves) m
  have hstep : t.run (moves ++ [m]) = (t.run moves).step m := by
    rw [run_append, run_cons, run_nil]
  have hhands : received r t (moves ++ [m]) = l ++ (t.run moves).handed r m := by
    rw [received_append, hreceived, received, received, List.append_nil]
  rw [hhands]
  -- What the move can be for the caller depends on how his call stands.
  cases h with
  | blocked hfree hspared haborted hblocked =>
    obtain ⟨x', hx', haborted', hrequested, hcases⟩ := hsees.blocked hlater hx hblocked hfree
    rw [← hstep] at hx' hrequested hcases
    refine ⟨x', hx', ?_⟩
    rcases hcases with ⟨hfree', hblocked', hhanded⟩ | ⟨hfree', hparted, o, ho, hhanded⟩ |
      ⟨hfailed, rfl, rfl, houtcomes, hsettled, hspawned, hhanded⟩
    · rw [hhanded]
      exact .blocked hfree' (hrequested.not.mpr hspared) (haborted'.trans haborted) hblocked'
    · rw [hhanded]
      exact .returned o hfree' (hrequested.not.mpr hspared) (haborted'.trans haborted)
        hparted (.inl ho)
    · -- This is the last look; nothing has happened since.
      have hlooked : LookedInVain r t (moves ++ [.act (.expire r)]) := by
        refine ⟨moves, [], x', rfl, hx, houtcomes, fun since hpre => ?_⟩
        rw [List.prefix_nil.mp hpre]
        exact hfailed
      rw [hhanded]
      exact .failed hfailed (hrequested.not.mpr hspared) haborted hblocked hsettled hspawned hlooked
  | returned o hfree hspared haborted hparted hcause =>
    obtain ⟨x', hx', hparted', haborted', hfree', hrequested, hhanded⟩ :=
      hsees.parted hlater hx hparted hfree
    have hgrows := grows_of_step hx hx'
    rw [← hstep] at hx' hfree' hrequested
    rw [hhanded]
    exact ⟨x', hx', .returned o hfree' (hrequested.not.mpr hspared) (haborted'.trans haborted)
      hparted' (hcause.imp_left (head?_eq_some_mono hgrows.outcomes_prefix))⟩
  | failed hfailed hspared haborted hblocked hsettled hspawned hlooked =>
    obtain ⟨x', hx', hspawned', hcases⟩ := hsees.failed hlater hx hblocked hsettled hspawned hfailed
    rw [← hstep] at hx' hcases
    refine ⟨x', hx', ?_⟩
    rcases hcases with ⟨hfailed', hblocked', hsettled', haborted', hrequested, hhanded⟩ |
      ⟨rfl, hfree, hrequested, hparted, hdoomed, hhanded⟩
    · rw [hhanded]
      exact .failed hfailed' (hrequested.not.mpr hspared) (haborted'.trans haborted)
        hblocked' hsettled' hspawned' (hlooked.step hfailed')
    · rw [hhanded]
      exact .gaveUp hfree hparted hspawned' ⟨moves, [], rfl, hlooked, hreceived,
        abandoned_of_parted (hroot.run _) hx' hparted hdoomed hspawned' hfree hrequested⟩
  | gaveUp hfree hparted hspawned hgaveUp =>
    obtain ⟨x', hx', hparted', -, hfree', -, hhanded⟩ := hsees.parted hlater hx hparted hfree
    have hgrows := grows_of_step hx hx'
    rw [← hstep] at hx' hfree'
    rw [hhanded]
    exact ⟨x', hx', .gaveUp hfree' hparted' (hgrows.spawned_of_spawned hspawned)
      (hgaveUp.append [m])⟩

/-! ## Beginning to block -/

/-- Who is to give up has used his handle up in order to wait, and who has given up has none. -/
structure Lawful (r : ReservationId) (t : Timed V) : Prop where
  /-- Who is to give up waits for a launched computation. -/
  failed : r ∈ t.failed → ∃ x, t.system.reservations[r]? = some x ∧ x.parent = none ∧
    x.isSettled = true ∧ ∃ limit, x.consumer.handle = .waiting (.blocking limit)
  /-- Who has given up has no handle. -/
  requested : r ∈ t.requested → ∃ x, t.system.reservations[r]? = some x ∧ x.parent = none ∧
    x.consumer.handle = .gone

/-- Who does nothing with a handle leaves it as it is. -/
theorem exists_handle_eq_of_others {actions : List (Action V)} {a : Action V}
    (hx : (System.run {} actions).reservations[r]? = some x) (hparent : x.parent = none)
    (ha : a.handle? ≠ some r) : ∃ x', ((System.run {} actions).act a).reservations[r]? = some x' ∧
      x'.parent = none ∧ x'.consumer.handle = x.consumer.handle := by
  obtain ⟨x', hx', hchanges⟩ := System.exists_changes_act hx a
  exact ⟨x', hx', (System.Changes.grows hchanges).parent_eq.trans hparent,
    System.Changes.handle_eq hchanges fun hby => ha (hby.caller_of_parent_eq_none hx hparent).1⟩

theorem Sees.lawful (h : Sees r t m t' l) (hroot : t.Rooted) (hlawful : Lawful r t) :
    Lawful r t' := by
  obtain ⟨actions, hactions⟩ := hroot
  cases h with
  | nothing hsystem hfailed hrequested =>
    refine ⟨fun h => ?_, fun h => ?_⟩
    · rw [hsystem]
      exact hlawful.failed (hfailed.mp h)
    · rw [hsystem]
      exact hlawful.requested (hrequested.mp h)
  | other a ha hsystem hfailed hrequested =>
    rw [hactions] at hsystem
    have hothers : ∀ b ∈ [a], b.handle? ≠ some r := by simpa using ha
    refine ⟨fun h => ?_, fun h => ?_⟩
    · obtain ⟨x, hx, hparent, hsettled, limit, hhandle⟩ := hlawful.failed (hfailed.mp h)
      rw [hactions] at hx
      obtain ⟨x', hx', hparent', hhandle'⟩ := exists_handle_eq_of_others hx hparent ha
      exact ⟨x', by rw [hsystem, hx'], hparent',
        System.isSettled_of_others hothers hx hparent hsettled hx', limit,
        hhandle'.trans hhandle⟩
    · obtain ⟨x, hx, hparent, hhandle⟩ := hlawful.requested (hrequested.mp h)
      rw [hactions] at hx
      obtain ⟨x', hx', hparent', hhandle'⟩ := exists_handle_eq_of_others hx hparent ha
      exact ⟨x', by rw [hsystem, hx'], hparent', hhandle'.trans hhandle⟩
  | own ha hpermits =>
    refine ⟨fun h => ?_, fun h => ?_⟩
    · obtain ⟨x, hx, -, -, limit, hhandle⟩ := hlawful.failed h
      -- Who is to give up does not look again.
      exact absurd h (eq_look_of_permits ha hpermits hx (by rw [hhandle]; rfl)).2
    · obtain ⟨x, hx, hparent, hhandle⟩ := hlawful.requested h
      rw [hactions] at hx ⊢
      exact ⟨x, (System.act_of_gone hx hhandle ha).1, hparent, hhandle⟩
  | inVain _ hgiven =>
    refine ⟨fun _ => ?_, hlawful.requested⟩
    obtain ⟨x, limit, hx, hoffered, hhandle, -⟩ := exists_blocking_of_isGivenUp hgiven
    have hphase : x.phase ≠ .captured := by
      rw [hactions] at hx
      exact (System.aligned_run hx).ne_captured (by rw [hhandle]; rfl)
    exact ⟨x, hx, System.parent_eq_none_of_isOffered hoffered,
      System.isSettled_of_isOffered hoffered hphase, limit, hhandle⟩
  | giveUp hfailed =>
    obtain ⟨x, hx, hparent, hsettled, limit, hhandle⟩ := hlawful.failed hfailed
    have hleft := getElem?_leaving hx (System.isOffered_of_isSettled hparent hsettled) hhandle
      (System.ne_captured_of_isSettled hsettled)
    rw [Timed.giveUp, if_pos hfailed]
    exact ⟨fun h => by simp at h, fun _ => ⟨_, hleft, hparent, rfl⟩⟩

/-- In every process, who is to give up blocks, and who has given up has no handle. -/
theorem lawful_run (r : ReservationId) (moves : List (Move V)) : Lawful r (run {} moves) := by
  induction moves using List.reverseRecOn with
  | nil => exact ⟨nofun, nofun⟩
  | append_singleton moves m ih =>
    rw [run_append]
    exact (sees_step r (run {} moves) m).lawful (rooted_run moves) ih

/-- A caller that has a handle with which to block is neither to give up, nor has he. -/
theorem Lawful.notMem (h : Lawful r t) (hx : t.system.reservations[r]? = some x)
    (hhandle : x.consumer.handle = .reservation ∨ ∃ stage, x.consumer.handle = .mono stage) :
    r ∉ t.failed ∧ r ∉ t.requested := by
  refine ⟨fun hfailed => ?_, fun hrequested => ?_⟩
  · obtain ⟨y, hy, -, -, limit, hwaiting⟩ := h.failed hfailed
    obtain rfl := Option.some.inj (hx.symm.trans hy)
    rcases hhandle with hhandle | ⟨stage, hhandle⟩ <;> cases hhandle.symm.trans hwaiting
  · obtain ⟨y, hy, -, hgone⟩ := h.requested hrequested
    obtain rfl := Option.some.inj (hx.symm.trans hy)
    rcases hhandle with hhandle | ⟨stage, hhandle⟩ <;> cases hhandle.symm.trans hgone

/-- A call is possible with a handle that has not been used up. -/
theorem step_call (hx : t.system.reservations[r]? = some x)
    (hhandle : x.consumer.handle = .reservation ∨ ∃ stage, x.consumer.handle = .mono stage)
    (d : Duration) :
    t.step (call r d) = { t with system := t.system.act (.use r (.block (some d))) } ∧
      t.handed r (call r d) = t.system.handed r (.use r (.block (some d))) := by
  have hpermits : t.permits (.use r (.block (some d))) = true := by
    rcases hhandle with hhandle | ⟨stage, hhandle⟩ <;>
      simp [permits, Action.handle?, isBlocked, hx, hhandle, Handle.blocks]
  exact step_act hpermits rfl r

/-- How a call stands when it has just been made. -/
theorem stands_call (hroot : t.Rooted) (hlawful : Lawful r t)
    (hx : t.system.reservations[r]? = some x) (hoffered : System.isOffered x = true)
    (hhandle : x.consumer.handle = .reservation ∨ ∃ stage, x.consumer.handle = .mono stage)
    (d : Duration) : ∃ x', (t.run [call r d]).system.reservations[r]? = some x' ∧
      Stands r d x t [call r d] x' (received r t [call r d]) := by
  obtain ⟨hfree, hspared⟩ := hlawful.notMem hx hhandle
  obtain ⟨hcall, hhanded⟩ := step_call hx hhandle d
  have hstep : t.run [call r d] = { t with system := t.system.act (.use r (.block (some d))) } :=
    hcall
  have hreceived : received r t [call r d] = t.system.handed r (.use r (.block (some d))) := by
    rw [received, received, List.append_nil, hhanded]
  obtain ⟨actions, hactions⟩ := hroot
  rw [hreceived, hstep]
  rw [hactions] at hx ⊢
  obtain ⟨x', hx', -⟩ := System.exists_grows_run hx [.use r (.block (some d))]
  have hspares : ¬(System.run {} actions).GivesUp r x (.use r (.block (some d))) :=
    fun hgives => by cases hgives
  have haborted : x'.aborted = x.aborted := by
    rw [Bool.eq_iff_iff, System.aborted_act (a := .use r (.block (some d))) hx hx']
    exact ⟨fun h => h.resolve_right fun hgives => hspares hgives.2, .inl⟩
  refine ⟨x', hx', ?_⟩
  -- In all cases but the last the caller blocks.
  have waits (h : x'.Blocked d ∧
      (System.run {} actions).handed r (.use r (.block (some d))) = []) :
      Stands r d x t [call r d] x'
        ((System.run {} actions).handed r (.use r (.block (some d)))) := by
    rw [h.2]
    exact .blocked (by rw [hstep]; exact hfree) (by rw [hstep]; exact hspared) haborted h.1
  rcases hhandle with hhandle | ⟨_ | _ | _, hhandle⟩
  · exact waits (System.blocked_of_launch hx hoffered (.inl hhandle) hx').2
  · exact waits (System.blocked_of_launch hx hoffered (.inr hhandle) hx').2
  · exact waits (System.blocked_of_running hx hoffered hhandle hx')
  · obtain ⟨hparted, hhanded⟩ := System.parted_of_done hx hoffered hhandle hx'
    rw [hhanded]
    exact .returned spent (by rw [hstep]; exact hfree) (by rw [hstep]; exact hspared)
      haborted hparted (.inr ⟨hhandle, rfl⟩)

/-- How a call stands after any moves. -/
theorem stands_run (hroot : t.Rooted) (hlawful : Lawful r t)
    (hx : t.system.reservations[r]? = some x) (hoffered : System.isOffered x = true)
    (hhandle : x.consumer.handle = .reservation ∨ ∃ stage, x.consumer.handle = .mono stage)
    (d : Duration) (further : List (Move V)) :
    ∃ x', (t.run (call r d :: further)).system.reservations[r]? = some x' ∧
      Stands r d x t (call r d :: further) x' (received r t (call r d :: further)) := by
  -- The call is made first, so the induction is on what has followed last.
  induction further using List.reverseRecOn with
  | nil => exact stands_call hroot hlawful hx hoffered hhandle d
  | append_singleton further m ih =>
    obtain ⟨x', hx', hstands⟩ := ih
    exact hstands.step hroot hx' rfl m

end Timed

end Deferral
