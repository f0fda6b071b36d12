import Deferral.Proofs.System.Abandonment

/-!
# What an abort reaches

A task whose abort was requested while it was suspended takes no further step. When it is dropped it
drops the handle of the reservation that it was waiting for, and if that handle is one that gives
the computation up, an abort of that one is requested in turn. A nested computation is aborted in no
other way.

Main statements:
* `leadsTo_halted`: a suspended task whose abort was requested stays where it is.
* `handle_eq_gone_of_aborted`: in every run, who has the handle of a nested reservation
  has not given it up.
* `Reached.of_chain`: along handles that give up, an abort reaches every computation of a chain.
-/

namespace Deferral

variable {V : Type}

/-- From `x` to `x'` nothing of the computation was carried out, and it was not dropped. -/
structure Reservation.Idles (x x' : Reservation V) : Prop where
  phase_eq : x'.phase = x.phase
  rest_eq : x'.rest = x.rest
  position_eq : x'.position = x.position
  events_eq : x'.events = x.events
  outcomes_eq : x'.outcomes = x.outcomes

namespace Reservation.Idles

theorem refl (x : Reservation V) : x.Idles x := ⟨rfl, rfl, rfl, rfl, rfl⟩

theorem trans {x x' x'' : Reservation V} (h : x.Idles x') (h' : x'.Idles x'') : x.Idles x'' :=
  ⟨h'.phase_eq.trans h.phase_eq, h'.rest_eq.trans h.rest_eq, h'.position_eq.trans h.position_eq,
    h'.events_eq.trans h.events_eq, h'.outcomes_eq.trans h.outcomes_eq⟩

end Reservation.Idles

/-- Of the handles that a computation makes in order to suspend, all but that of a future give the
computation up when they are dropped. -/
theorem Access.givesUp_consumer {access : Access} (h : access.blocks = false) :
    Consumer.givesUp (access.consumer : Consumer V).handle = true ↔ access ≠ .spawn := by
  cases access with
  | spawn => exact ⟨nofun, absurd rfl⟩
  | mono | maybe | stream => exact ⟨fun _ => nofun, fun _ => rfl⟩
  | block | join | monoBlock | get | next => cases h

/-- A handle that a computation makes is there. -/
theorem Access.handle_consumer_ne_gone (access : Access) :
    (access.consumer : Consumer V).handle ≠ .gone := by
  cases access <;> nofun

namespace System

variable {w : System V} {a : Action V} {p q r c : ReservationId} {x x' : Reservation V}

/-! ## Tasks that are dropped -/

/-- Dropping a task carries no other one on. -/
theorem Change.idles_of_dropTask (h : w.Change r (.dropTask q) x x') (hphase : x.phase ≠ .captured)
    (hspared : q = r → x.phase.isSuspended = false) : x.Idles x' := by
  cases h with
  | handle | attach | letGo | abort => exact ⟨rfl, rfl, rfl, rfl, rfl⟩
  | launch hcaptured | clearDirectly hcaptured | discard hcaptured => exact absurd hcaptured hphase
  | refuse ha | clear _ _ ha | start _ _ ha | pause _ _ _ _ ha | finish _ _ ha => cases ha
  | queue _ _ ha | lose _ _ ha => rcases ha with ha | ha <;> cases ha
  | advance _ _ _ _ hcarries | engage _ _ _ hcarries =>
    rcases hcarries.action_eq with ha | ha <;> cases ha
  | drop ha hsuspended =>
    obtain rfl := Action.dropTask.inj ha
    cases (hspared rfl).symm.trans hsuspended

/-- Dropping tasks carries no other one on, and no task that is not suspended. -/
theorem leadsTo_idles (tasks : List ReservationId) (hx : w.reservations[r]? = some x)
    (hphase : x.phase ≠ .captured) (hspared : r ∈ tasks → x.phase.isSuspended = false) :
    w.LeadsTo (tasks.map .dropTask) r x.Idles := by
  induction tasks generalizing w x with
  | nil => exact ⟨x, hx, .refl x⟩
  | cons q tasks ih =>
    obtain ⟨x', hx', hchanges⟩ := exists_changes_act hx (.dropTask q)
    have hidles : x.Idles x' := by
      refine Changes.preserve (P := x.Idles) (fun y y' hchange hy => ?_) hchanges (.refl x)
      rw [← hy.phase_eq] at hphase
      refine hy.trans (hchange.idles_of_dropTask hphase fun hq => ?_)
      rw [hy.phase_eq]
      exact hspared (List.mem_cons.mpr (.inl hq.symm))
    obtain ⟨x'', hx'', hidles'⟩ := ih hx' (hidles.phase_eq ▸ hphase) fun hmem => by
      rw [hidles.phase_eq]
      exact hspared (List.mem_cons_of_mem _ hmem)
    exact ⟨x'', hx'', hidles.trans hidles'⟩

/-- A suspended task whose abort was requested takes no further step, and neither does it once it
was dropped. -/
theorem Change.halts (h : w.Change r a x x') (haborted : x.aborted = true)
    (hphase : x.phase.isSuspended = true ∨ x.phase = .dropped) :
    x'.position = x.position ∧ x'.rest = x.rest ∧ (x'.phase = x.phase ∨ x'.phase = .dropped) := by
  have hdoomed : w.isDoomed x = true := by simp [isDoomed, haborted]
  rcases hphase with hsuspended | hdropped
  · obtain ⟨_, _, _, rfl⟩ | ⟨hspared, -⟩ | ⟨-, rfl⟩ := h.cases_of_isSuspended hsuspended
    · exact ⟨rfl, rfl, .inl rfl⟩
    · cases hdoomed.symm.trans hspared
    · exact ⟨rfl, rfl, .inr rfl⟩
  · obtain ⟨_, _, _, rfl⟩ := h.exists_eq_of_isOver (by rw [hdropped]; rfl)
    exact ⟨rfl, rfl, .inl rfl⟩

/-- A suspended task whose abort was requested stays where it is, until it is dropped and after. -/
theorem leadsTo_halted (hx : w.reservations[r]? = some x) (haborted : x.aborted = true)
    (hphase : x.phase.isSuspended = true ∨ x.phase = .dropped) (further : List (Action V)) :
    w.LeadsTo further r fun x' => x'.position = x.position ∧ x'.rest = x.rest ∧
      (x'.phase = x.phase ∨ x'.phase = .dropped) := by
  have hhalted := leadsTo_of_preserved (P := fun y => y.aborted = true ∧
    y.position = x.position ∧ y.rest = x.rest ∧ (y.phase = x.phase ∨ y.phase = .dropped))
    (fun w a y y' hchange hy => ?_) hx ⟨haborted, rfl, rfl, .inl rfl⟩ further
  · obtain ⟨x', hx', -, hkept⟩ := hhalted
    exact ⟨x', hx', hkept⟩
  · obtain ⟨haborted, hposition, hrest, hphase'⟩ := hy
    have hy' : y.phase.isSuspended = true ∨ y.phase = .dropped :=
      hphase'.elim (fun h => h ▸ hphase) .inr
    obtain ⟨hposition', hrest', hphase''⟩ := hchange.halts haborted hy'
    exact ⟨hchange.grows.aborted_of_aborted haborted, hposition'.trans hposition,
      hrest'.trans hrest, hphase''.elim (fun h => h ▸ hphase') .inr⟩

/-! ## Handles of nested reservations -/

/-- Of a nested reservation, only the computation that has made it gives anything up: by being
dropped while it waits, or by dropping a stream from which it has got the item. -/
inductive GivesUpNested (w : System V) (r : ReservationId) (x : Reservation V) (p : ReservationId) :
    Action V → Prop
  /-- It is dropped while it waits. -/
  | dropTask {y : Reservation V} (hy : w.reservations[p]? = some y)
      (hphase : y.phase = .paused (.inner r)) (hdoomed : w.isDoomed y = true)
      (hgives : Consumer.givesUp x.consumer.handle = true) : GivesUpNested w r x p (.dropTask p)
  /-- It has got the item. -/
  | step {y : Reservation V} (hy : w.reservations[p]? = some y)
      (hphase : y.phase = .active (.engaged r)) (hcan : w.canStep y = true)
      (hhandle : x.consumer.handle = .stream .running)
      (hready : x.consumer.channel.isReady = true) : GivesUpNested w r x p (.step p)

/-- Nobody but the computation that has made a reservation gives it up. -/
theorem GivesUp.nested {actions : List (Action V)} (h : (run {} actions).GivesUp r x a)
    (hx : (run {} actions).reservations[r]? = some x) (hparent : x.parent = some p) :
    (run {} actions).GivesUpNested r x p a := by
  -- Whoever waits for the reservation has made it.
  have made {q : ReservationId} {y : Reservation V}
      (hy : (run {} actions).reservations[q]? = some y) (hawaits : y.phase.awaited? = some r) :
      q = p := by
    obtain ⟨access, z, htends, -⟩ := exists_tends hy hawaits
    obtain rfl := Option.some.inj (hx.symm.trans htends.getElem?_eq)
    exact Option.some.inj (htends.parent_eq.symm.trans hparent)
  cases h with
  | cancel hoffered | expire hoffered | drop hoffered => simp [isOffered, hparent] at hoffered
  | dropTask hy hphase hdoomed hgives =>
    obtain rfl := made hy (by rw [hphase]; rfl)
    exact .dropTask hy hphase hdoomed hgives
  | step hy hphase hcan hhandle hready =>
    obtain rfl := made hy (by rw [hphase]; rfl)
    exact .step hy hphase hcan hhandle hready

/-- The handle of a nested reservation is left alone, or dropped. -/
theorem handle_eq_or_eq_gone {actions : List (Action V)}
    (hx : (run {} actions).reservations[r]? = some x) (hparent : x.parent ≠ none)
    (hx' : ((run {} actions).act a).reservations[r]? = some x') :
    x'.consumer.handle = x.consumer.handle ∨ x'.consumer.handle = .gone := by
  by_cases hby : (run {} actions).Handles r a
  · cases hby.handled hx hx' with
    | operate _ _ hoffered | runDirectly hoffered => simp [isOffered, hparent] at hoffered
    | look access =>
      rw [Reservation.handle_lookedAt]
      split
      · exact .inr rfl
      · exact .inl rfl
    | stay => exact .inl rfl
    | dropTask => exact .inr (Reservation.handle_dropHandle x)
  · have hchanges := changes_of_act hx hx'
    exact .inl (hchanges.handle_eq hby)

/-- Giving a nested reservation up is dropping its handle. -/
theorem GivesUpNested.handle_eq_gone {actions : List (Action V)}
    (h : (run {} actions).GivesUpNested r x p a)
    (hx : (run {} actions).reservations[r]? = some x)
    (hx' : ((run {} actions).act a).reservations[r]? = some x') :
    x'.consumer.handle = .gone := by
  cases h with
  | dropTask hy hphase hdoomed =>
    obtain rfl :=
      Option.some.inj (hx'.symm.trans (getElem?_dropTask_of_paused hx hy hphase hdoomed))
    exact Reservation.handle_dropHandle x
  | step hy hphase hcan hhandle hready =>
    obtain ⟨access, -, hstep⟩ := getElem?_step_of_engaged hx hy hphase hcan
    obtain rfl := Option.some.inj (hx'.symm.trans hstep)
    have hfound := ((Consumer.givesUp_look_iff (waker p access) _).mpr ⟨hhandle, hready⟩).1
    rw [Reservation.handle_lookedAt, if_pos (Option.isSome_iff_ne_none.mpr hfound)]

/-- In every run, an abort of a nested computation is requested only by dropping its handle. -/
theorem handle_eq_gone_of_aborted {actions : List (Action V)}
    (hx : (run {} actions).reservations[r]? = some x) (hparent : x.parent ≠ none)
    (haborted : x.aborted = true) : x.consumer.handle = .gone := by
  induction hx using run_induction with
  | start hx => cases hx
  | new _ _ hnew => cases hnew <;> cases haborted
  | @act _ _ _ y hx hy hchanges ih =>
    have hparent' : y.parent ≠ none := (Changes.grows hchanges).parent_eq ▸ hparent
    rcases (aborted_act hy hx).mp haborted with hbefore | ⟨-, hgives⟩
    · rcases handle_eq_or_eq_gone hy hparent' hx with hsame | hgone
      · exact hsame.trans (ih hparent' hbefore)
      · exact hgone
    · obtain ⟨p, hp⟩ := Option.ne_none_iff_exists'.mp hparent'
      exact (hgives.nested hy hp).handle_eq_gone hy hx

/-! ## Along handles that give up -/

/-- An abort of the computation was requested, unless it has come to an outcome before. -/
def Reached (w : System V) (r : ReservationId) : Prop :=
  ∃ x, w.reservations[r]? = some x ∧ (x.aborted = true ∨ x.outcomes ≠ [])

/-- An abort that was requested stays so. -/
theorem reached_run (h : w.Reached r) (further : List (Action V)) :
    (w.run further).Reached r := by
  obtain ⟨x, hx, hreached⟩ := h
  obtain ⟨x', hx', hgrows⟩ := exists_grows_run hx further
  exact ⟨x', hx', hreached.imp hgrows.aborted_of_aborted fun houtcomes hnil =>
    houtcomes (List.prefix_nil.mp (hnil ▸ hgrows.outcomes_prefix))⟩

/-- The computation of `p` waits for the reservation `c` with a handle that gives it up, unless an
abort has reached `c`, or an outcome. -/
def Bound (w : System V) (p c : ReservationId) : Prop :=
  (∃ x z, w.reservations[p]? = some x ∧ x.phase = .paused (.inner c) ∧
    w.reservations[c]? = some z ∧ Consumer.givesUp z.consumer.handle = true) ∨ w.Reached c

/-- What was launched was handed to its pool, or has come to an outcome. -/
theorem spawned_or_outcomes_ne_nil {actions : List (Action V)}
    (hx : (run {} actions).reservations[r]? = some x) (hlaunched : x.phase.isLaunched = true)
    (hlaunches : x.launches ≠ 0) : x.spawned = true ∨ x.outcomes ≠ [] := by
  rcases Reservation.IsLaunched.hasTask_or_isAnswered (.inl hlaunches) (sound_run hx)
    (flagged_run hx) hlaunched with htask | ⟨-, o, houtcomes, -⟩
  · exact .inl htask.1
  · exact .inr (by rw [houtcomes]; nofun)

/-- When a doomed task is dropped while it waits with a handle that gives up, an abort is requested
of what it waits for. -/
theorem reached_dropTask {actions : List (Action V)} {z : Reservation V}
    (hx : (run {} actions).reservations[p]? = some x) (hphase : x.phase = .paused (.inner c))
    (hdoomed : (run {} actions).isDoomed x = true)
    (hz : (run {} actions).reservations[c]? = some z)
    (hgives : Consumer.givesUp z.consumer.handle = true) :
    ((run {} actions).act (.dropTask p)).Reached c := by
  obtain ⟨access, z', htends, -, hlaunches⟩ := exists_tends hx (by rw [hphase]; rfl)
  obtain rfl := Option.some.inj (hz.symm.trans htends.getElem?_eq)
  refine ⟨_, getElem?_dropTask_of_paused hz hx hphase hdoomed, ?_⟩
  rw [aborted_dropHandle, outcomes_dropHandle]
  exact (spawned_or_outcomes_ne_nil hz (htends.suspends hphase).2 hlaunches).imp_left
    fun hspawned => .inr ⟨hspawned, hgives⟩

/-- A computation that waits for a reservation is taken up again only once the outcome is there. -/
theorem Changes.phase_of_paused {z : Reservation V} {actions : List (Action V)}
    (h : (run {} actions).Changes p a x x') (hphase : x.phase = .paused (.inner c))
    (hz : (run {} actions).reservations[c]? = some z) :
    x'.phase = .paused (.inner c) ∨ z.outcomes ≠ [] ∨ a = .dropTask p := by
  refine h.preserve (P := fun y => y.phase = .paused (.inner c) ∨ z.outcomes ≠ [] ∨ a = .dropTask p)
    (fun y y' hchange hy => ?_) (.inl hphase)
  rcases hy with hpaused | hmoved
  · -- A task is carried on only when what it waits for is there.
    have carried (hcarries : (run {} actions).Carries p a y) : z.outcomes ≠ [] := by
      have hdue := hcarries.isDue _ hpaused
      rw [isDue, hz, Option.any_some] at hdue
      have hdone := (sound_run hz).isDone_eq.symm.trans (isDone_of_isReady_run hz hdue)
      simpa using hdone
    obtain ⟨_, _, _, rfl⟩ | ⟨-, hqueued | hcarries⟩ | ⟨ha, -⟩ :=
      hchange.cases_of_isSuspended (by rw [hpaused]; rfl)
    · exact .inl hpaused
    · cases hqueued.symm.trans hpaused
    · exact .inr (.inl (carried hcarries))
    · exact .inr (.inr ha)
  · exact .inr hmoved

/-- An action leaves everybody bound, unless an abort or an outcome reaches what he waits for. -/
theorem bound_act {actions : List (Action V)} (h : (run {} actions).Bound p c) (a : Action V) :
    ((run {} actions).act a).Bound p c := by
  rcases h with ⟨x, z, hx, hphase, hz, hgives⟩ | hreached
  · obtain ⟨x', hx', hchanges⟩ := exists_changes_act hx a
    rcases Changes.phase_of_paused hchanges hphase hz with hphase' | houtcomes | rfl
    · -- As long as it waits, it has the handle.
      obtain ⟨access, z', htends, hlt, -⟩ := exists_tends hx (by rw [hphase]; rfl)
      obtain rfl := Option.some.inj (hz.symm.trans htends.getElem?_eq)
      obtain ⟨z', hz', hhandle⟩ := (tended_run actions).exists_handle_eq hx hz htends.parent_eq
        (Nat.ne_of_lt hlt) hx' (by rw [hphase']; rfl)
      exact .inl ⟨x', z', hx', hphase', hz', hhandle ▸ hgives⟩
    · exact .inr (reached_run ⟨z, hz, .inr houtcomes⟩ [a])
    · by_cases hdoomed : (run {} actions).isDoomed x = true
      · exact .inr (reached_dropTask hx hphase hdoomed hz hgives)
      · have hstays : (run {} actions).act (.dropTask p) = run {} actions := by
          simp [act, dropTask, hx, hdoomed]
        rw [hstays]
        exact .inl ⟨x, z, hx, hphase, hz, hgives⟩
  · exact .inr (reached_run hreached [a])

/-- A run leaves everybody bound, unless an abort or an outcome reaches what he waits for. -/
theorem bound_run {actions : List (Action V)} (h : (run {} actions).Bound p c)
    (further : List (Action V)) : ((run {} actions).run further).Bound p c := by
  induction further generalizing actions with
  | nil => exact h
  | cons a further ih =>
    have hact : (run {} (actions ++ [a])).Bound p c := by
      rw [run_concat]
      exact bound_act h a
    have hrun := ih hact
    rwa [run_concat] at hrun

/-- When a computation that an abort has reached is dropped, the abort reaches the one that it is
bound to. -/
theorem reached_of_mem {actions further : List (Action V)} (hp : (run {} actions).Reached p)
    (h : (run {} actions).Bound p c) (hdrop : .dropTask p ∈ further) :
    ((run {} actions).run further).Reached c := by
  obtain ⟨before, after, rfl, -⟩ := List.eq_append_cons_of_mem hdrop
  have hp' := reached_run hp before
  have hbound := bound_run h before
  rw [run_append, run_cons]
  rw [← run_append] at hp' hbound ⊢
  refine reached_run ?_ after
  rcases hbound with ⟨x, z, hx, hphase, hz, hgives⟩ | hreached
  · -- What waits has no outcome, so it is the abort that has reached it.
    obtain ⟨x', hx', haborted | houtcomes⟩ := hp'
    · obtain rfl := Option.some.inj (hx.symm.trans hx')
      refine reached_dropTask hx hphase ?_ hz hgives
      rw [isDoomed, haborted, Bool.true_or]
    · obtain rfl := Option.some.inj (hx.symm.trans hx')
      exact absurd ((sound_run hx).running (by rw [hphase]; rfl)) houtcomes
  · exact reached_run hreached [.dropTask p]

/-- Along handles that give up, an abort of the first computation reaches the last one when those
before it are dropped one after the other, whatever happens in between. -/
theorem reached_of_chain {actions further : List (Action V)} {between : List ReservationId}
    (hr : (run {} actions).Reached r)
    (hchain : List.IsChain (Bound (run {} actions)) (r :: (between ++ [c])))
    (hdrops : ((r :: between).map .dropTask).Sublist further) :
    ((run {} actions).run further).Reached c := by
  induction between generalizing actions further r with
  | nil =>
    exact reached_of_mem hr (List.isChain_cons_cons.mp hchain).1
      (hdrops.subset List.mem_cons_self)
  | cons d between ih =>
    obtain ⟨hbound, hchain'⟩ := List.isChain_cons_cons.mp hchain
    -- Where the first one is dropped, the abort passes one link on.
    obtain ⟨before, after, rfl, hmem, hrest⟩ := List.cons_sublist_iff.mp hdrops
    have hreached := reached_of_mem hr hbound hmem
    rw [run_append]
    rw [← run_append {} actions before] at hreached ⊢
    refine ih hreached (hchain'.imp fun p q hpq => ?_) hrest
    rw [run_append]
    exact bound_run hpq before

end System

end Deferral
