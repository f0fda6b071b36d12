import Deferral.Proofs.System.Soundness

/-!
# Where outcomes come from

Every outcome that is published for a reservation is accounted for by what has happened before: by
the end of the computation itself, by a launch that found the scope closed, or by an abort or a
shutdown. The first is told by the reservation alone; for the others one action of the run has to be
found, and `Accounted` says which action it is.

Main statements:
* `provenance_run`: in every run, each outcome has the cause that its kind tells.
-/

namespace Deferral

variable {V : Type}

namespace System

variable {w : System V} {a : Action V} {r : ReservationId} {x x' : Reservation V}

/-! ## Causes -/

/-- The action asks for an abort of the computation of `r` through its own handle, and the request
reaches the task. -/
def RequestsAbort (w : System V) (r : ReservationId) (a : Action V) : Prop :=
  w.AsksAbort r a ∧ ∃ x', (w.act a).reservations[r]? = some x' ∧ x'.aborted = true

/-- At some point of the run the launch of `r` looked whether the scope was closed, and it was. -/
def FoundClosed (actions : List (Action V)) (r : ReservationId) : Prop :=
  ∃ before after x, actions = before ++ .testClosed r :: after ∧
    (run {} before).reservations[r]? = some x ∧ x.phase = .launching ∧
      (run {} before).isClosed x.scope = true

/-- At some point of the run, with the computation of `r` not over, an abort of it was requested
through its own handle, or its pool had been shut down. -/
def GivenUp (actions : List (Action V)) (r : ReservationId) : Prop :=
  ∃ before a after x, actions = before ++ a :: after ∧
    (run {} before).reservations[r]? = some x ∧ x.phase.isOver = false ∧
      ((run {} before).RequestsAbort r a ∨ (run {} before).IsDown x.scope)

/-- A cause remains one when the run goes on. -/
theorem FoundClosed.append {actions : List (Action V)} (h : FoundClosed actions r)
    (further : List (Action V)) : FoundClosed (actions ++ further) r := by
  obtain ⟨before, after, x, rfl, hx⟩ := h
  exact ⟨before, after ++ further, x, by simp, hx⟩

/-- A cause remains one when the run goes on. -/
theorem GivenUp.append {actions : List (Action V)} (h : GivenUp actions r)
    (further : List (Action V)) : GivenUp (actions ++ further) r := by
  obtain ⟨before, a, after, x, rfl, hx⟩ := h
  exact ⟨before, a, after ++ further, x, by simp, hx⟩

/-! ## One action -/

/-- What has become of a reservation is accounted for by the action `a`. -/
structure Accounted (w : System V) (r : ReservationId) (a : Action V) (x x' : Reservation V) : Prop
    extends x.Grows x' where
  /-- Only who has the handle can ask for an abort. -/
  aborted : x'.aborted = true → x.aborted = true ∨ w.AsksAbort r a
  /-- Only a launch can find the scope closed. -/
  scopeClosed : .error .scopeClosed ∈ x'.outcomes → .error .scopeClosed ∈ x.outcomes ∨
    a = .testClosed r ∧ ∃ y, w.reservations[r]? = some y ∧ y.phase = .launching ∧
      w.isClosed y.scope = true
  /-- Only an aborted task, or one whose pool was shut down, is dropped. -/
  cancelled : .error .cancelled ∈ x'.outcomes → .error .cancelled ∈ x.outcomes ∨
    x'.aborted = true ∨ w.poolAlive x'.scope = false

namespace Accounted

theorem refl (w : System V) (r : ReservationId) (a : Action V) (x : Reservation V) :
    Accounted w r a x x :=
  { Reservation.Grows.refl x with aborted := .inl, scopeClosed := .inl, cancelled := .inl }

theorem trans {x'' : Reservation V} (h : Accounted w r a x x') (h' : Accounted w r a x' x'') :
    Accounted w r a x x'' :=
  { h.toGrows.trans h'.toGrows with
    aborted := fun haborted => (h'.aborted haborted).elim h.aborted .inr
    scopeClosed := fun hclosed => (h'.scopeClosed hclosed).elim h.scopeClosed .inr
    cancelled := fun hcancelled => by
      cases h'.cancelled hcancelled with
      | inl hbefore =>
        -- The cause of what was published first lasts through what comes after.
        refine (h.cancelled hbefore).imp_right fun hcause => ?_
        rw [h'.scope_eq]
        exact hcause.imp_left h'.aborted_of_aborted
      | inr hcause => exact .inr hcause }

/-- A change that publishes nothing. -/
theorem of_outcomes_eq (hgrows : x.Grows x') (haborted : x'.aborted = x.aborted)
    (houtcomes : x'.outcomes = x.outcomes) : Accounted w r a x x' :=
  { hgrows with
    aborted := fun h => .inl (haborted ▸ h)
    scopeClosed := fun h => .inl (houtcomes ▸ h)
    cancelled := fun h => .inl (houtcomes ▸ h) }

/-- A change that publishes the outcome `o`. -/
theorem of_publish {o : Outcome V} (hgrows : x.Grows x') (haborted : x'.aborted = x.aborted)
    (houtcomes : x'.outcomes = x.outcomes ++ [o])
    (hclosed : o = .error .scopeClosed → a = .testClosed r ∧ ∃ y, w.reservations[r]? = some y ∧
      y.phase = .launching ∧ w.isClosed y.scope = true)
    (hcancelled : o = .error .cancelled → x'.aborted = true ∨ w.poolAlive x'.scope = false) :
    Accounted w r a x x' :=
  { hgrows with
    aborted := fun h => .inl (haborted ▸ h)
    scopeClosed := fun h => by
      rw [houtcomes, List.mem_append, List.mem_singleton] at h
      exact h.imp_right fun ho => hclosed ho.symm
    cancelled := fun h => by
      rw [houtcomes, List.mem_append, List.mem_singleton] at h
      exact h.imp_right fun ho => hcancelled ho.symm }

end Accounted

/-- Every change is accounted for. -/
theorem Change.accounted (h : w.Change r a x x') : Accounted w r a x x' := by
  have hgrows := h.grows
  cases h with
  | handle | attach | launch | clear | clearDirectly | queue | letGo | discard | start | advance
  | pause | engage => exact .of_outcomes_eq hgrows rfl rfl
  | abort hasks =>
    exact { hgrows with aborted := fun _ => .inr hasks, scopeClosed := .inl, cancelled := .inl }
  | refuse ha hx hphase hclosed =>
    exact .of_publish hgrows rfl rfl (fun _ => ⟨ha, _, hx, hphase, hclosed⟩) nofun
  | lose _ hdead => exact .of_publish hgrows rfl rfl nofun fun _ => .inr hdead
  | @finish e =>
    exact .of_publish hgrows rfl rfl (fun he => absurd he e.outcome_ne.1)
      fun he => absurd he e.outcome_ne.2
  | drop _ _ hdoomed =>
    refine .of_publish hgrows rfl rfl nofun fun _ => ?_
    rw [isDoomed, Bool.or_eq_true, Bool.not_eq_true'] at hdoomed
    exact hdoomed

/-- Every sequence of changes is accounted for. -/
theorem Changes.accounted (h : w.Changes r a x x') : Accounted w r a x x' := by
  induction h with
  | refl => exact .refl w r a x
  | tail _ hchange ih => exact ih.trans hchange.accounted

/-! ## Runs -/

/-- What the run so far has to do with the outcomes of a reservation that its computation has
nothing to do with. -/
structure Explained (actions : List (Action V)) (r : ReservationId) (x : Reservation V) : Prop where
  /-- A launch has found the scope closed before that was published. -/
  scopeClosed : .error .scopeClosed ∈ x.outcomes → FoundClosed actions r
  /-- A request for an abort, as long as it is not too late, is a cause already. -/
  aborted : x.aborted = true → x.phase.isOver = false → GivenUp actions r
  /-- Cancellation was published only after it had a cause. -/
  cancelled : .error .cancelled ∈ x.outcomes → GivenUp actions r

/-- A request for an abort that comes before the end is a cause. -/
theorem GivenUp.of_aborted {actions : List (Action V)}
    (hx : (run {} actions).reservations[r]? = some x)
    (hx' : ((run {} actions).act a).reservations[r]? = some x') (h : Explained actions r x)
    (haccounted : Accounted (run {} actions) r a x x') (hover : x.phase.isOver = false)
    (haborted : x'.aborted = true) : GivenUp (actions ++ [a]) r := by
  cases haccounted.aborted haborted with
  | inl hbefore => exact (h.aborted hbefore hover).append [a]
  | inr hasks => exact ⟨actions, a, [], x, rfl, hx, hover, .inl ⟨hasks, x', hx', haborted⟩⟩

/-- An action leaves nothing unexplained. -/
theorem Explained.act {actions : List (Action V)} (hx : (run {} actions).reservations[r]? = some x)
    (hx' : ((run {} actions).act a).reservations[r]? = some x') (h : Explained actions r x)
    (haccounted : Accounted (run {} actions) r a x x') : Explained (actions ++ [a]) r x' where
  scopeClosed hclosed := by
    cases haccounted.scopeClosed hclosed with
    | inl hbefore => exact (h.scopeClosed hbefore).append [a]
    | inr hfound =>
      -- It is this action that has found the scope closed.
      obtain ⟨rfl, y, hy, hphase, hscope⟩ := hfound
      exact ⟨actions, [], y, rfl, hy, hphase, hscope⟩
  aborted haborted hover' :=
    .of_aborted hx hx' h haccounted (haccounted.isOver_eq_false hover') haborted
  cancelled hcancelled := by
    cases hover : x.phase.isOver with
    | true =>
      -- Nothing is published any more once the computation is over.
      rw [(haccounted.eq_of_isOver hover).2] at hcancelled
      exact (h.cancelled hcancelled).append [a]
    | false =>
      obtain hbefore | haborted | hdead := haccounted.cancelled hcancelled
      · exact (h.cancelled hbefore).append [a]
      · exact .of_aborted hx hx' h haccounted hover haborted
      · -- The scope has a pool, so the pool takes nothing because it was shut down.
        have hvalid := valid_run actions
        have hlt := hvalid.scope_lt r x hx x.scope List.mem_cons_self
        rw [haccounted.scope_eq] at hdead
        exact ⟨actions, a, [], x, rfl, hx, hover,
          .inr (hvalid.isDown_of_poolAlive_eq_false hlt hdead)⟩

/-- No reservation is explained by anything before it is there. -/
theorem Explained.of_new (actions : List (Action V)) (h : w.New a x) : Explained actions r x := by
  cases h <;> exact ⟨nofun, nofun, nofun⟩

/-- No run leaves anything unexplained. -/
theorem explained_run {actions : List (Action V)}
    (h : (run {} actions).reservations[r]? = some x) : Explained actions r x := by
  induction h using run_induction with
  | start h => cases h
  | new _ _ hadded => exact .of_new _ hadded
  | act h hy hchanges ih => exact ih.act hy h (Changes.accounted hchanges)

end System

end Deferral
