import Deferral.Proofs.System.Receipt

/-!
# What a computation gets of a nested reservation

A computation that waits for the result of a reservation that it has made owns the handle, and
nobody else is handed anything by it. So the outcome is owed to the computation until it looks and
finds it, and then the handle is dropped.

Main statements:
* `owes_inner_run`: in every run, the outcome of a nested reservation is owed as long as
  the handle is there.
* `events_step_run`: in every run, a computation that looks for the result of a nested reservation
  gets the outcome that was published, and no other.
-/

namespace Deferral

variable {V : Type}

/-- A handle that a computation makes has no callback of a caller. -/
theorem Access.callback?_ne (access : Access) {callback? : Option Callback}
    (hserves : (access.consumer : Consumer V).handle.serves callback? = true) :
    callback? ≠ some .report := by
  rintro rfl
  cases access <;> cases hserves

/-- A handle that a computation makes is one that the outcome is looked for with. -/
theorem Access.isPolled_or_waiting (access : Access) :
    (access.consumer : Consumer V).handle.isPolled = true ∨
      ∃ purpose, (access.consumer : Consumer V).handle = .waiting purpose := by
  cases access with
  | spawn | mono | maybe | stream | next => exact .inl rfl
  | block | join | monoBlock => exact .inr ⟨.outcome, rfl⟩
  | get => exact .inr ⟨.value, rfl⟩

/-- Who looks for the outcome finds it, if it was published, and is owed it otherwise. -/
theorem Consumer.Owes.look {c : Consumer V} {callback? : Option Callback} {o? : Option (Outcome V)}
    (h : c.Owes callback? o?) (hattaching : c.attaching = none)
    (hhandle : c.handle.isPolled = true ∨ ∃ purpose, c.handle = .waiting purpose) (w : Waker) :
    (c.look w).2 = o?.map c.handle.deliver ∧ (o? = none → (c.look w).1.Owes callback? none) := by
  -- A look polls the handle, or fetches for one that waits.
  rcases hhandle with hpolled | ⟨purpose, hhandle⟩
  · have hlook : c.look w = c.poll w := by
      unfold Consumer.look
      split
      next hhandle =>
        rw [hhandle] at hpolled
        cases hpolled
      next => rfl
    rw [hlook]
    exact h.poll hattaching hpolled w
  · have hlook : c.look w = c.fetch := by rw [Consumer.look, hhandle]
    have hfetch := h.fetch hhandle
    rw [hlook]
    refine ⟨hfetch, fun ho => ?_⟩
    subst ho
    rw [Consumer.fetch_eq_self hfetch]
    exact h

namespace System

variable {w : System V} {a : Action V} {p c : ReservationId} {x z z' : Reservation V}

/-- The outcome of a nested reservation is owed, or its handle was dropped. -/
def OwedInner (z : Reservation V) : Prop :=
  z.consumer.handle = .gone ∨ ∃ access : Access,
    z.consumer.handle = (access.consumer : Consumer V).handle ∧
      ∃ callback?, z.consumer.Owes callback? z.outcomes.head?

/-- A look for the result of a nested reservation takes what is owed, and otherwise
leaves it owed. -/
theorem OwedInner.lookedAt (h : OwedInner z) (hattaching : z.consumer.attaching = none)
    (k : Waker) : OwedInner (z.lookedAt k) := by
  -- A look that finds nothing leaves the handle; one that finds something drops it.
  by_cases hlook : (z.consumer.look k).2 = none
  · have hlookedAt : z.lookedAt k = { z with consumer := (z.consumer.look k).1 } := by
      rw [Reservation.lookedAt, hlook]
    have hhandle := Consumer.handle_of_look_eq_none hlook
    rw [hlookedAt]
    rcases h with hgone | ⟨access, haccess, callback?, howes⟩
    · exact .inl (hhandle.trans hgone)
    · obtain ⟨hanswer, howes'⟩ := howes.look hattaching (haccess ▸ access.isPolled_or_waiting) k
      have hnone : z.outcomes.head? = none := by
        rw [hlook] at hanswer
        exact Option.map_eq_none_iff.mp hanswer.symm
      refine .inr ⟨access, hhandle.trans haccess, callback?, ?_⟩
      rw [hnone]
      exact howes' hnone
  · refine .inl ?_
    rw [Reservation.handle_lookedAt, if_pos (Option.isSome_iff_ne_none.mpr hlook)]

/-- A computation looks for the result of a nested reservation only when the launch has returned. -/
theorem attaching_eq_none_of_canStep {actions : List (Action V)}
    (hz : (run {} actions).reservations[c]? = some z)
    (hx : (run {} actions).reservations[p]? = some x) (hphase : x.phase = .active (.engaged c))
    (hcan : (run {} actions).canStep x = true) : z.consumer.attaching = none := by
  obtain ⟨access, z', htends⟩ := tended_run actions p x c hx (by rw [hphase]; rfl)
  obtain ⟨rest, hrest⟩ := htends.rest_eq
  simp only [canStep, hphase, hrest, hz, Option.any_some, Bool.and_eq_true] at hcan
  exact (attaching_eq_none_of_isSettled hcan.1).2

/-- In every run, the outcome of a nested reservation is owed to the computation that has made it,
as long as that has the handle. -/
theorem owes_inner_run {actions : List (Action V)} (hz : (run {} actions).reservations[c]? = some z)
    (hparent : z.parent ≠ none) : OwedInner z := by
  induction hz using run_induction with
  | start hz => cases hz
  | new _ _ hnew =>
    cases hnew with
    | reserve => exact absurd rfl hparent
    | await => exact .inr ⟨_, rfl, Consumer.owes_access _⟩
  | @act actions a _ y hz hy hchanges ih =>
    have hparent' : y.parent ≠ none := (Changes.grows hchanges).parent_eq ▸ hparent
    have hold := ih hparent'
    -- Whoever made the reservation looks for its result, or is dropped with the handle.
    by_cases hby : (run {} actions).Handles c a
    · cases hby.handled hy hz with
      | operate _ _ hoffered | runDirectly hoffered => simp [isOffered, hparent'] at hoffered
      | look access hx hphase _ hcan =>
        exact hold.lookedAt (attaching_eq_none_of_canStep hy hx hphase hcan) _
      | stay => exact hold
      | dropTask => exact .inl (Reservation.handle_dropHandle y)
    · have hhandle := Changes.handle_eq hchanges hby
      rcases hold with hgone | ⟨access, haccess, callback?, howes⟩
      · exact .inl (hhandle.trans hgone)
      · have hcallback := access.callback?_ne (haccess ▸ howes.serves)
        have howes' := (Changes.owes hchanges hby (sound_run hy) howes).resolve_right
          fun htold => hcallback htold.1
        exact .inr ⟨access, hhandle.trans haccess, callback?, howes'⟩

end System

end Deferral
