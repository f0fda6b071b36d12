import Deferral.Proofs.System.Likeness
import Deferral.Proofs.System.Receipt

/-!
# All ways of consuming a reservation agree

Take a run in which the caller of a reservation starts the computation and consumes it in any way,
and the run of the same actions in which the caller blocks for the outcome instead. As long as no
abort is requested the two systems are alike but for the consumer, so the same outcome is published
in both, and what the caller is handed first is this outcome in the form that belongs to the handle.

Main statements:
* `alike_blocked`: whatever a caller does with the handle, to block instead leads to the same system
  but for the consumer.
* `agreement_run`: whatever a caller does with the handle, the first that he is handed is what he
  would have been answered with if he had blocked.
-/

namespace Deferral.System

variable {V : Type} {w w' : System V} {a : Action V} {r : ReservationId} {x x' : Reservation V}

/-- As long as its caller does nothing, nothing is done with a handle. -/
theorem not_handles_of_others {actions further : List (Action V)}
    (hothers : ∀ b ∈ further ++ [a], b.handle? ≠ some r)
    (hx : ((run {} actions).run further).reservations[r]? = some x) (hparent : x.parent = none) :
    ¬((run {} actions).run further).Handles r a := by
  rw [← run_append] at hx ⊢
  exact fun hby => hothers a (by simp) (hby.caller_of_parent_eq_none hx hparent).1

/-- A caller that does nothing while the outcome is owed to him goes on having the same handle, and
the outcome goes on being owed, if he gave no callback. -/
theorem owes_of_others {actions further : List (Action V)} {callback? : Option Callback}
    (hothers : ∀ a ∈ further, a.handle? ≠ some r) (hx : (run {} actions).reservations[r]? = some x)
    (hparent : x.parent = none) (howes : x.consumer.Owes callback? x.outcomes.head?)
    (hreport : callback? ≠ some .report)
    (hx' : ((run {} actions).run further).reservations[r]? = some x') :
    x'.consumer.handle = x.consumer.handle ∧ x'.consumer.Owes callback? x'.outcomes.head? := by
  induction hx' using run_induction_from hx with
  | start => exact ⟨rfl, howes⟩
  | act _ hy hgrows hchanges ih =>
    obtain ⟨hhandle, howes'⟩ := ih fun b hb => hothers b (List.mem_append_left _ hb)
    have hby := not_handles_of_others hothers hy (hgrows.parent_eq.trans hparent)
    rw [← run_append] at hy
    exact ⟨(Changes.handle_eq hchanges hby).trans hhandle,
      (Changes.owes hchanges hby (sound_run hy) howes').resolve_right fun h => hreport h.1⟩

/-- A launch that has returned has returned for good. -/
theorem Change.isSettled (h : w.Change r a x x') (hby : ¬w.Handles r a) (hx : x.isSettled = true) :
    x'.isSettled = true := by
  simp only [Reservation.isSettled, Bool.and_eq_true, Bool.not_eq_true'] at hx ⊢
  obtain ⟨⟨hlaunched, hholds⟩, hattaching⟩ := hx
  refine ⟨⟨h.isLaunched hlaunched, ?_⟩, ?_⟩
  · cases h <;> first | exact hholds | rfl
  · cases h with
    | handle _ hby' => exact absurd hby' hby
    | attach =>
      rw [Consumer.attaching_attach]
      rfl
    | refuse | lose | finish | drop =>
      simp only [Reservation.conclude, Consumer.attaching_publish]
      exact hattaching
    | _ => exact hattaching

/-- A launch that has returned has returned for good. -/
theorem isSettled_of_others {actions further : List (Action V)}
    (hothers : ∀ a ∈ further, a.handle? ≠ some r) (hx : (run {} actions).reservations[r]? = some x)
    (hparent : x.parent = none) (hsettled : x.isSettled = true)
    (hx' : ((run {} actions).run further).reservations[r]? = some x') : x'.isSettled = true := by
  induction hx' using run_induction_from hx with
  | start => exact hsettled
  | act _ hy hgrows hchanges ih =>
    have hby := not_handles_of_others hothers hy (hgrows.parent_eq.trans hparent)
    exact Changes.preserve (fun _ _ hchange => hchange.isSettled hby) hchanges
      (ih fun b hb => hothers b (List.mem_append_left _ hb))

/-- Which operation it is that launches a computation shows in the consumer only. -/
theorem Alike.launch {u u' : Use} (h : Alike r w w') (hx : w.reservations[r]? = some x)
    (hx' : w'.reservations[r]? = some x') (hstarts : (Action.use r u : Action V).starts r x = true)
    (hstarts' : (Action.use r u' : Action V).starts r x' = true) (hphase : x.phase = .captured) :
    Alike r (w.act (.use r u)) (w'.act (.use r u')) := by
  simp only [Action.starts, beq_self_eq_true, Bool.true_and, Bool.and_eq_true] at hstarts hstarts'
  obtain ⟨c, rfl⟩ := h
  have hsame : x' = { x with consumer := c } := by
    rw [updateConsumer, reservations_update, List.getElem?_modify_eq, hx] at hx'
    exact (Option.some.inj hx').symm
  have hphase' : x'.phase = .captured := by rw [hsame, hphase]
  refine ⟨(x'.consumer.begin u').consumer, ?_⟩
  rw [act_eq_update rfl (by simp) (by simp) hx hstarts.1,
    act_eq_update rfl (by simp) (by simp) hx' hstarts'.1,
    updateConsumer, updateConsumer, update_update, update_update]
  -- Both launches are one update of the reservation, and differ in the consumer only.
  refine update_congr hx ?_
  rw [← hsame]
  simp only [Reservation.operate, hstarts.2, hstarts'.2, hphase, hphase', and_self, if_true]
  rw [hsame]

/-- An operation launches the computation exactly if the handle is offered and has
not launched it. -/
theorem Action.starts_iff {u : Use} : (Action.use r u : Action V).starts r x = true ↔
    isOffered x = true ∧ (x.consumer.begin u).launch = true := by
  simp [Action.starts]

/-- An operation that launches a computation finds the reservation as it was made, but for the
handle, in the hands of a caller. -/
theorem captured_of_starts {actions : List (Action V)} {u : Use}
    (hx : (run {} actions).reservations[r]? = some x)
    (hstarts : (Action.use r u : Action V).starts r x = true) :
    x.phase = .captured ∧ x.parent = none ∧ x.Unasked ∧ received r {} actions = [] := by
  obtain ⟨-, hlaunch⟩ := Action.starts_iff.mp hstarts
  have hphase := (aligned_run hx).captured_iff.mpr (Consumer.isCold_of_launch_begin hlaunch)
  refine ⟨hphase, ?_, unasked_run hx hphase⟩
  by_contra hparent
  exact (started_run hx).ne_captured hparent hphase

/-- A computation that is launched is owed to its caller, who has been handed nothing. -/
theorem owes_launch {actions : List (Action V)} {u : Use}
    (hx : (run {} actions).reservations[r]? = some x)
    (hstarts : (Action.use r u : Action V).starts r x = true) :
    ∃ callback? x', (run {} (actions ++ [.use r u])).reservations[r]? = some x' ∧
      x'.parent = none ∧ x'.launches ≠ 0 ∧ x'.consumer = (x.consumer.begin u).consumer ∧
      x'.consumer.Owes callback? x'.outcomes.head? ∧ (u = .subscribe → callback? = some .report) ∧
      received r {} (actions ++ [.use r u]) = [] := by
  obtain ⟨hoffered, hlaunch⟩ := Action.starts_iff.mp hstarts
  obtain ⟨hphase, hparent, hunasked, hreceived⟩ := captured_of_starts hx hstarts
  have hact := getElem?_act_of_offered (a := .use r u) rfl (by nofun) hx hoffered
  have hoperate : x.operate (.use r u) =
      { x with consumer := (x.consumer.begin u).consumer, phase := .launching,
               launches := x.launches + 1 } := by
    rw [Reservation.operate, if_pos ⟨hlaunch, hphase⟩]
  have houtcomes : x.outcomes = [] := (sound_run hx).running (by rw [hphase]; rfl)
  -- Nothing was asked of the handle before, so the use alone decides what is owed.
  obtain ⟨callback?, howes, hreport⟩ : ∃ callback?,
      (x.consumer.begin u).consumer.Owes callback? none ∧
        (u = .subscribe → callback? = some .report) := by
    rw [hunasked] at hlaunch ⊢
    exact Consumer.owes_of_launch hlaunch
  refine ⟨callback?, x.operate (.use r u), ?_, ?_, ?_, ?_, ?_, hreport, ?_⟩
  · rw [run_concat, hact]
  · rw [hoperate, hparent]
  · rw [hoperate]
    exact Nat.succ_ne_zero _
  · rw [hoperate]
  · rw [hoperate, houtcomes]
    exact howes
  · have hanswer : x.answer? (.use r u) = none := Consumer.answer_of_launch hlaunch
    rw [received_append, hreceived, received_singleton hx,
      handed_of_offered rfl (by nofun) hx hoffered, hanswer, hoperate, howes.calls_eq,
      List.drop_nil]
    rfl

/-! ## To block instead -/

/-- The system in which the caller of the reservation `r` has blocked for the outcome: first what
was done besides `early`, then the caller began, and then the schedule was followed. -/
def blocked (r : ReservationId) (early schedule : List (Action V)) : System V :=
  run {} (others r early ++ .use r (.block none) :: schedule)

section

variable {early late : List (Action V)} {u : Use} (hx : (run {} early).reservations[r]? = some x)
  (hstarts : (Action.use r u : Action V).starts r x = true)
  (hx' : (run {} (early ++ .use r u :: late)).reservations[r]? = some x')
  (haborted : x'.aborted = false)

include hx hstarts hx' haborted

/-- What the caller is handed after the launch, and that he is handed nothing before. -/
theorem receipt_of_starts :
    Receipt (u = .subscribe ∨ GaveCallback r (run {} (early ++ [.use r u])) late)
        (received r {} (early ++ .use r u :: late)) x' ∧
      x'.phase ≠ .captured := by
  obtain ⟨callback?, x₁, hx₁, hparent, hlaunches, -, howes, hreport, hreceived⟩ :=
    owes_launch hx hstarts
  have happend : early ++ .use r u :: late = (early ++ [.use r u]) ++ late := by simp
  have hphase' : x'.phase ≠ .captured := by
    have hlater := hx'
    rw [happend, run_append] at hlater
    exact (isLaunched_run hx₁ hlater (.inl hlaunches)).ne_captured (sound_run hx') (flagged_run hx')
  rw [happend, run_append] at hx'
  rw [happend, received_append, hreceived, List.nil_append]
  refine ⟨?_, hphase'⟩
  rcases receipt_run hx₁ hparent hlaunches howes hx' haborted with
    ⟨howes', hnil, hgiven⟩ | ⟨h, o, houtcome, hhead⟩
  · exact .owed howes' hnil fun hgave => hgiven (hgave.imp_left hreport)
  · exact .handed h o houtcome hhead

end

end Deferral.System
