import Deferral.Proofs.Exchange.Publication
import Deferral.Proofs.Exchange.Whereabouts

/-!
# An exchange delivers its outcome once

Whatever the publisher and the consumer of a cell do, and however their steps are interleaved, the
outcome is published once, it is handed out once, and a callback is invoked once.

Main statement: `deliversOnce_run`.
-/

namespace Deferral.Exchange

variable {W V : Type} {x : Exchange W V} {s : Whereabouts V}

/-- Whether a step of the consumer asks for the outcome. -/
def Step.isRequest : Step W V → Bool
  | .poll _ | .wait | .waitFor _ | .onComplete _ => true
  | _ => false

/-- What an exchange has delivered whose publisher gave the cell up with the outcome `r`, or has
not given it up. -/
structure DeliversOnce [Wakes W] (x : Exchange W V) (r : Option (Outcome V)) : Prop where
  /-- The outcome is published once, and nothing else is. -/
  published : x.published = r.toList
  /-- Nothing is handed out before the publication; then the outcome is, and after it only the
  answer that it is spent. -/
  handed : x.handed = [] ∨
    ∃ o later, r = some o ∧ x.handed.map Prod.snd = o :: List.replicate later (.error .cancelled)
  /-- A publication that is under way is over when the publisher has taken the steps that it has
  still to take, whatever happens in between. -/
  ends : r.isSome = true → ∀ panics steps, (x.publishing.pending panics).Sublist steps →
    (x.run steps).publishing = .idle
  /-- After the publication every request is answered at once. -/
  prompt : r.isSome = true → x.attendance = .free → x.Unlocked →
    ∀ a : Step W V, a.isRequest = true →
      ∃ receiver o, (x.step a).handed = x.handed ++ [(receiver, o)]
  /-- After the publication a wait is answered when it looks again, also if its deadline has
  come. -/
  roused : r.isSome = true → ∀ deadline late, x.attendance = .roused deadline late →
    x.Unlocked → ∃ o, (x.step .lookAgain).handed = x.handed ++ [(.wait, o)]
  /-- The outcome is there once it was published. -/
  isDone : x.cell.isDone = r.isSome
  /-- This is what the consumer is told when it asks. -/
  asked : x.attendance = .free → x.Unlocked → (x.step .ask).answers = x.answers ++ [r.isSome]
  /-- The consumer is never told that the outcome is not there after having been told that it
  is. -/
  answers : x.answers.Pairwise (· ≤ ·)
  /-- A callback that the consumer gives between its calls is given for good. -/
  given : x.attendance = .free → x.Unlocked → ∀ callback further,
    ((x.step (.onComplete callback)).run further).given = 1
  /-- A callback is invoked once at most, and only if it was given. -/
  invoked_le : x.invoked ≤ x.given
  /-- A callback that was given is invoked when the publication is over. -/
  invoked : r.isSome = true → x.publishing = .idle → x.invoked = x.given
  /-- A callback that is given after the publication is invoked at once. -/
  invoked_late : r.isSome = true → x.attendance = .free → x.Unlocked →
    ∀ callback, (x.step (.onComplete callback)).invoked = 1

/-- A consumer that has left does nothing under the lock. -/
theorem whenFree_of_left (hleft : x.attendance = .left) (f : Exchange W V → Exchange W V) :
    x.whenFree f = x := by
  simp [whenFree, hleft]

/-- Giving the cell up leaves the consumer where it is. -/
theorem attendance_surrender (x : Exchange W V) (o : Outcome V) :
    (x.surrender o).attendance = x.attendance := by
  unfold surrender
  split
  next => split <;> rfl
  next => rfl

/-- A consumer that has given the cell up for a callback has left for good. -/
theorem attendance_step_of_left [Wakes W] (hleft : x.attendance = .left) (a : Step W V) :
    (x.step a).attendance = .left := by
  cases a with
  | complete | drop => rwa [step, attendance_surrender]
  | unlock =>
    rw [step, unlock]
    split <;> exact hleft
  | call panics =>
    rw [step, call]
    split <;> exact hleft
  | notify =>
    rw [step, notify]
    split
    next => simp [rouse, hleft]
    next => exact hleft
  | wake =>
    rw [step, wake]
    split <;> exact hleft
  | ask | poll | wait | waitFor | onComplete => rwa [step, whenFree_of_left hleft]
  | rouse => simp [step, rouse, hleft]
  | lapse => simp [step, lapse, hleft]
  | lookAgain => simp [step, lookAgain, hleft]
  | pass => exact hleft

theorem attendance_run_of_left [Wakes W] (hleft : x.attendance = .left) (steps : List (Step W V)) :
    (x.run steps).attendance = .left := by
  induction steps generalizing x with
  | nil => exact hleft
  | cons a steps ih => exact ih (attendance_step_of_left hleft a)

/-- A callback that the consumer gives between its calls is given for good. -/
theorem given_run_onComplete [Wakes W] (hfree : x.attendance = .free) (hlocked : x.Unlocked)
    (callback : Callback) (further : List (Step W V)) :
    ((x.step (.onComplete callback)).run further).given = 1 := by
  have hleft : (x.step (.onComplete callback)).attendance = .left := by
    rw [step, whenFree_of_free hfree hlocked, onComplete]
    split <;> rfl
  rw [given, attendance_run_of_left hleft, if_pos rfl]

namespace At

/-- A request after the publication is answered. -/
theorem exists_handed_step [Wakes W] (h : x.At s) (hs : s.outcome?.isSome = true)
    (hfree : x.attendance = .free) (hlocked : x.Unlocked) {a : Step W V}
    (ha : a.isRequest = true) :
    ∃ receiver o, (x.step a).handed = x.handed ++ [(receiver, o)] := by
  have hleft : x.attendance ≠ .left := by simp [hfree]
  have hdone : x.cell.isDone = true := by rw [h.isDone, hs]
  obtain ⟨o, htake, _⟩ :=
    Whereabouts.take?_of_published h.slot hs (h.carried?_of_not_left hleft)
  cases a with
  | poll w =>
    refine ⟨.poll, o, ?_⟩
    rw [Exchange.step, whenFree_of_free hfree hlocked, Exchange.poll, Cell.poll_of_isDone hdone,
      htake]
  | wait =>
    refine ⟨.wait, o, ?_⟩
    rw [Exchange.step, whenFree_of_free hfree hlocked, Exchange.look, htake]
  | waitFor limit =>
    refine ⟨.wait, o, ?_⟩
    rw [Exchange.step, whenFree_of_free hfree hlocked, Exchange.look, htake]
  | onComplete callback =>
    refine ⟨.callback, o, ?_⟩
    rw [Exchange.step, whenFree_of_free hfree hlocked, Exchange.onComplete,
      Cell.onComplete_of_isDone hdone, htake]
  | _ => cases ha

/-- A wait that looks again after the publication is answered. -/
theorem exists_handed_lookAgain (h : x.At s) (hs : s.outcome?.isSome = true)
    {deadline : Option Nat} {late : Bool} (ha : x.attendance = .roused deadline late)
    (hlocked : x.Unlocked) :
    ∃ o, x.lookAgain.handed = x.handed ++ [(.wait, o)] := by
  have hleft : x.attendance ≠ .left := by simp [ha]
  obtain ⟨o, htake, _⟩ :=
    Whereabouts.take?_of_published h.slot hs (h.carried?_of_not_left hleft)
  refine ⟨o, ?_⟩
  simp [Exchange.lookAgain, ha, isLocked_eq_false_iff.mpr hlocked, Exchange.look, htake]

/-- Once the outcome is published and the publisher carries it to no callback, a callback that was
given was invoked. -/
theorem invoked_eq (h : x.At s) (hs : s.outcome?.isSome = true)
    (hcarried : s.carried? = none) : x.invoked = x.given := by
  -- No callback is registered any more, so none of those that were given is outstanding.
  have hbalance := h.balance
  have hcallback : x.cell.callback = none := by
    by_contra hne
    rw [h.callback (Option.isSome_iff_ne_none.mpr hne)] at hs
    cases hs
  rw [outstanding, hcallback, h.carried, hcarried] at hbalance
  exact hbalance

/-- A callback that is given after the publication is invoked at once. -/
theorem invoked_onComplete [Wakes W] (h : x.At s) (hs : s.outcome?.isSome = true)
    (hfree : x.attendance = .free) (hlocked : x.Unlocked) (callback : Callback) :
    (x.step (.onComplete callback)).invoked = 1 := by
  have hleft : x.attendance ≠ .left := by simp [hfree]
  have hinvoked : x.invoked = 0 := by
    rw [h.invoked_eq hs (h.carried?_of_not_left hleft), given, if_neg hleft]
  obtain ⟨o, htake, _⟩ :=
    Whereabouts.take?_of_published h.slot hs (h.carried?_of_not_left hleft)
  rw [Exchange.step, whenFree_of_free hfree hlocked, Exchange.onComplete,
    Cell.onComplete_of_isDone (by rw [h.isDone, hs]), htake]
  rw [Exchange.invoked] at hinvoked
  simp [Exchange.invoked, List.countP_append, hinvoked]

/-- An exchange has delivered what its whereabouts say. -/
theorem deliversOnce [Wakes W] (h : x.At s) : x.DeliversOnce s.outcome? where
  published := h.published
  handed := by
    cases hs : s with
    | handed o later => exact .inr ⟨o, later, rfl, by rw [h.handed, hs]; rfl⟩
    | owed | carried | stored =>
      left
      rw [← List.map_eq_nil_iff, h.handed, hs]
      rfl
  ends hs panics steps hsteps := by
    have howing : x.owing = false := by
      rw [h.owing, Option.isNone_eq_false_iff]
      exact hs
    exact (publishing_run howing hsteps).2
  prompt hs hfree hlocked _ ha := h.exists_handed_step hs hfree hlocked ha
  roused hs _ _ ha hlocked := h.exists_handed_lookAgain hs ha hlocked
  isDone := h.isDone
  asked hfree hlocked := by
    rw [Exchange.step, whenFree_of_free hfree hlocked, Exchange.ask, h.isDone]
  answers := (List.pairwise_append.mp h.answers).1
  given hfree hlocked := given_run_onComplete hfree hlocked
  invoked_le := by
    rw [← h.balance]
    exact Nat.le_add_right ..
  invoked hs hidle := by
    apply h.invoked_eq hs
    rw [← h.carried, hidle]
    rfl
  invoked_late hs hfree hlocked callback := h.invoked_onComplete hs hfree hlocked callback

end At

/-- **An exchange delivers once.** After any sequence of steps of the publisher and the consumer,
the outcome of the first step by which the publisher gave its cell up has been delivered, and it
has been delivered once. -/
theorem deliversOnce_run [Wakes W] (steps : List (Step W V)) :
    (run {} steps).DeliversOnce (steps.findSome? Step.outcome?) := by
  obtain ⟨s, h, hs⟩ := exists_at_run steps
  rw [← hs]
  exact h.deliversOnce

/-- An outcome that comes while the consumer waits for it in vain and gives a callback goes to the
callback, although the callback panics and the publisher is dropped after that. -/
example :
    ((run {} [.poll .thread, .waitFor .zero, .lapse, .lookAgain, .onComplete .report,
      .complete (.ok 7), .unlock, .call true, .drop] : Exchange Waker Nat).handed).map Prod.snd =
      [.ok 7] := by
  rfl

end Deferral.Exchange
