import Deferral.Proofs.Exchange.Step

/-!
# A publication comes to its end

When the publisher has given its cell up, what it still has to do is settled: it releases the lock,
and then invokes the callback that it has found, or notifies and wakes. Nobody else can do these
steps for it, undo them, or add to them, so the publication is over in every run in which the
publisher takes them.

Main statement: `publishing_run`.
-/

namespace Deferral

/-- The steps that the publisher has still to take; a callback that it invokes `panics` or not. -/
def Publishing.pending {W V : Type} (panics : Bool) : Publishing W V → List (Exchange.Step W V)
  | .idle => []
  | .locked (.call _ _) => [.unlock, .call panics]
  | .locked (.notify _) => [.unlock, .notify, .wake]
  | .calling _ _ => [.call panics]
  | .notifying _ => [.notify, .wake]
  | .waking _ => [.wake]

/-- Without steps to take, the publisher is in no call. -/
theorem Publishing.eq_idle_of_pending {W V : Type} {p : Publishing W V} {panics : Bool}
    (h : p.pending panics = []) : p = .idle := by
  cases p with
  | idle => rfl
  | locked notice => cases notice <;> cases h
  | calling | notifying | waking => cases h

namespace Exchange

variable {W V : Type} {x x' : Exchange W V}

/-- The publisher is where it was. -/
structure Untouched (x x' : Exchange W V) : Prop where
  /-- It has the cell if it had it before. -/
  owing_eq : x'.owing = x.owing
  /-- It is about to do the same. -/
  publishing_eq : x'.publishing = x.publishing

namespace Untouched

/-- What the consumer does under the lock. -/
theorem whenFree {f : Exchange W V → Exchange W V} (hf : Untouched x (f x)) :
    Untouched x (x.whenFree f) := by
  rcases x.whenFree_cases f with hwhen | ⟨-, -, hwhen⟩ <;> rw [hwhen]
  · exact ⟨rfl, rfl⟩
  · exact hf

/-- What the consumer does in a wait. -/
theorem look {missed : Exchange W V → Exchange W V} (hmissed : Untouched x (missed x)) :
    Untouched x (x.look missed) := by
  rcases x.look_cases missed with ⟨-, hlook⟩ | ⟨cell, o, hlook⟩ <;> rw [hlook]
  · exact hmissed
  · exact ⟨rfl, rfl⟩

/-- A poll of the consumer. -/
theorem poll [Wakes W] (w : W) : Untouched x (x.poll w) := by
  unfold Exchange.poll
  split <;> exact ⟨rfl, rfl⟩

/-- A callback that the consumer gives. -/
theorem onComplete (callback : Callback) : Untouched x (x.onComplete callback) := by
  unfold Exchange.onComplete
  split <;> exact ⟨rfl, rfl⟩

/-- The consumer is roused. -/
theorem rouse : Untouched x x.rouse := by
  unfold Exchange.rouse
  split <;> exact ⟨rfl, rfl⟩

/-- The consumer is roused by its deadline. -/
theorem lapse : Untouched x x.lapse := by
  unfold Exchange.lapse
  split
  next => split <;> exact ⟨rfl, rfl⟩
  next => exact ⟨rfl, rfl⟩

/-- The consumer looks again after it was roused. -/
theorem lookAgain : Untouched x x.lookAgain := by
  rcases x.lookAgain_cases with hagain | ⟨deadline, late, -, -, hagain⟩ <;> rw [hagain]
  · exact ⟨rfl, rfl⟩
  · exact look (by cases late <;> exact ⟨rfl, rfl⟩)

/-- The cell cannot be given up a second time. -/
theorem surrender (howing : x.owing = false) (o : Outcome V) : Untouched x (x.surrender o) := by
  unfold Exchange.surrender
  split
  next => rw [howing, if_neg Bool.false_ne_true]; exact ⟨rfl, rfl⟩
  next => exact ⟨rfl, rfl⟩

end Untouched

/-! ## The publisher's steps -/

/-- When the cell was given up, no step adds to those that the publisher has still to take. -/
theorem pending_step_sublist [Wakes W] (howing : x.owing = false) (panics : Bool) (a : Step W V) :
    (x.step a).owing = false ∧
      ((x.step a).publishing.pending panics).Sublist (x.publishing.pending panics) := by
  have hkeep {y : Exchange W V} (hy : Untouched x y) : y.owing = false ∧
      (y.publishing.pending panics).Sublist (x.publishing.pending panics) := by
    rw [hy.owing_eq, hy.publishing_eq]
    exact ⟨howing, List.Sublist.refl _⟩
  cases a with
  | complete o => exact hkeep (.surrender howing o)
  | drop => exact hkeep (.surrender howing (.error .cancelled))
  | unlock =>
    rw [step, unlock]
    split
    next hp =>
      rw [hp]
      exact ⟨howing, List.sublist_cons_self ..⟩
    next hp =>
      rw [hp]
      exact ⟨howing, List.sublist_cons_self ..⟩
    next => exact hkeep ⟨rfl, rfl⟩
  | call =>
    rw [step, call]
    split
    next => exact ⟨howing, List.nil_sublist _⟩
    next => exact hkeep ⟨rfl, rfl⟩
  | notify =>
    rw [step, notify]
    split
    next waker hp =>
      have hroused : Untouched { x with publishing := .waking waker } _ := .rouse
      rw [hroused.owing_eq, hroused.publishing_eq, hp]
      exact ⟨howing, List.sublist_cons_self ..⟩
    next => exact hkeep ⟨rfl, rfl⟩
  | wake =>
    rw [step, wake]
    split
    next => exact ⟨howing, List.nil_sublist _⟩
    next => exact hkeep ⟨rfl, rfl⟩
  | ask => exact hkeep (.whenFree ⟨rfl, rfl⟩)
  | poll w => exact hkeep (.whenFree (.poll w))
  | wait | waitFor => exact hkeep (.whenFree (.look ⟨rfl, rfl⟩))
  | onComplete callback => exact hkeep (.whenFree (.onComplete callback))
  | rouse => exact hkeep .rouse
  | lapse => exact hkeep .lapse
  | lookAgain => exact hkeep .lookAgain
  | pass => exact hkeep ⟨rfl, rfl⟩

/-- When the publisher takes its next step, the others remain. -/
theorem pending_step_of_next [Wakes W] {panics : Bool} {a : Step W V} {rest : List (Step W V)}
    (h : x.publishing.pending panics = a :: rest) :
    (x.step a).publishing.pending panics = rest := by
  cases hp : x.publishing with
  | idle =>
    rw [hp] at h
    cases h
  | locked notice =>
    rw [hp] at h
    cases notice <;> obtain ⟨rfl, rfl⟩ := List.cons.inj h <;> rw [step, unlock, hp] <;> rfl
  | calling =>
    rw [hp] at h
    obtain ⟨rfl, rfl⟩ := List.cons.inj h
    rw [step, call, hp]
    rfl
  | notifying =>
    rw [hp] at h
    obtain ⟨rfl, rfl⟩ := List.cons.inj h
    rw [step, notify, hp, Untouched.rouse.publishing_eq]
    rfl
  | waking =>
    rw [hp] at h
    obtain ⟨rfl, rfl⟩ := List.cons.inj h
    rw [step, wake, hp]
    rfl

/-- A publication that is under way is over in every run in which the publisher takes the steps that
it has still to take, whatever happens in between. -/
theorem publishing_run [Wakes W] (howing : x.owing = false) {panics : Bool}
    {steps : List (Step W V)} (h : (x.publishing.pending panics).Sublist steps) :
    (x.run steps).owing = false ∧ (x.run steps).publishing = .idle := by
  induction steps generalizing x with
  | nil => exact ⟨howing, Publishing.eq_idle_of_pending (List.sublist_nil.mp h)⟩
  | cons a steps ih =>
    obtain ⟨howing', hsublist⟩ := pending_step_sublist howing panics a
    refine ih howing' ?_
    -- The first step of the run is the publisher's next one, or it is one that takes none from it.
    rcases List.sublist_cons_iff.mp h with hlater | ⟨rest, hnext, hrest⟩
    · exact hsublist.trans hlater
    · rwa [pending_step_of_next hnext]

end Exchange

end Deferral
