import Deferral.Exchange

/-!
# What a consumer can do in an exchange

A consumer acts only between its calls and while the publisher does not hold the lock. A wait looks
into the cell, and what it does then depends on whether it finds anything.

Main statements:
* `whenFree_cases`, `lookAgain_cases`: when the consumer can do something.
* `look_cases`: what a look comes to.
-/

namespace Deferral.Exchange

variable {W V : Type} {x : Exchange W V}

/-! ## The lock -/

/-- The publisher does not hold the lock between two of its steps. -/
def Unlocked (x : Exchange W V) : Prop :=
  ∀ notice, x.publishing ≠ .locked notice

/-- Then whoever tries the lock finds it open. -/
theorem isLocked_eq_false_iff : x.isLocked = false ↔ x.Unlocked := by
  unfold isLocked Unlocked
  cases x.publishing <;> simp

/-- What the consumer does under the lock is done if the lock can be had. -/
theorem whenFree_of_free (hfree : x.attendance = .free) (hlocked : x.Unlocked)
    (f : Exchange W V → Exchange W V) : x.whenFree f = f x := by
  simp [whenFree, hfree, isLocked_eq_false_iff.mpr hlocked]

/-- What needs the lock and the consumer's attention is done if both can be had. -/
theorem whenFree_cases (x : Exchange W V) (f : Exchange W V → Exchange W V) :
    x.whenFree f = x ∨ x.attendance = .free ∧ x.Unlocked ∧ x.whenFree f = f x := by
  by_cases hfree : x.attendance = .free
  · cases hlocked : x.isLocked with
    | true => exact .inl (by simp [whenFree, hfree, hlocked])
    | false =>
      have hlocked := isLocked_eq_false_iff.mp hlocked
      exact .inr ⟨hfree, hlocked, whenFree_of_free hfree hlocked f⟩
  · left
    unfold whenFree
    split
    · contradiction
    · rfl

/-! ## Looks -/

/-- A look into an empty cell misses, and any other one ends the wait with an answer. -/
theorem look_cases (x : Exchange W V) (missed : Exchange W V → Exchange W V) :
    x.cell.slot = .pending ∧ x.look missed = missed x ∨
      ∃ cell o, x.look missed =
        { x with cell, attendance := .free, handed := x.handed ++ [(.wait, o)] } := by
  unfold look Cell.take?
  cases hslot : x.cell.slot with
  | pending => exact .inl ⟨rfl, rfl⟩
  | ready o => exact .inr ⟨_, o, rfl⟩
  | taken => exact .inr ⟨_, spent, rfl⟩

/-- A look into an empty cell misses. -/
theorem look_of_pending (hslot : x.cell.slot = .pending) (missed : Exchange W V → Exchange W V) :
    x.look missed = missed x := by
  simp [look, Cell.take?, hslot]

/-- A look that hands nothing out has missed. -/
theorem look_of_handed_eq {missed : Exchange W V → Exchange W V}
    (h : (x.look missed).handed = x.handed) : x.look missed = missed x := by
  rcases x.look_cases missed with ⟨-, hlook⟩ | ⟨cell, o, hlook⟩
  · exact hlook
  · rw [hlook] at h
    simp at h

/-- A consumer that was roused looks again if the lock can be had. -/
theorem lookAgain_of_roused {deadline : Option Nat} {late : Bool}
    (hroused : x.attendance = .roused deadline late) (hlocked : x.Unlocked) :
    x.lookAgain = x.look (if late then refuse else park deadline) := by
  simp [lookAgain, hroused, isLocked_eq_false_iff.mpr hlocked]

/-- A consumer looks again if it was roused and the lock can be had. -/
theorem lookAgain_cases (x : Exchange W V) :
    x.lookAgain = x ∨ ∃ deadline late, x.attendance = .roused deadline late ∧
      x.Unlocked ∧ x.lookAgain = x.look (if late then refuse else park deadline) := by
  unfold lookAgain
  split
  next deadline late ha =>
    cases hlocked : x.isLocked with
    | true => exact .inl rfl
    | false => exact .inr ⟨deadline, late, ha, isLocked_eq_false_iff.mp hlocked, rfl⟩
  next => exact .inl rfl

end Deferral.Exchange
