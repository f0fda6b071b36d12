import Deferral.Exchange
import Mathlib.Data.List.Induction

/-!
# Where the outcome of an exchange is

At every time the outcome is owed by the publisher, carried by it to a callback, stored in the
cell, or handed out. `Exchange.At` says how the cell, the publisher and the histories of an
exchange look in each of these cases.

Main statements:
* `Exchange.At.step`: a step leads from one whereabouts to another, and the outcome is determined
  once and for all when the publisher first gives its cell up.
* `Exchange.exists_at_run`: after any run the outcome is somewhere, and it is that of the first step
  by which the publisher gave its cell up.
-/

namespace Deferral

/-- Where the outcome of an exchange is. -/
inductive Whereabouts (V : Type)
  /-- It is not published. -/
  | owed
  /-- The publisher has it, for the callback that it has found. -/
  | carried (o : Outcome V)
  /-- It lies in the cell. -/
  | stored (o : Outcome V)
  /-- It was handed out, and so were `later` answers that it is spent. -/
  | handed (o : Outcome V) (later : Nat)

namespace Whereabouts

variable {W V : Type}

/-- The outcome, if it is published. -/
def outcome? : Whereabouts V → Option (Outcome V)
  | owed => none
  | carried o | stored o | handed o _ => some o

/-- The outcome, if the publisher has it for a callback. -/
def carried? : Whereabouts V → Option (Outcome V)
  | carried o => some o
  | _ => none

/-- What the cell holds. -/
def slot : Whereabouts V → Slot (Outcome V)
  | owed => .pending
  | stored o => .ready o
  | carried _ | handed _ _ => .taken

/-- What was handed out, in order. -/
def handedOut : Whereabouts V → List (Outcome V)
  | handed o later => o :: List.replicate later spent
  | _ => []

/-- Where the outcome is after the cell was asked for it. -/
def take : Whereabouts V → Whereabouts V
  | stored o => handed o 0
  | handed o later => handed o (later + 1)
  | s => s

@[simp]
theorem outcome?_take (s : Whereabouts V) : s.take.outcome? = s.outcome? := by
  cases s <;> rfl

@[simp]
theorem carried?_take (s : Whereabouts V) : s.take.carried? = s.carried? := by
  cases s <;> rfl

@[simp]
theorem isDone_slot (s : Whereabouts V) : s.slot.isDone = s.outcome?.isSome := by
  cases s <;> rfl

/-- The cell is empty as long as the outcome is not published. -/
theorem slot_eq_pending_iff {s : Whereabouts V} : s.slot = .pending ↔ s.outcome? = none := by
  cases s <;> simp [slot, outcome?]

/-- A cell whose outcome is not published yields nothing and stays as it is. -/
theorem take?_of_owed {s : Whereabouts V} {c : Cell W (Outcome V)} (hc : c.slot = s.slot)
    (hs : s.outcome? = none) : c.take? spent = (c, none) := by
  rw [Cell.take?, hc, slot_eq_pending_iff.mpr hs]

/-- A cell whose outcome is published, and not carried to a callback, yields what is to be handed
out next. -/
theorem take?_of_published {s : Whereabouts V} {c : Cell W (Outcome V)} (hc : c.slot = s.slot)
    (hs : s.outcome?.isSome = true) (hcarried : s.carried? = none) :
    ∃ o, c.take? spent = ({ c with slot := s.take.slot }, some o) ∧
      s.take.handedOut = s.handedOut ++ [o] := by
  cases s with
  | owed => simp [outcome?] at hs
  | carried o => simp [carried?] at hcarried
  | stored o =>
    refine ⟨o, ?_, rfl⟩
    rw [Cell.take?, hc]
    rfl
  | handed o later =>
    -- The outcome was handed out before; the answer is that it is spent.
    refine ⟨spent, ?_, ?_⟩
    · have hslot : c = { c with slot := .taken } := by rw [← show c.slot = .taken from hc]
      rw [Cell.take?, hc]
      exact congrArg (·, some spent) hslot
    · simp [take, handedOut, List.replicate_succ']

end Whereabouts

/-- The outcome that the publisher has for a callback. -/
def Publishing.carried? {W V : Type} : Publishing W V → Option (Outcome V)
  | .locked (.call _ o) | .calling _ o => some o
  | _ => none

namespace Exchange

variable {W V : Type} {x : Exchange W V} {s : Whereabouts V}

/-- How many callbacks the consumer has given. -/
def given (x : Exchange W V) : Nat :=
  if x.attendance = .left then 1 else 0

/-- How many callbacks were invoked. -/
def invoked (x : Exchange W V) : Nat :=
  x.handed.countP (·.1 == .callback)

/-- How many callbacks are still to be invoked. -/
def outstanding (x : Exchange W V) : Nat :=
  x.cell.callback.toList.length + x.publishing.carried?.toList.length

/-- How an exchange looks whose outcome is where `s` says. -/
structure At (x : Exchange W V) (s : Whereabouts V) : Prop where
  /-- What the cell holds. -/
  slot : x.cell.slot = s.slot
  /-- A callback is registered only for an outcome that is owed. -/
  callback : x.cell.callback.isSome = true → s.outcome? = none
  /-- The publisher has the cell until it publishes. -/
  owing : x.owing = s.outcome?.isNone
  /-- The publisher is in no call until it publishes. -/
  idle : s.outcome? = none → x.publishing = .idle
  /-- What the publisher carries. -/
  carried : x.publishing.carried? = s.carried?
  /-- What was published. -/
  published : x.published = s.outcome?.toList
  /-- What was handed out. -/
  handed : x.handed.map Prod.snd = s.handedOut
  /-- The consumer was told that the outcome is not there only as long as it was not. -/
  answers : (x.answers ++ [s.outcome?.isSome]).Pairwise (· ≤ ·)
  /-- A callback that was given is invoked, or still to be invoked. -/
  balance : x.invoked + x.outstanding = x.given

/-- In the beginning the outcome is owed. -/
theorem at_unused : ({} : Exchange W V).At .owed where
  slot := rfl
  callback _ := rfl
  owing := rfl
  idle _ := rfl
  carried := rfl
  published := rfl
  handed := rfl
  answers := List.pairwise_singleton ..
  balance := rfl

namespace At

/-- Nothing is handed out as long as the outcome is owed. -/
theorem handedOut_of_owed (hs : s.outcome? = none) : s.handedOut = [] := by
  cases s <;> simp_all [Whereabouts.outcome?, Whereabouts.handedOut]

/-- The publisher carries the outcome only to the callback of a consumer that has left. -/
theorem carried?_of_not_left (h : x.At s) (hleft : x.attendance ≠ .left) : s.carried? = none := by
  -- It has given no callback, so none is outstanding.
  have hbalance := h.balance
  rw [given, if_neg hleft, outstanding, h.carried] at hbalance
  have hlength : s.carried?.toList.length = 0 := by omega
  simpa using hlength

/-- A callback is registered only for a consumer that has left. -/
theorem callback_of_not_left (h : x.At s) (hleft : x.attendance ≠ .left) :
    x.cell.callback = none := by
  have hbalance := h.balance
  rw [given, if_neg hleft, outstanding] at hbalance
  have hlength : x.cell.callback.toList.length = 0 := by omega
  simpa using hlength

/-- Whether the outcome is there. -/
theorem isDone (h : x.At s) : x.cell.isDone = s.outcome?.isSome := by
  rw [Cell.isDone, h.slot, Whereabouts.isDone_slot]

/-- The consumer's answers stay in order when the outcome comes. -/
theorem answers_published (h : x.At s) : (x.answers ++ [true]).Pairwise (· ≤ ·) := by
  have hanswers := h.answers
  rw [List.pairwise_append] at hanswers ⊢
  exact ⟨hanswers.1, List.pairwise_singleton .., fun _ _ _ hb => by simp_all⟩

/-- The exchange after its cell was given up for the first time. A callback that is registered
takes the outcome past the cell. -/
theorem surrender_of_owed (h : x.At s) (hs : s.outcome? = none) (o : Outcome V) :
    ∃ s', (x.surrender o).At s' ∧ s'.outcome? = some o := by
  -- Nothing has happened to the outcome so far.
  have howing : x.owing = true := by simp [h.owing, hs]
  have hpublished : x.published = [] := by simp [h.published, hs]
  have hhanded : x.handed.map Prod.snd = [] := by rw [h.handed, handedOut_of_owed hs]
  have hbalance := h.balance
  rw [outstanding, h.idle hs] at hbalance
  simp only [Exchange.surrender, h.idle hs, howing, if_true]
  cases hcallback : x.cell.callback with
  | some callback =>
    rw [Cell.publish_of_callback hcallback]
    refine ⟨.carried o, ?_, rfl⟩
    exact
      { slot := rfl
        callback := by simp
        owing := rfl
        idle := by simp [Whereabouts.outcome?]
        carried := rfl
        published := by simp [hpublished, Whereabouts.outcome?]
        handed := hhanded
        answers := h.answers_published
        balance := by rw [hcallback] at hbalance; exact hbalance }
  | none =>
    rw [Cell.publish_of_no_callback hcallback]
    refine ⟨.stored o, ?_, rfl⟩
    exact
      { slot := rfl
        callback := by simp [hcallback]
        owing := rfl
        idle := by simp [Whereabouts.outcome?]
        carried := rfl
        published := by simp [hpublished, Whereabouts.outcome?]
        handed := hhanded
        answers := h.answers_published
        balance := hbalance }

/-- Giving the cell up publishes an outcome that is owed, and nothing after that. -/
theorem surrender (h : x.At s) (o : Outcome V) :
    ∃ s', (x.surrender o).At s' ∧ s'.outcome? = s.outcome?.or (some o) := by
  cases hs : s.outcome? with
  | none => exact h.surrender_of_owed hs o
  | some o' =>
    -- The publisher has no cell any more, so there is nothing to give up.
    have howing : x.owing = false := by simp [h.owing, hs]
    refine ⟨s, ?_, hs⟩
    unfold Exchange.surrender
    split
    next => simpa [howing] using h
    next => exact h

/-- Releasing the lock moves the outcome nowhere. -/
theorem unlock (h : x.At s) : x.unlock.At s := by
  have hcarried := h.carried
  have hidle := h.idle
  have hbalance := h.balance
  unfold Exchange.unlock
  split
  next hp =>
    rw [outstanding, hp] at hbalance
    rw [hp] at hcarried hidle
    exact { h with carried := hcarried, idle := by simpa using hidle, balance := hbalance }
  next hp =>
    rw [outstanding, hp] at hbalance
    rw [hp] at hcarried hidle
    exact { h with carried := hcarried, idle := by simpa using hidle, balance := hbalance }
  next => exact h

/-- Invoking the callback hands out what the publisher carries to it. -/
theorem call (h : x.At s) (panics : Bool) :
    ∃ s', (x.call panics).At s' ∧ s'.outcome? = s.outcome? := by
  unfold Exchange.call
  split
  next callback o hp =>
    have hcarried : s.carried? = some o := by rw [← h.carried, hp]; rfl
    have hbalance := h.balance
    -- Whoever carries the outcome has it from the cell, and hands it out for the first time.
    cases s with
    | owed | stored | handed => cases hcarried
    | carried o' =>
      obtain rfl : o' = o := Option.some.inj hcarried
      refine ⟨.handed o' 0, ?_, rfl⟩
      exact
        { h with
          idle := fun _ => rfl
          carried := rfl
          handed := by simpa [Whereabouts.handedOut] using h.handed
          balance := by
            simp only [invoked, outstanding, hp, Publishing.carried?,
              List.countP_append] at hbalance ⊢
            rw [given] at hbalance ⊢
            simp only [List.countP_singleton, beq_self_eq_true, if_true, Option.toList_some,
              Option.toList_none, List.length_singleton, List.length_nil] at hbalance ⊢
            omega }
  next => exact ⟨s, h, rfl⟩

/-- A consumer that has not left may move about. -/
theorem attend (h : x.At s) (hleft : x.attendance ≠ .left) (a : Attendance) (ha : a ≠ .left) :
    { x with attendance := a }.At s := by
  refine { h with balance := ?_ }
  have hbalance := h.balance
  rw [given, if_neg hleft] at hbalance
  rw [given, if_neg ha]
  exact hbalance

/-- Rousing the consumer moves the outcome nowhere. -/
theorem rouse (h : x.At s) : x.rouse.At s := by
  unfold Exchange.rouse
  split
  next ha => exact h.attend (by simp [ha]) _ nofun
  next => exact h

/-- Notifying the consumer moves the outcome nowhere. -/
theorem notify (h : x.At s) : x.notify.At s := by
  have hcarried := h.carried
  have hidle := h.idle
  have hbalance := h.balance
  unfold Exchange.notify
  split
  next hp =>
    rw [outstanding, hp] at hbalance
    rw [hp] at hcarried hidle
    apply rouse
    exact { h with carried := hcarried, idle := by simpa using hidle, balance := hbalance }
  next => exact h

/-- Waking a waker moves the outcome nowhere. -/
theorem wake (h : x.At s) : x.wake.At s := by
  have hcarried := h.carried
  have hbalance := h.balance
  unfold Exchange.wake
  split
  next hp =>
    rw [outstanding, hp] at hbalance
    rw [hp] at hcarried
    exact { h with carried := hcarried, idle := fun _ => rfl, balance := hbalance }
  next => exact h

/-- Asking whether the outcome is there moves it nowhere. -/
theorem ask (h : x.At s) : x.ask.At s := by
  refine { h with answers := ?_ }
  have hanswers := h.answers
  simp only [Exchange.ask, h.isDone, List.append_assoc, List.pairwise_append] at hanswers ⊢
  simp_all

/-- Taking the outcome from the cell hands it out, or the answer that it is spent. -/
theorem take (h : x.At s) (hleft : x.attendance ≠ .left) {o : Outcome V}
    (ho : s.take.handedOut = s.handedOut ++ [o]) (receiver : Receiver)
    (hreceiver : receiver ≠ .callback) (a : Attendance) (ha : a ≠ .left) :
    { x with
      cell := { x.cell with slot := s.take.slot }
      attendance := a
      handed := x.handed ++ [(receiver, o)] }.At s.take := by
  have hbalance := h.balance
  rw [given, if_neg hleft, invoked] at hbalance
  exact
    { slot := rfl
      callback := by simpa using h.callback
      owing := by simpa using h.owing
      idle := by simpa using h.idle
      carried := by simpa using h.carried
      published := by simpa using h.published
      handed := by simp [h.handed, ho]
      answers := by simpa using h.answers
      balance := by
        -- Only what a callback receives counts as invoked.
        have hother : [(receiver, o)].countP (·.1 == .callback) = 0 := by simp [hreceiver]
        rw [given, if_neg ha, invoked, List.countP_append, hother]
        exact hbalance }

/-- Polling takes the outcome if it is published, and leaves a waker behind otherwise. -/
theorem poll [Wakes W] (h : x.At s) (hfree : x.attendance = .free) (w : W) :
    ∃ s', (x.poll w).At s' ∧ s'.outcome? = s.outcome? := by
  have hleft : x.attendance ≠ .left := by simp [hfree]
  cases hs : s.outcome? with
  | none =>
    refine ⟨s, ?_, hs⟩
    rw [Exchange.poll, Cell.poll_of_pending (by rw [h.slot, Whereabouts.slot_eq_pending_iff, hs])]
    exact { h with }
  | some o' =>
    obtain ⟨o, htake, ho⟩ :=
      Whereabouts.take?_of_published h.slot (by simp [hs]) (h.carried?_of_not_left hleft)
    refine ⟨s.take, ?_, by simp [hs]⟩
    rw [Exchange.poll, Cell.poll_of_isDone (by simp [h.isDone, hs]), htake]
    exact { h.take hleft ho .poll nofun x.attendance hleft with }

/-- Looking for the outcome in a wait takes it if it is published. -/
theorem look (h : x.At s) (hleft : x.attendance ≠ .left)
    {missed : Exchange W V → Exchange W V} (hmissed : (missed x).At s) :
    ∃ s', (x.look missed).At s' ∧ s'.outcome? = s.outcome? := by
  cases hs : s.outcome? with
  | none =>
    refine ⟨s, ?_, hs⟩
    rw [Exchange.look, Whereabouts.take?_of_owed h.slot hs]
    exact hmissed
  | some o' =>
    obtain ⟨o, htake, ho⟩ :=
      Whereabouts.take?_of_published h.slot (by simp [hs]) (h.carried?_of_not_left hleft)
    refine ⟨s.take, ?_, by simp [hs]⟩
    rw [Exchange.look, htake]
    exact h.take hleft ho .wait nofun .free nofun

/-- A consumer that gives a callback leaves; the callback is invoked at once if the outcome is
published, and registered otherwise. -/
theorem onComplete (h : x.At s) (hfree : x.attendance = .free) (callback : Callback) :
    ∃ s', (x.onComplete callback).At s' ∧ s'.outcome? = s.outcome? := by
  have hleft : x.attendance ≠ .left := by simp [hfree]
  have hcallback := h.callback_of_not_left hleft
  have hbalance := h.balance
  rw [given, if_neg hleft, outstanding, hcallback] at hbalance
  cases hs : s.outcome? with
  | none =>
    refine ⟨s, ?_, hs⟩
    rw [Exchange.onComplete,
      Cell.onComplete_of_pending (by rw [h.slot, Whereabouts.slot_eq_pending_iff, hs])]
    refine { h with callback := fun _ => hs, balance := ?_ }
    simp only [Option.toList_none, List.length_nil] at hbalance
    simp only [given, if_true, outstanding, invoked, Option.toList_some, List.length_singleton]
    rw [invoked] at hbalance
    omega
  | some o' =>
    obtain ⟨o, htake, ho⟩ :=
      Whereabouts.take?_of_published h.slot (by simp [hs]) (h.carried?_of_not_left hleft)
    refine ⟨s.take, ?_, by simp [hs]⟩
    rw [Exchange.onComplete, Cell.onComplete_of_isDone (by simp [h.isDone, hs]), htake]
    -- The callback is invoked where a wait would end, and counts as given and invoked.
    have htaken := h.take hleft ho .wait nofun .free nofun
    refine { htaken with handed := ?_, balance := ?_ }
    · simpa using htaken.handed
    · simp only [Option.toList_none, List.length_nil] at hbalance
      simp only [given, if_true, outstanding, hcallback, Option.toList_none, List.length_nil,
        invoked, List.countP_append, List.countP_singleton, beq_self_eq_true]
      rw [invoked] at hbalance
      omega

/-- What a consumer does under the lock and in no call. -/
theorem whenFree (h : x.At s) {f : Exchange W V → Exchange W V}
    (hf : x.attendance = .free → ∃ s', (f x).At s' ∧ s'.outcome? = s.outcome?) :
    ∃ s', (x.whenFree f).At s' ∧ s'.outcome? = s.outcome? := by
  unfold Exchange.whenFree
  split
  next hfree =>
    split
    · exact ⟨s, h, rfl⟩
    · exact hf hfree
  next => exact ⟨s, h, rfl⟩

/-- Looking again after having been roused takes the outcome if it is published. -/
theorem lookAgain (h : x.At s) : ∃ s', x.lookAgain.At s' ∧ s'.outcome? = s.outcome? := by
  unfold Exchange.lookAgain
  split
  next deadline late ha =>
    have hleft : x.attendance ≠ .left := by simp [ha]
    split
    · exact ⟨s, h, rfl⟩
    · -- If the outcome is missed, the wait ends when it is late and goes on otherwise.
      apply h.look hleft
      cases late with
      | true => exact { h.attend hleft .free nofun with }
      | false => exact h.attend hleft _ nofun
  next => exact ⟨s, h, rfl⟩

/-- The deadline moves the outcome nowhere. -/
theorem lapse (h : x.At s) : x.lapse.At s := by
  unfold Exchange.lapse
  split
  next ha =>
    split
    · exact h.attend (by simp [ha]) _ nofun
    · exact h
  next => exact h

/-- A step moves the outcome on, and brings it into being only if it gives the cell up for the
first time. -/
theorem step [Wakes W] (h : x.At s) (a : Step W V) :
    ∃ s', (x.step a).At s' ∧ s'.outcome? = s.outcome?.or a.outcome? := by
  -- Only a step that gives the cell up brings an outcome into being.
  have hkeep {y : Exchange W V} (hy : ∃ s', y.At s' ∧ s'.outcome? = s.outcome?) :
      ∃ s', y.At s' ∧ s'.outcome? = s.outcome?.or none := by simpa using hy
  have hpark (deadline : Option Nat) (hfree : x.attendance = .free) : (x.park deadline).At s :=
    h.attend (by simp [hfree]) (.parked deadline) nofun
  cases a with
  | complete o => exact h.surrender o
  | drop => exact h.surrender (.error .cancelled)
  | unlock => exact hkeep ⟨s, h.unlock, rfl⟩
  | call panics => exact hkeep (h.call panics)
  | notify => exact hkeep ⟨s, h.notify, rfl⟩
  | wake => exact hkeep ⟨s, h.wake, rfl⟩
  | ask => exact hkeep (h.whenFree fun _ => ⟨s, h.ask, rfl⟩)
  | poll w => exact hkeep (h.whenFree fun hfree => h.poll hfree w)
  | wait =>
    exact hkeep (h.whenFree fun hfree => h.look (by simp [hfree]) (hpark none hfree))
  | waitFor limit =>
    exact hkeep (h.whenFree fun hfree => h.look (by simp [hfree]) (hpark _ hfree))
  | onComplete callback => exact hkeep (h.whenFree fun hfree => h.onComplete hfree callback)
  | rouse => exact hkeep ⟨s, h.rouse, rfl⟩
  | lapse => exact hkeep ⟨s, h.lapse, rfl⟩
  | lookAgain => exact hkeep h.lookAgain
  | pass t => exact hkeep ⟨s, { h with }, rfl⟩

end At

/-- After a run the outcome is somewhere, and it is that of the first step that gave the cell up. -/
theorem exists_at_run [Wakes W] (steps : List (Step W V)) :
    ∃ s, (run {} steps : Exchange W V).At s ∧ s.outcome? = steps.findSome? Step.outcome? := by
  induction steps using List.reverseRecOn with
  | nil => exact ⟨.owed, at_unused, rfl⟩
  | append_singleton steps a ih =>
    obtain ⟨s, h, hs⟩ := ih
    obtain ⟨s', h', hs'⟩ := h.step a
    refine ⟨s', ?_, ?_⟩
    · rw [run, List.foldl_append]
      exact h'
    · rw [hs', hs, List.findSome?_append]
      simp

end Exchange

end Deferral
