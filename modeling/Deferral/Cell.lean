/-!
# Outcome cells

A cell hands the outcome of a running computation to its one consumer. The publisher fills it
once; the consumer looks at it, takes the outcome, leaves a waker behind, or registers a callback.
Every operation here is one step under the cell's lock, and what the publisher still owes after it
has let go of the lock is its result.

Main statements:
* `isDone_publish`: a cell that has been published is done, whatever it was before.
* `take?_publish`: without a callback, the outcome published is the one taken next.
* `renew_equiv`: the waker that a pending poll leaves in the cell wakes the party that polled.
-/

namespace Deferral

/-- Whom to tell that an outcome has arrived. -/
inductive Waker
  /-- A caller that polled under this name. -/
  | named (name : String)
  /-- The computation that awaits the outcome. -/
  | task (id : Nat)
  /-- The thread that blocks until it is told. -/
  | thread
  deriving DecidableEq, Repr

/-- Wakers of type `W`. Two of them are equivalent if they wake the same party; of some this can
be told by looking at them. -/
class Wakes (W : Type) extends Setoid W where
  /-- Whether two wakers can be told to wake the same party. -/
  willWake : W → W → Bool
  /-- Wakers that can be told to wake the same party do so. -/
  equiv_of_willWake {v w : W} : willWake v w = true → v ≈ w

instance : Wakes Waker where
  r := Eq
  iseqv := ⟨Eq.refl, Eq.symm, Eq.trans⟩
  willWake v w := v == w
  equiv_of_willWake h := eq_of_beq h

/-- Where an outcome goes that is not fetched but handed over. -/
inductive Callback
  /-- To a function of the caller. -/
  | report
  /-- Into the channel of a one-item stream. -/
  | forward
  deriving DecidableEq, Repr

/-- What a cell holds. -/
inductive Slot (A : Type)
  /-- No outcome has been published. -/
  | pending
  /-- The outcome has been published and not yet fetched. -/
  | ready (a : A)
  /-- The outcome has been handed out. -/
  | taken
  deriving DecidableEq, Repr

/-- Whether an outcome has been published. -/
def Slot.isDone {A : Type} : Slot A → Bool
  | .pending => false
  | _ => true

/-- The place where a computation leaves its outcome for its consumer. -/
structure Cell (W A : Type) where
  /-- The outcome, if it is there. -/
  slot : Slot A := .pending
  /-- Whom the last pending poll asked to be told. -/
  waker : Option W := none
  /-- Where to hand the outcome when it comes. -/
  callback : Option Callback := none
  deriving DecidableEq, Repr

/-- What a publisher does after it has let go of the cell. -/
inductive Notice (W A : Type)
  /-- Invoke a callback with the outcome. -/
  | call (callback : Callback) (a : A)
  /-- Notify whoever is parked, then wake the waker. -/
  | notify (waker : Option W)
  deriving DecidableEq, Repr

namespace Cell

variable {W A : Type}

/-- Whether the outcome has been published. -/
def isDone (c : Cell W A) : Bool :=
  c.slot.isDone

/-- Publish an outcome: a registered callback receives it, otherwise it is left in the slot. -/
def publish (a : A) (c : Cell W A) : Cell W A × Notice W A :=
  match c.callback with
  | some callback => ({ c with slot := .taken, callback := none }, .call callback a)
  | none => ({ c with slot := .ready a, waker := none }, .notify c.waker)

/-- Fetch the outcome once it has been published. What was handed out before is answered by
`spent`. -/
def take? (spent : A) (c : Cell W A) : Cell W A × Option A :=
  match c.slot with
  | .pending => (c, none)
  | .ready a => ({ c with slot := .taken }, some a)
  | .taken => (c, some spent)

/-- The waker to keep when `w` is left behind: one that is there already stays if it can be told
to wake the same party. -/
def renew [Wakes W] (w : W) : Option W → W
  | some v => if Wakes.willWake v w then v else w
  | none => w

/-- Fetch the outcome, or leave a waker behind. -/
def poll [Wakes W] (spent : A) (w : W) (c : Cell W A) : Cell W A × Option A :=
  match c.slot with
  | .pending => ({ c with waker := some (renew w c.waker) }, none)
  | _ => c.take? spent

/-- Ask for the outcome to be handed over; if it is there already, the caller invokes the
callback with it at once. -/
def onComplete (spent : A) (callback : Callback) (c : Cell W A) : Cell W A × Option A :=
  match c.slot with
  | .pending => ({ c with callback := some callback }, none)
  | _ => c.take? spent

/-- The waker that is kept wakes the party of the one left behind. -/
theorem renew_equiv [Wakes W] (w : W) (v : Option W) : renew w v ≈ w := by
  cases v with
  | none => exact Setoid.refl w
  | some v =>
    rw [renew]
    split
    next h => exact Wakes.equiv_of_willWake h
    next => exact Setoid.refl w

/-- A registered callback takes the outcome past the slot. -/
theorem publish_of_callback {c : Cell W A} {callback : Callback} (h : c.callback = some callback)
    (a : A) :
    c.publish a = ({ c with slot := .taken, callback := none }, .call callback a) := by
  rw [publish, h]

/-- Without a callback the outcome is left in the slot. -/
theorem publish_of_no_callback {c : Cell W A} (h : c.callback = none) (a : A) :
    c.publish a = ({ c with slot := .ready a, waker := none }, .notify c.waker) := by
  rw [publish, h]

/-- As long as nothing is there, polling only leaves a waker behind. -/
theorem poll_of_pending [Wakes W] {c : Cell W A} (h : c.slot = .pending) (spent : A) (w : W) :
    c.poll spent w = ({ c with waker := some (renew w c.waker) }, none) := by
  rw [poll, h]

/-- Polling takes an outcome that is there. -/
theorem poll_of_isDone [Wakes W] {c : Cell W A} (h : c.isDone = true) (spent : A) (w : W) :
    c.poll spent w = c.take? spent := by
  unfold poll
  split
  next hslot => simp [isDone, hslot, Slot.isDone] at h
  next => rfl

/-- As long as nothing is there, a callback that is given is registered. -/
theorem onComplete_of_pending {c : Cell W A} (h : c.slot = .pending) (spent : A)
    (callback : Callback) :
    c.onComplete spent callback = ({ c with callback := some callback }, none) := by
  rw [onComplete, h]

/-- Giving a callback takes an outcome that is there. -/
theorem onComplete_of_isDone {c : Cell W A} (h : c.isDone = true) (spent : A)
    (callback : Callback) :
    c.onComplete spent callback = c.take? spent := by
  unfold onComplete
  split
  next hslot => simp [isDone, hslot, Slot.isDone] at h
  next => rfl

@[simp]
theorem isDone_publish (a : A) (c : Cell W A) : (c.publish a).1.isDone = true := by
  unfold publish
  split <;> rfl

theorem take?_publish (spent a : A) {c : Cell W A} (h : c.callback = none) :
    ((c.publish a).1.take? spent).2 = some a := by
  simp [publish, take?, h]

end Cell

end Deferral
