import Deferral.Cell

/-!
# One-place channels

A channel with room for one item. The sender is used up by its first attempt to send, so an item
is refused only when the receiver is gone.
-/

namespace Deferral

/-- What became of an attempt to send. -/
inductive Sending
  /-- The item is in the channel. -/
  | sent
  /-- There was no room. -/
  | full
  /-- The receiver is gone. -/
  | refused
  deriving DecidableEq, Repr

/-- A channel with room for one item. -/
structure Channel (A : Type) where
  /-- The item on its way. -/
  item : Option A := none
  /-- Whether the sender may still send. -/
  sending : Bool := true
  /-- Whether the receiver is still there. -/
  receiving : Bool := true
  /-- Whom the last pending attempt to receive asked to be told. -/
  waker : Option Waker := none
  deriving DecidableEq, Repr

namespace Channel

variable {A : Type}

/-- Put an item into the channel if there is room and a receiver. -/
def trySend (a : A) (c : Channel A) : Channel A × Sending :=
  if !c.receiving then (c, .refused)
  else if c.item.isSome then (c, .full)
  else ({ c with item := some a }, .sent)

/-- Send the only item and drop the sender; the receiver's waker is due to be woken. -/
def sendLast (a : A) (c : Channel A) : Channel A × Sending × Option Waker :=
  let (c', sending) := c.trySend a
  ({ c' with sending := false, waker := none }, sending, c.waker)

/-- Receive an item, or the end once nothing can come any more, or leave a waker behind. -/
def receive (w : Waker) (c : Channel A) : Channel A × Option (Option A) :=
  match c.item with
  | some a => ({ c with item := none }, some (some a))
  | none => if c.sending then ({ c with waker := some w }, none) else (c, some none)

/-- Drop the receiver and what is on its way to it. -/
def hangUp (c : Channel A) : Channel A :=
  { c with receiving := false, item := none }

/-- Whether an attempt to receive would be answered. -/
def isReady (c : Channel A) : Bool :=
  c.item.isSome || !c.sending

/-- Sending fails only for want of a receiver, if nothing was sent before. -/
theorem sendLast_of_empty (a : A) {c : Channel A} (h : c.item = none) :
    (c.sendLast a).2.1 = if c.receiving then .sent else .refused := by
  cases hr : c.receiving <;> simp [sendLast, trySend, h, hr]

end Channel

end Deferral
