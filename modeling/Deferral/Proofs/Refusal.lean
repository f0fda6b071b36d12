import Deferral.Proofs.Exchange.Refusal
import Deferral.Proofs.System.Refusal

/-!
# Trying a future

A caller can try a future for a limited time as often as he likes. In the cell a refused try leaves
no trace, at whatever point of the publication the deadline comes; and in the system it leaves none
that anybody could see, on whatever schedule.

Main statement:
* `refusals_invisible`: a try that is refused changes nothing, and none loses the outcome.
-/

namespace Deferral

open Deferral.System

/-- A try of a future that is refused changes nothing, and none loses the outcome: neither where the
publisher and the consumer of a cell take their steps, nor where a caller tries a future that he has
made by spawning while everybody acts. -/
theorem refusals_invisible :
    (∀ (W V : Type) [Wakes W] (steps : List (Exchange.Step W V)),
      (Exchange.run {} steps).Forbearing) ∧
    (∀ (V : Type) (early late : List (Action V)) (r : ReservationId) (x : Reservation V),
      (run {} early).reservations[r]? = some x →
      (Action.use r .spawn : Action V).starts r x = true →
      (∀ a ∈ late, a.handle? = some r → a.tries = true) →
      received r {} (early ++ .use r .spawn :: late) = [] → Refusal r early late) := by
  refine ⟨fun W V _ steps => ?_, fun V early late r x hx hstarts htries hreceived => ?_⟩
  · exact Exchange.forbearing_run steps
  · exact refusal_run hx hstarts htries hreceived

/-- What is there when a reservation is about to be spawned. -/
def triedReserved : List (Action Nat) :=
  [.addPool { threadName := "worker", workers := 1 }, .borrow "scope" 0,
    .reserve 0 none "a" (.gate "door" (.finish (.value 7)))]

/-- What happens to it then: it is tried for no time, and then for the longest time
that there is. -/
def triedTwice : List (Action Nat) :=
  [.testClosed 0, .spawn 0, .letGo 0, .use 0 (.join (some .zero)), .fetch 0, .resume 0, .expire 0,
    .step 0, .use 0 (.join (some .max)), .fetch 0, .openGate "door", .resume 0, .step 0]

/-- A future that was tried for no time, and is tried for the longest time when the outcome comes,
is answered with it. -/
theorem refusals_invisible_triedTwice :
    Refusal 0 triedReserved triedTwice ∧
      received 0 {} (triedReserved ++ .use 0 .spawn :: triedTwice ++ [.expire 0]) =
        [(.waiting (.joining .max), .outcome (.ok 7))] ∧
      (Exchange.run {} [.waitFor .zero, .lapse, .lookAgain, .complete (.ok 7), .unlock] :
        Exchange Waker Nat).Forbearing := by
  refine ⟨?_, rfl, ?_⟩
  · exact refusals_invisible.2 Nat _ _ 0 _ rfl rfl (by decide) rfl
  · exact refusals_invisible.1 Waker Nat _

end Deferral
