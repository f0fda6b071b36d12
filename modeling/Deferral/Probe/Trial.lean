import Deferral.Probe.Options
import Deferral.System.Settle

/-!
# Trials

The probe's computation, consumed in one way after another. A trial says what came of it and how
long it took by the schedule.
-/

namespace Deferral.Probe

/-- What came of consuming the computation in one way. -/
structure Trial where
  /-- How it was consumed. -/
  shape : Shape
  /-- The value, if any, or a failure. -/
  outcome : Except Failure (Option String)
  /-- The time that passed by the schedule. -/
  scheduled : Duration

/-- The name of the probe's reservations. -/
def echoName : String := "delayed_echo"

/-- The computation that sleeps and then echoes a value. -/
def echo (o : Options) : Computation ScopeId String :=
  .sleep o.delay (.finish (.value o.value))

/-- The actions by which a caller carries a launch through. -/
def launch (r : ReservationId) : List (Action String) :=
  [.testClosed r, .spawn r, .letGo r, .attach r]

/-- The actions by which a reservation is consumed, up to the wait for its outcome. -/
def Shape.actions (o : Options) (r : ReservationId) : Shape → List (Action String)
  | .block => .use r (.block none) :: launch r
  | .spawn => .use r .spawn :: launch r ++ [.use r (.join none)]
  | .mono => .reshape r .mono :: .use r (.block (some o.timeout)) :: launch r
  | .maybe => .reshape r .maybe :: .use r .get :: launch r
  | .stream => .reshape r .stream :: .use r .poll :: launch r

/-- What was delivered, as a value or none, or a failure. -/
def extracted : Delivery String → Except Failure (Option String)
  | .outcome o => o.map some
  | .optional o => o
  | .item (some o) => o.map some
  | .item none => .ok none

/-- Wait for what is delivered. -/
def Shape.wait (r : ReservationId) (w : System String) :
    Shape → System String × Option (Delivery String)
  | .stream =>
    -- Only a stream's handle outlives the wait.
    let (w, d) := w.pollOut r id
    (w.act (.drop r), d)
  | _ =>
    match w.waitOut r id with
    | (w, .delivered d) => (w, some d)
    | (w, _) => (w, none)

/-- Reserve the computation on a scope and consume it. The result is `none` if the wait would
never end. -/
def Shape.attempt (o : Options) (s : ScopeId) (w : System String) (shape : Shape) :
    System String × Option Trial :=
  let r := w.reservations.length
  let begun := (w.act (.reserve s (some echoName) shape.name (echo o))).run (shape.actions o r)
  let (w', d) := shape.wait r begun
  (w', d.map fun d =>
    { shape, outcome := extracted d, scheduled := ⟨w'.clock - w.clock⟩ })

/-- Consume the computation in several ways, one after the other. -/
def trials (o : Options) (s : ScopeId) : System String → List Shape → Option (List Trial)
  | _, [] => some []
  | w, shape :: rest => do
    let (w, trial) := shape.attempt o s w
    some ((← trial) :: (← trials o s w rest))

end Deferral.Probe
