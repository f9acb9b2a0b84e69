/-
How long an alert waits for its next stage.

A stage is due some minutes after the latest attempt in the log of its alert, and this is looked at
when the stage is fired, however long ago it was booked. An attempt is in the log as soon as its wave
has ended: what a wave writes are all its deliveries, and an entry is never older than the latest
attempt at its delivery, so the time of a retry counts from the moment it begins. What the log could
lack are the attempts of a wave that is under way or that was cut short. But one task at most goes on
with an alert, so no other wave is under way when a stage is fired; and a wave that is cut short leaves
nobody to go on, so that no stage is fired after it.
-/
import BuildingAlerts.Proofs.Alert.Spacing
import BuildingAlerts.Proofs.ControlRoom.Clock
import BuildingAlerts.Proofs.ControlRoom.Retries
import BuildingAlerts.Proofs.ControlRoom.Succession
import Mathlib.Data.List.Infix

set_option autoImplicit false

namespace BuildingAlerts

open Agenda

/-! ## When a stage is due -/

namespace Alert

end Alert

/-! ## What a stint leaves -/

namespace ControlRoom

variable {c : ControlRoom} {id : String}

end ControlRoom

namespace Office

variable {p : Premises} {r : AlertRef} {h e : Past} {o : Office} {n : Doing} {id : String}

end Office

end BuildingAlerts
