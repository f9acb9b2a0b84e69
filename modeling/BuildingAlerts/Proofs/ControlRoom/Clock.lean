/-
The clock of the room.

The clock shows the time since the room was opened in whole microseconds. An instant is known more
finely than that, and its microseconds come of two roundings: of a double to its 53 binary digits and
of the quotient to a whole number. Both keep the order of numbers, so the clock does not go back
while time passes, and a fraction of a second is never shown as more than a second.
-/
import BuildingAlerts.Proofs.ControlRoom.Passes
import BuildingAlerts.Proofs.Time.Order

set_option autoImplicit false

namespace BuildingAlerts

open Agenda

/-! ## Rounding -/

namespace Decimal

variable {a b d k n : Nat}

end Decimal

namespace Instant

open Decimal

variable {m n : Nat}

end Instant
/-! ## The clock -/

namespace ControlRoom

variable {c d : ControlRoom} {t u : Instant} {m n : Moment}

end ControlRoom

namespace Office

variable {p : Premises} {h : Past} {o : Office} {n : Doing}

/-- All that is done in one run is done on one clock. -/
theorem Premises.Run.opened (hr : p.Run h o) (hn : n ∈ h) : n.state.opened = p.room.opened :=
  (hr.later.2.1 n hn).1.opened

end Office

end BuildingAlerts
