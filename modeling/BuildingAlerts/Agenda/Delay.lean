/-
Time on the agenda.

The agenda counts seconds in doubles, from zero where it starts. Every such double is a whole
number of grains, the finest step that doubles have near zero, and an instant is kept as that
number: instants are compared exactly, and nothing is rounded but the sum of an instant and a
delay, to the 53 binary digits that a double holds.
-/
import BuildingAlerts.Number

set_option autoImplicit false

namespace BuildingAlerts

/-- The time since an agenda was started, in grains. -/
abbrev Instant := Nat

/-- How long a task waits. -/
inductive Delay where
  /-- No time at all: it goes on at its next turn. -/
  | zero
  /-- So many grains. -/
  | grains (n : Nat)
  /-- For ever. -/
  | endless
deriving DecidableEq

namespace Delay

/-- The delay of a number of seconds. -/
def ofFloat (seconds : Float) : Delay :=
  match Decimal.shape seconds with
  | .nan => .grains 0
  | .infinite negative => if negative then .zero else .endless
  | .finite b =>
    if b.negative || b.mantissa == 0 then .zero
    else .grains (b.mantissa * Decimal.twoTo (b.exponent + 1074).toNat)

/-- The delay of a number of seconds; a whole number must have a finite double. -/
def of? (seconds : Number) : Option Delay :=
  if seconds.le (.whole 0) then some .zero else seconds.toFloat?.map ofFloat

end Delay

namespace Instant

/-- The number of grains in a second. -/
def perSecond : Nat := Decimal.twoTo 1074

/-- A number of grains with its first 53 binary digits, a half going to the even neighbour. -/
def rounded (n : Nat) : Nat :=
  let spare := Decimal.bitCount n - 53
  Decimal.roundDiv n (Decimal.twoTo spare) * Decimal.twoTo spare

/-- The instant a number of grains later. -/
def plus (t : Instant) (grains : Nat) : Instant :=
  rounded (t + grains)

/-- The instant after a delay, if it is ever over. -/
def after? (t : Instant) : Delay → Option Instant
  | .zero => some t
  | .grains n => some (t.plus n)
  | .endless => none

/-- How early a timer may go off: the grains of the double nearest to a billionth of a second. -/
def tolerance : Nat :=
  4835703278458517 * Decimal.twoTo 992

/-- Whether a timer that is set for a time goes off at an instant: the time has come, or less
than the tolerance is missing. -/
def isDue (t due : Instant) : Bool :=
  due ≤ t || due < t.plus tolerance

/-- The seconds up to an instant. -/
def seconds (t : Instant) : Float :=
  Decimal.ofRatio false t perSecond

/-- The microseconds up to an instant. The fraction of the last second is turned into
microseconds as a double, and those are rounded, a half to the even neighbour. -/
def micros (t : Instant) : Int :=
  t / perSecond * 1000000
    + Decimal.roundDiv (rounded (t % perSecond * 1000000)) perSecond

end Instant

end BuildingAlerts
