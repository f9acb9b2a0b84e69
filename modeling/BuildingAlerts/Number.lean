/-
Numbers that keep their kind.

A limit set by hand may be a whole number of any size while every measured value is a
double. Comparison between the two kinds is exact; arithmetic moves a whole number to the
nearest double first, and fails where there is no finite one.
-/
import BuildingAlerts.Decimal.Layout

set_option autoImplicit false

namespace BuildingAlerts

/-- A whole number or a double. -/
inductive Number where
  | whole (n : Int)
  | real (x : Float)

namespace Number

instance : Inhabited Number := ⟨.real 0.0⟩

/-- The double nearest to a number, if there is a finite one for a whole number. -/
def toFloat? : Number → Option Float
  | .whole n => Decimal.ofInt? n
  | .real x => some x

/-- How a whole number stands to the exact value of a double. -/
def compareWhole (n : Int) (b : Decimal.Binary) : Ordering :=
  let s := Decimal.scaleByTwo b.mantissa 1 b.exponent
  let v : Int := if b.negative then -(s.1 : Int) else s.1
  compare (n * s.2) v

/-- The order of two numbers; none if one of them is not a number. -/
def order? : Number → Number → Option Ordering
  | .whole a, .whole b => some (compare a b)
  | .whole a, .real y =>
    match Decimal.shape y with
    | .nan => none
    | .infinite negative => some (if negative then .gt else .lt)
    | .finite b => some (compareWhole a b)
  | .real x, .whole b =>
    match Decimal.shape x with
    | .nan => none
    | .infinite negative => some (if negative then .lt else .gt)
    | .finite v => some (compareWhole b v).swap
  | .real x, .real y =>
    if x < y then some .lt else if x > y then some .gt else if x == y then some .eq else none

/-- Strictly less, exactly. -/
def lt (a b : Number) : Bool :=
  a.order? b == some .lt

/-- Less or equal, exactly. -/
def le (a b : Number) : Bool :=
  match a.order? b with
  | some .lt | some .eq => true
  | _ => false

/-- Equal in value, exactly. -/
def eqv (a b : Number) : Bool :=
  a.order? b == some .eq

/-- The second number if it is strictly less than the first, else the first. -/
def least (a b : Number) : Number :=
  if b.lt a then b else a

/-- The second number if it is strictly greater than the first, else the first. -/
def greatest (a b : Number) : Number :=
  if a.lt b then b else a

/-- The distance from zero. -/
def abs : Number → Number
  | .whole n => .whole n.natAbs
  | .real x => .real x.abs

/-- Applies an operation on doubles to two numbers that are not both whole. -/
def onFloats? (f : Float → Float → Float) (a b : Number) : Option Number :=
  a.toFloat?.bind fun x => b.toFloat?.map fun y => .real (f x y)

/-- The difference; whole when both are. -/
def sub? : Number → Number → Option Number
  | .whole a, .whole b => some (.whole (a - b))
  | a, b => onFloats? (· - ·) a b

/-- The sum; whole when both are. -/
def add? : Number → Number → Option Number
  | .whole a, .whole b => some (.whole (a + b))
  | a, b => onFloats? (· + ·) a b

/-- The product with a double. -/
def scale? (a : Number) (y : Float) : Option Number :=
  onFloats? (· * ·) a (.real y)

/-- The quotient, a double; the divisor is not zero. -/
def div? : Number → Number → Option Number
  | .whole a, .whole b => (Decimal.ofQuotient? a b).map .real
  | a, b => onFloats? (· / ·) a b

/-- Whether the number is zero. -/
def isZero (a : Number) : Bool :=
  a.eqv (.whole 0)

/-- A figure with two places. -/
def figure? (a : Number) : Option String :=
  a.toFloat?.map (Decimal.fixed 2)

/-- The text of a number as it stands in a message. -/
def text : Number → String
  | .whole n => toString n
  | .real x => Decimal.plain.write x

end Number

end BuildingAlerts
