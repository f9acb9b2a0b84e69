/-
Thresholds.

A threshold has one of three shapes, and each operator takes one of them: two ends for a
band, a share of change with the period that it is measured against, and one value for all
other operators.
-/
import BuildingAlerts.Fault

set_option autoImplicit false

namespace BuildingAlerts

/-- The shapes of thresholds. -/
inductive ThresholdShape where
  | scalar | range | percentChange
deriving DecidableEq

/-- The name of a shape in a message. -/
def ThresholdShape.title : ThresholdShape → String
  | .scalar => "ScalarThreshold"
  | .range => "RangeThreshold"
  | .percentChange => "PercentageChangeThreshold"

/-- What a value is compared with. -/
inductive Threshold where
  | scalar (value : Number)
  | range (low high : Number)
  | percentChange (percent : Number) (baselinePeriod : String)

namespace Threshold

/-- The period that a change is measured against when none is given. -/
def standardPeriod : String := "7d"

/-- The shape of a threshold. -/
def shape : Threshold → ThresholdShape
  | .scalar _ => .scalar
  | .range _ _ => .range
  | .percentChange _ _ => .percentChange

/-- The value by which a threshold is known: its lower end, its share or its value. -/
def value : Threshold → Number
  | .scalar v => v
  | .range low _ => low
  | .percentChange percent _ => percent

/-- The upper end of a band. -/
def secondary? : Threshold → Option Number
  | .range _ high => some high
  | _ => none

end Threshold

/-- The shape that an operator takes. -/
def Comparison.shape : Comparison → ThresholdShape
  | .between | .outsideRange => .range
  | .percentageChange => .percentChange
  | _ => .scalar

/-- Values closer than this count as equal. -/
def equalityTolerance : Float := 0.001

/-- Whether two numbers are closer than the tolerance. -/
def isNear (a b : Number) : Except Fault Bool := do
  let d ← orFault .outOfBounds (a.sub? b)
  return d.abs.lt (.real equalityTolerance)

/-- Whether two numbers are at least the tolerance apart. -/
def isApart (a b : Number) : Except Fault Bool := do
  let d ← orFault .outOfBounds (a.sub? b)
  return Number.le (.real equalityTolerance) d.abs

/-- Whether a value lies in a band, ends included. -/
def isWithin (t : Threshold) (actual : Number) : Except Fault Bool :=
  match t with
  | .range low high => .ok (low.le actual && actual.le high)
  | _ => .error .noPart

/-- Compares a value with a threshold. A change against a baseline is not decided here. -/
def Comparison.holds (op : Comparison) (actual : Number) (t : Threshold) : Except Fault Bool :=
  match op with
  | .greaterThan => .ok (t.value.lt actual)
  | .lessThan => .ok (actual.lt t.value)
  | .greaterThanOrEqual => .ok (t.value.le actual)
  | .lessThanOrEqual => .ok (actual.le t.value)
  | .equals => isNear actual t.value
  | .notEquals => isApart actual t.value
  | .between => isWithin t actual
  | .outsideRange => (isWithin t actual).map (!·)
  | .rateOfChange => .ok (t.value.lt actual.abs)
  | .percentageChange => .error (.notDirect op)

/-- Whether a value differs from a baseline by more than a share of the baseline. Nothing
differs from a baseline of zero. -/
def changesBeyond (actual baseline percent : Number) : Except Fault Bool :=
  if baseline.isZero then .ok false
  else orFault .outOfBounds do
    let difference ← actual.sub? baseline
    let share ← difference.div? baseline
    let change ← share.abs.scale? 100.0
    return percent.lt change

end BuildingAlerts
