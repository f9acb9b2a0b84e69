/-
Filters on readings.

A filter looks at one field of a reading, one of its own or one of its attributes. Numbers
and truth values are equal when they are equal in value; as texts they compare the way they
are shown in a message.
-/
import BuildingAlerts.Fault
import BuildingAlerts.Json.Basic
import BuildingAlerts.Metric.Reading
import BuildingAlerts.Time.Written
import BuildingAlerts.Decimal.Numeral

set_option autoImplicit false

namespace BuildingAlerts

/-- The value of a field of a reading. -/
inductive FieldValue where
  | plain (v : Json)
  | moment (m : Moment)

namespace FieldValue

/-- Equality with a value of a document. A moment equals none. -/
def equals : FieldValue → Json → Bool
  | .plain v, w => v.equals w
  | .moment _, _ => false

/-- The value as it is shown in a message. -/
def spoken : FieldValue → String
  | .plain v => v.spoken
  | .moment m => m.write " "

/-- A value as a double. Values that are no numbers have none; a whole number past the
largest double is a fault. -/
def measure : FieldValue → Except Fault (Option Float)
  | .plain (.text s) => .ok (Decimal.realOfText? s)
  | .plain v => match v.asNumber? with
    | some n => (orFault .outOfBounds n.toFloat?).map some
    | none => .ok none
  | .moment _ => .ok none

end FieldValue

/-- The value of a field; an attribute never hides a field of the reading itself. -/
def Reading.field (r : Reading) (name : String) : FieldValue :=
  match name with
  | "sensor_id" => .plain (.text r.sensorId)
  | "timestamp" => .moment r.timestamp
  | "value" => .plain (.real r.value)
  | "unit" => .plain (.text r.unit)
  | "quality" => .plain (.text r.quality)
  | "metric_type" => .plain (.text? (r.metricType.map code))
  | _ => .plain ((r.attributes.lookup name).getD .null)

/-- A test of one field. -/
structure ReadingFilter where
  field : String
  value : Json
  operator : String

/-- Compares two fields as doubles; values that are no numbers fail. -/
def compareMeasures (test : Float → Float → Bool) (a b : FieldValue) : Except Fault Bool := do
  match ← a.measure with
  | none => return false
  | some x =>
    match ← b.measure with
    | none => return false
    | some y => return test x y

/-- Whether a reading passes a filter. An operator that is not known lets everything pass. -/
def ReadingFilter.passes (f : ReadingFilter) (r : Reading) : Except Fault Bool :=
  let actual := r.field f.field
  match f.operator with
  | "equals" => .ok (actual.equals f.value)
  | "not_equals" => .ok (!actual.equals f.value)
  | "contains" =>
    .ok (holdsText (Text.lower f.value.spoken) (Text.lower actual.spoken))
  | "greater_than" => compareMeasures (fun x y => y < x) actual (.plain f.value)
  | "less_than" => compareMeasures (fun x y => x < y) actual (.plain f.value)
  | _ => .ok true

end BuildingAlerts
