/-
Readings, the metrics that select them, and snapshots.

A metric names a sensor, or failing that a kind of measurement. A reading that does not say
what it measures belongs to a kind if its sensor or its unit has one of the kind's keywords
in its name. A pass looks at one snapshot and at nothing else: the readings, the history behind
them, and what may have contributed to what they show.
-/
import BuildingAlerts.Json.Basic
import BuildingAlerts.Metric.Summation
import BuildingAlerts.Text.LetterCase
import BuildingAlerts.Time.Moment
import BuildingAlerts.Vocabulary

set_option autoImplicit false

namespace BuildingAlerts

/-! ## Readings and metrics -/

/-- One measurement of a sensor. -/
structure Reading where
  sensorId : String
  timestamp : Moment
  value : Float
  unit : String
  quality : String
  metricType : Option MetricType
  attributes : List (String × Json)

/-- What a condition measures. -/
structure Metric where
  type : MetricType
  sensorId : Option String
  units : String
  displayName : String

namespace MetricType

/-- The words that mark a sensor or a unit as one of a kind of measurement. -/
def keywords : MetricType → List String
  | .energyConsumption => ["energy", "power", "kwh"]
  | .powerDemand => ["power", "kw"]
  | .temperature => ["temperature", "temp"]
  | .humidity => ["humidity", "rh"]
  | .pressure => ["pressure", "pa"]
  | .airQuality => ["co2", "pm25", "voc"]
  | .occupancy => ["occupancy", "people"]
  | _ => []

end MetricType

/-- Whether `part` stands somewhere in a text. -/
def holdsChars (part : List Char) : List Char → Bool
  | [] => part.isEmpty
  | c :: cs => part.isPrefixOf (c :: cs) || holdsChars part cs

/-- Whether one text stands somewhere in another. -/
def holdsText (part whole : String) : Bool :=
  holdsChars part.toList whole.toList

namespace Metric

/-- The sensor that a metric is bound to; an empty name binds it to none. -/
def boundSensor? (m : Metric) : Option String :=
  m.sensorId.filter (!·.isEmpty)

/-- Whether a reading belongs to a metric. -/
def selects (m : Metric) (r : Reading) : Bool :=
  match m.boundSensor? with
  | some sensor => r.sensorId == sensor
  | none =>
    match r.metricType with
    | some t => t == m.type
    | none =>
      let sensor := Text.lower r.sensorId
      let unit := Text.lower r.unit
      m.type.keywords.any fun k => holdsText k sensor || holdsText k unit

/-- The members of a metric. -/
def toJson (m : Metric) : Json :=
  .object [("type", .text (code m.type)), ("sensor_id", .text? m.sensorId),
    ("units", .text m.units), ("display_name", .text m.displayName)]

end Metric

/-! ## Snapshots -/

/-- The weather outside. -/
structure Weather where
  temperature : Option Float
  humidity : Option Float
  conditions : String

/-- The people in the building. -/
structure Occupancy where
  current : Int
  capacity : Int

/-- A recent change to a building system. -/
structure SystemChange where
  timestamp : Moment
  component : String
  description : String

/-- The state of the building at a moment. -/
structure Snapshot where
  now : Moment
  readings : List Reading
  history : List Reading
  systemStatus : List (String × Json)
  weather : Option Weather
  occupancy : Option Occupancy
  recentChanges : List SystemChange

namespace Snapshot

/-- Whether a moment lies between two others, both included. -/
def isBetween (since now m : Moment) : Bool :=
  since.instant ≤ m.instant && m.instant ≤ now.instant

/-- The mean of the history of a metric, if there is any. -/
def historicalMean? (s : Snapshot) (m : Metric) : Option Float :=
  match (s.history.filter m.selects).map (·.value) with
  | [] => none
  | xs => some (Summation.mean xs)

/-- The same readings, as if they were taken at a moment. -/
def refreshed (s : Snapshot) (m : Moment) : Snapshot :=
  { s with now := m, readings := s.readings.map fun r => { r with timestamp := m } }

end Snapshot

end BuildingAlerts
