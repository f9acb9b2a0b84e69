/-
Alerts.

An alert is a rule that triggered: what was measured, what was going on, and what has become
of the alert since. It is open until somebody resolves it or it is closed in another way. An
alert is shown as a document.
-/
import BuildingAlerts.Metric.Reading
import BuildingAlerts.Notification.Log

set_option autoImplicit false

namespace BuildingAlerts

/-! ## Alerts -/

/-- What a condition saw when the alert triggered. -/
structure MetricValue where
  metric : Metric
  value : Number
  threshold : Number
  timestamp : Moment
  window : String
  factors : List String

/-- Where a value stands against its history. -/
inductive Trend where
  | rising | falling | stable
deriving DecidableEq

instance : Coded Trend where
  words := [.rising, .falling, .stable]
  code
    | .rising => "increasing"
    | .falling => "decreasing"
    | .stable => "stable"
  title := "Trend"

/-- A sensor at the time of an alert. -/
structure SensorSummary where
  sensorId : String
  name : String
  current : Number
  average : Option Float
  trend : Trend

/-- What was going on when an alert triggered. It has no part in the triggering. -/
structure Surroundings where
  sensors : List SensorSummary
  changes : List SystemChange
  related : List String
  weather : Option Weather
  occupancy : Option Occupancy

/-- Nothing is known. -/
def Surroundings.none : Surroundings := ⟨[], [], [], .none, .none⟩

/-- A rule that triggered. -/
structure Alert where
  id : String
  configurationId : String
  ruleId : String
  severity : Option Priority
  title : String
  description : String
  values : List MetricValue
  triggeredAt : Moment
  status : AlertStatus
  confidence : Number
  escalationLevel : Int
  escalatedAt : Option Moment
  acknowledgedAt : Option Moment
  acknowledgedBy : Option String
  resolvedAt : Option Moment
  resolvedBy : Option String
  notes : String
  isFalsePositive : Bool
  /-- The identifiers of the log entries, in the order in which they were taken down. -/
  notifications : List String
  surroundings : Surroundings
  actions : List String

namespace AlertStatus

/-- Whether an alert of this status still waits for an end. -/
def isOpen : AlertStatus → Bool
  | .triggered | .acknowledged | .investigating => true
  | _ => false

end AlertStatus

namespace Alert

/-- Whether the alert still waits for an end. -/
def isOpen (a : Alert) : Bool :=
  a.status.isOpen

/-- Whether somebody has taken notice. -/
def isAcknowledged (a : Alert) : Bool :=
  a.acknowledgedAt.isSome

/-- The alert after somebody took notice; only of one that is just triggered. -/
def acknowledge? (a : Alert) (who : String) (now : Moment) : Option Alert :=
  if a.status = .triggered then
    some { a with
      status := .acknowledged, acknowledgedAt := some now, acknowledgedBy := some who }
  else none

/-- The alert after it was resolved; only of an open one. -/
def resolve? (a : Alert) (who notes : String) (now : Moment) : Option Alert :=
  if a.isOpen then
    some { a with
      status := .resolved, resolvedAt := some now, resolvedBy := some who, notes := notes }
  else none

/-- The alert after it was found to be a false one. -/
def markFalsePositive (a : Alert) (who : String) (now : Moment) : Alert :=
  { a with
    isFalsePositive := true, status := .falsePositive, resolvedAt := some now,
    resolvedBy := some who }

/-- The later of two moments, the first if they are equal. -/
def later (a b : Moment) : Except Fault Moment := do
  if ← orFault .unfit (a.lt? b) then return b else return a

/-- When a notification of the alert was last attempted. -/
def lastNotified (entries : List LogEntry) : Except Fault (Option Moment) :=
  match entries.map (·.sentAt) with
  | [] => .ok none
  | m :: ms => (ms.foldlM later m).map some

end Alert

/-! ## Documents -/

/-- The members of a measured value. -/
def MetricValue.toJson (v : MetricValue) : Json :=
  .object [("metric", v.metric.toJson), ("value", .number v.value),
    ("threshold", .number v.threshold), ("timestamp", .text v.timestamp.iso),
    ("evaluation_window", .text v.window), ("contributing_factors", .texts v.factors)]

/-- A double, or null when there is none. -/
def Json.real? : Option Float → Json
  | some x => .real x
  | none => .null

/-- The members of a sensor. -/
def SensorSummary.toJson (s : SensorSummary) : Json :=
  .object [("sensor_id", .text s.sensorId), ("sensor_name", .text s.name),
    ("current_value", .number s.current), ("historical_average", .real? s.average),
    ("trend", .text (code s.trend))]

/-- The members of a system change. -/
def SystemChange.toJson (c : SystemChange) : Json :=
  .object [("timestamp", .text c.timestamp.iso), ("component", .text c.component),
    ("description", .text c.description)]

/-- The members of the weather. -/
def Weather.toJson (w : Weather) : Json :=
  .object [("temperature", .real? w.temperature), ("humidity", .real? w.humidity),
    ("conditions", .text w.conditions)]

/-- The members of an occupancy. -/
def Occupancy.toJson (o : Occupancy) : Json :=
  .object [("current", .whole o.current), ("capacity", .whole o.capacity)]

/-- The members of what was going on. -/
def Surroundings.toJson (s : Surroundings) : Json :=
  .object [("sensor_data", .list (s.sensors.map (·.toJson))),
    ("recent_changes", .list (s.changes.map (·.toJson))),
    ("related_alerts", .texts s.related),
    ("weather", (s.weather.map (·.toJson)).getD .null),
    ("occupancy", (s.occupancy.map (·.toJson)).getD .null)]

/-- The members of an alert with its log entries. An alert without a severity has no
document. -/
def Alert.toJson (a : Alert) (entries : List LogEntry) : Except Fault Json := do
  let severity ← orFault .noPart a.severity
  return .object [("id", .text a.id), ("configuration_id", .text a.configurationId),
    ("rule_id", .text a.ruleId), ("status", .text (code a.status)),
    ("severity", .text (code severity)), ("title", .text a.title),
    ("description", .text a.description),
    ("metric_values", .list (a.values.map (·.toJson))),
    ("triggered_at", .text a.triggeredAt.iso), ("confidence", .number a.confidence),
    ("escalation_level", .whole a.escalationLevel), ("escalated_at", .moment? a.escalatedAt),
    ("acknowledged_at", .moment? a.acknowledgedAt),
    ("acknowledged_by", .text? a.acknowledgedBy), ("resolved_at", .moment? a.resolvedAt),
    ("resolved_by", .text? a.resolvedBy), ("resolution_notes", .text a.notes),
    ("false_positive", .bool a.isFalsePositive),
    ("notification_log", .list (entries.map (·.toJson))),
    ("context", a.surroundings.toJson), ("suggested_actions", .texts a.actions)]

end BuildingAlerts
