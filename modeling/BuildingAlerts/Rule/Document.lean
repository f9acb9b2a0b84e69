/-
Rules, configurations, snapshots and counts as documents.
-/
import BuildingAlerts.Alert.Basic
import BuildingAlerts.Condition.Basic
import BuildingAlerts.Json.Access
import BuildingAlerts.Metric.Aggregation
import BuildingAlerts.Notification.Document
import BuildingAlerts.Rule.Pass

set_option autoImplicit false

namespace BuildingAlerts

/-- The members of a span of time. -/
def Span.toJson (s : Span) : Json :=
  .object [("days", .whole s.days), ("seconds", .whole s.seconds),
    ("microseconds", .whole s.microseconds)]

/-- The members of a reading. -/
def Reading.toJson (r : Reading) : Json :=
  .object [("sensor_id", .text r.sensorId), ("timestamp", .text r.timestamp.iso),
    ("value", .real r.value), ("unit", .text r.unit), ("quality", .text r.quality),
    ("metric_type", .text? (r.metricType.map code)), ("attributes", .object r.attributes)]

/-- The members of an aggregation. -/
def Aggregation.toJson (a : Aggregation) : Json :=
  .object [("function", .text (code a.reduction)), ("period", .whole a.period),
    ("minimum_data_points", .whole a.minimumDataPoints)]

/-- The members of a snapshot. -/
def Snapshot.toJson (s : Snapshot) : Json :=
  .object [("current_time", .text s.now.iso),
    ("sensor_readings", .list (s.readings.map (·.toJson))),
    ("historical_data", .list (s.history.map (·.toJson))),
    ("system_status", .object s.systemStatus), ("weather", .orNull (·.toJson) s.weather),
    ("occupancy", .orNull (·.toJson) s.occupancy),
    ("recent_changes", .list (s.recentChanges.map (·.toJson)))]

/-- The members of a threshold. -/
def Threshold.toJson : Threshold → Json
  | .scalar v => .object [("value", .number v)]
  | .range low high => .object [("low", .number low), ("high", .number high)]
  | .percentChange p b => .object [("percent", .number p), ("baseline_period", .text b)]

/-- The members of a filter. -/
def ReadingFilter.toJson (f : ReadingFilter) : Json :=
  .object [("field", .text f.field), ("value", f.value), ("operator", .text f.operator)]

/-- The members of a condition. -/
def Condition.toJson (c : Condition) : Json :=
  .object [("id", .text c.id), ("metric", c.metric.toJson), ("operator", .text (code c.operator)),
    ("threshold", c.threshold.toJson), ("time_aggregation", c.aggregation.toJson),
    ("filters", .list (c.filters.map (·.toJson)))]

/-- The members of a result. -/
def ConditionResult.toJson (r : ConditionResult) : Json :=
  .object [("condition_id", .text r.conditionId), ("met", .bool r.met),
    ("actual_value", .number r.actual), ("threshold_value", .number r.threshold),
    ("deviation", .number r.deviation), ("evaluation_method", .text r.method)]

/-- The members of a rule. -/
def Rule.toJson (r : Rule) : Json :=
  .object [("id", .text r.id), ("name", .text r.name),
    ("conditions", .list (r.conditions.map (·.toJson))), ("priority", .text (code r.priority)),
    ("logical_operator", .text (code r.connective)), ("evaluation_window", .whole r.window),
    ("cooldown_period", .whole r.cooldown), ("suppress_duplicates", .bool r.suppressDuplicates),
    ("enabled", .bool r.enabled), ("description", .text r.description), ("tags", .texts r.tags)]

/-- The members of what a configuration is about. -/
def Metadata.toJson (m : Metadata) : Json :=
  .object [("category", .text (code m.category)), ("impact_level", .text (code m.impact)),
    ("affected_systems", .texts m.systems), ("affected_locations", .texts m.locations),
    ("runbook_url", .text? m.runbook), ("tags", .texts m.tags)]

/-- The members of a configuration. -/
def Configuration.toJson (c : Configuration) : Json :=
  .object [("id", .text c.id), ("name", .text c.name), ("rules", .list (c.rules.map (·.toJson))),
    ("notification_settings", c.routing.toJson),
    ("escalation_policy", .orNull (·.toJson) c.policy), ("metadata", c.metadata.toJson),
    ("status", .text (code c.status)), ("description", .text c.description),
    ("user_id", .text c.userId), ("organization_id", .text c.organizationId),
    ("created_at", .text c.createdAt.iso), ("updated_at", .text c.updatedAt.iso)]

/-- Counts by name. -/
def countsJson (t : Table Nat) : Json :=
  .object (t.entries.map fun (k, n) => (k, .whole n))

/-- The members of the counts of a store. -/
def StoreStats.members (s : StoreStats) : List (String × Json) :=
  [("total_alerts", .whole s.total), ("open_alerts", .whole s.openCount),
    ("alerts_by_status", countsJson s.byStatus), ("alerts_by_severity", countsJson s.bySeverity)]

end BuildingAlerts
