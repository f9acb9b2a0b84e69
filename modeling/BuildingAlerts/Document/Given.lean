/-
Values given by hand.

Alerts, log entries and results do not always come out of an evaluation: they may be taken over
from somewhere else. What their documents leave out is as usual.
-/
import BuildingAlerts.Alert.Basic
import BuildingAlerts.Condition.Template
import BuildingAlerts.Document.Lenient

set_option autoImplicit false

namespace BuildingAlerts

/-- The threshold that a document gives; its members tell its shape. -/
def Threshold.given (v : Json) : Threshold :=
  if v.has "low" || v.has "high" then .range (v.numberAt "low") (v.numberAt "high")
  else if v.has "percent" then
    .percentChange (v.numberAt "percent") (v.textOr "baseline_period" standardPeriod)
  else .scalar (v.numberAt "value")

/-- The metric that a document gives. -/
def Metric.given (v : Json) : Except Fault Metric := do
  return ⟨← v.wordAt "type", (v.part "sensor_id").asText?, v.textAt "units",
    v.textAt "display_name"⟩

/-- The result that a document gives. -/
def ConditionResult.given (v : Json) : Except Fault ConditionResult := do
  let actual := v.numberAt "actual"
  let threshold := v.numberAt "threshold"
  let deviation ← match v.number? "deviation" with
    | some d => pure d
    | none => orFault .outOfBounds (actual.sub? threshold)
  return ⟨v.textOr "condition_id" "c1", v.flagOr "met" false, actual, threshold, deviation,
    v.textOr "method" (code Comparison.greaterThan)⟩

/-- The parts of a condition that a document gives beside its operator and thresholds. -/
def ConditionParts.given (v : Json) (metricType : MetricType) (op : Comparison)
    (threshold : Number) (secondary : Option Number) : Except Fault ConditionParts := do
  return {
    metricType := metricType, operator := op, threshold := threshold, secondary := secondary,
    reduction := ← v.wordOr "aggregation" .latest, period := v.wholeOr "period" 5,
    minimumDataPoints := v.wholeOr "minimum_data_points" 1,
    sensorId := (v.part "sensor_id").asText?,
    baselinePeriod := v.textOr "baseline_period" Threshold.standardPeriod,
    units := v.textAt "units", displayName := v.textAt "display_name" }

/-- The log entry that a document gives. It cannot be tried again. -/
def LogEntry.given (v : Json) : Drafting LogEntry := do
  let id ← Drafting.draw .notification
  let channel ← v.wordOr "channel" .email
  let sentAt ← v.momentAt "sent_at"
  let status ← v.wordOr "status" .sent
  return {
    id := id, alertId := v.textAt "alert_id", channel := channel,
    address := v.textAt "recipient", sentAt := sentAt, deliveredAt := none, status := status,
    error := (v.part "error_message").asText?, retries := v.wholeOr "retry_count" 0,
    messageId := .null, escalationLevel := 0, request := none }

/-- The measured value that a document gives. -/
def MetricValue.given (v : Json) : Except Fault MetricValue := do
  return ⟨← Metric.given (v.part "metric"), v.numberAt "value", v.numberAt "threshold",
    ← v.momentAt "timestamp", v.textOr "evaluation_window" "5 minutes",
    v.textsAt "contributing_factors"⟩

/-- The severity that a document gives; null is none at all. -/
def severityGiven (v : Json) : Except Fault (Option Priority) :=
  if v.has "severity" then v.wordAt? "severity" else .ok (some .high)

/-- The alert that a document gives, with its log entries. It triggered now if the document does
not say when. -/
def Alert.given (v : Json) (now : Moment) : Drafting (Alert × List LogEntry) := do
  let severity ← severityGiven v
  let values ← (v.listAt "metric_values").mapM fun w => (MetricValue.given w : Except Fault _)
  let triggeredAt ← v.momentAt? "triggered_at"
  let acknowledgedAt ← v.momentAt? "acknowledged_at"
  let escalatedAt ← v.momentAt? "escalated_at"
  let status ← v.wordOr "status" .triggered
  let entries ← (v.listAt "notification_log").mapM LogEntry.given
  let id ← match (v.part "id").asText? with
    | some s => pure s
    | none => Drafting.draw .alert
  return ({
    id := id, configurationId := v.textOr "configuration_id" "cfg_1",
    ruleId := v.textOr "rule_id" "rule_1", severity := severity, title := v.textOr "title" "T",
    description := v.textAt "description", values := values,
    triggeredAt := triggeredAt.getD now, status := status, confidence := v.numberAt "confidence",
    escalationLevel := v.wholeOr "escalation_level" 0, escalatedAt := escalatedAt,
    acknowledgedAt := acknowledgedAt, acknowledgedBy := (v.part "acknowledged_by").asText?,
    resolvedAt := none, resolvedBy := none, notes := "", isFalsePositive := false,
    notifications := entries.map (·.id), surroundings := .none,
    actions := v.textsAt "suggested_actions" }, entries)

/-- The journal with some more entries. -/
def Journal.addAll (j : Journal) (entries : List LogEntry) : Journal :=
  j.insertAll (entries.map fun e => (e.id, e))

end BuildingAlerts
