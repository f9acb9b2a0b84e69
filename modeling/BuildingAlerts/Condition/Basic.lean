/-
Conditions and what comes of them.

A condition's threshold always has the shape that its operator takes. What the evaluation of
a condition finds is a result: the value, the threshold and how far they are apart.
-/
import BuildingAlerts.Condition.Threshold
import BuildingAlerts.Condition.Filter
import BuildingAlerts.Metric.Aggregation

set_option autoImplicit false

namespace BuildingAlerts

/-- One test of a metric. -/
structure Condition where
  id : String
  metric : Metric
  operator : Comparison
  threshold : Threshold
  aggregation : Aggregation
  filters : List ReadingFilter
  /-- The threshold has the shape of the operator. -/
  fits : threshold.shape = operator.shape

namespace Condition

/-- A condition, refused when its threshold does not fit its operator. -/
def make (id : String) (metric : Metric) (operator : Comparison) (threshold : Threshold)
    (aggregation : Aggregation) (filters : List ReadingFilter) : Except Fault Condition :=
  if h : threshold.shape = operator.shape then
    .ok ⟨id, metric, operator, threshold, aggregation, filters, h⟩
  else
    .error (.thresholdShape operator operator.shape.title threshold.shape.title)

end Condition

/-- What the evaluation of a condition found. -/
structure ConditionResult where
  conditionId : String
  met : Bool
  actual : Number
  threshold : Number
  deviation : Number
  method : String

end BuildingAlerts
