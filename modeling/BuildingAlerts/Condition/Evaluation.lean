/-
Evaluation of a condition.

The readings of the metric inside the window pass through the filters and are put in order
of time; reduced to one value they are compared with the threshold. Too few readings never
meet a condition.
-/
import BuildingAlerts.Condition.Basic
import BuildingAlerts.Metric.Reading
import BuildingAlerts.Schedule

set_option autoImplicit false

namespace BuildingAlerts

/-- The mean of the history of a metric over a period before the snapshot; zero when there
is none. -/
def baseline (metric : Metric) (s : Snapshot) (written : String) : Except Fault Float := do
  let span ← period (if written.isEmpty then Threshold.standardPeriod else written)
  let since ← orFault .outOfBounds (s.now.minus? span)
  let rs := s.history.filter fun r =>
    metric.selects r && Snapshot.isBetween since s.now r.timestamp
  match rs.map (·.value) with
  | [] => return 0.0
  | xs => return Summation.mean xs

/-- The readings that pass a filter. -/
def filterReadings (f : ReadingFilter) (rs : List Reading) : Except Fault (List Reading) :=
  rs.filterM fun r => f.passes r

namespace Condition

/-- The readings of the metric in the window that pass all filters, in order of time. -/
def select (c : Condition) (s : Snapshot) : Except Fault (List Reading) := do
  let span ← orFault .outOfBounds (Span.ofMinutes? c.aggregation.period)
  let since ← orFault .outOfBounds (s.now.minus? span)
  let rs := s.readings.filter fun r =>
    c.metric.selects r && Snapshot.isBetween since s.now r.timestamp
  let rs ← c.filters.foldlM (fun rs f => filterReadings f rs) rs
  return rs.mergeSort fun a b => a.timestamp.instant ≤ b.timestamp.instant

/-- Whether a value meets the condition. -/
def compare (c : Condition) (actual : Float) (s : Snapshot) : Except Fault Bool :=
  match c.threshold with
  | .percentChange percent written => do
    let base ← baseline c.metric s written
    changesBeyond (.real actual) (.real base) percent
  | t => c.operator.holds (.real actual) t

/-- Evaluates a condition on a snapshot. -/
def evaluate (c : Condition) (s : Snapshot) : Except Fault ConditionResult := do
  let rs ← c.select s
  let limit := c.threshold.value
  if !c.aggregation.hasEnough rs then
    let deviation ← orFault .outOfBounds (Number.sub? (.real 0.0) limit)
    return ⟨c.id, false, .real 0.0, limit, deviation, "insufficient_data"⟩
  let actual := c.aggregation.reduce rs
  let met ← c.compare actual s
  let deviation ← orFault .outOfBounds (Number.sub? (.real actual) limit)
  return ⟨c.id, met, .real actual, limit, deviation, code c.operator⟩

end Condition

end BuildingAlerts
