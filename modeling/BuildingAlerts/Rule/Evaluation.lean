/-
Evaluation of rules.

A rule whose conditions trigger it opens an alert, unless an open one of the same rule within
the cooldown already stands for it. The hour, the day, the weather and the people in the
building may all have contributed; the history of a metric says where its value is going.
-/
import BuildingAlerts.Alert.Basic
import BuildingAlerts.Alert.Store
import BuildingAlerts.Condition.Evaluation
import BuildingAlerts.Rule.Judgement

set_option autoImplicit false

namespace BuildingAlerts

/-! ## What was going on -/

namespace Occupancy

/-- The share of the capacity that is taken, zero for a building without capacity. -/
def ratio (o : Occupancy) : Except Fault Float :=
  if 0 < o.capacity then orFault .outOfBounds (Decimal.ofQuotient? o.current o.capacity)
  else .ok 0.0

end Occupancy

namespace Snapshot

/-- Where the hour of a moment belongs. -/
def hourFactor (hour : Nat) : List String :=
  if 9 ≤ hour && hour ≤ 17 then ["Business hours"]
  else if 18 ≤ hour || hour ≤ 6 then ["After hours"]
  else []

/-- Where a day of the week belongs. -/
def dayFactor (weekday : Nat) : String :=
  if weekday == 0 || weekday == 6 then "Weekend" else "Weekday"

/-- Heat above 30 degrees and cold below 5. -/
def weatherFactor (w : Option Weather) : List String :=
  match w.bind (·.temperature) with
  | some t =>
    if t > 30.0 then ["High outside temperature"]
    else if t < 5.0 then ["Low outside temperature"]
    else []
  | none => []

/-- A building that is at least four fifths full. -/
def occupancyFactor : Option Occupancy → Except Fault (List String)
  | some o => do
    if o.capacity ≤ 0 then return []
    let share ← o.ratio
    return if share >= 0.8 then ["High occupancy"] else []
  | none => .ok []

/-- What may have contributed to what the snapshot shows. -/
def factors (s : Snapshot) : Except Fault (List String) := do
  let crowd ← occupancyFactor s.occupancy
  return hourFactor s.now.hour ++ dayFactor s.now.weekday :: weatherFactor s.weather ++ crowd

end Snapshot

/-- How far a value may lie from its average and still count as stable. -/
def trendTolerance : Float := 0.05

/-- Where a value stands against its average. Without an average it is stable. -/
def Trend.of (current : Number) : Option Number → Except Fault Trend
  | none => .ok .stable
  | some average => orFault .outOfBounds do
    let band ← average.abs.scale? trendTolerance
    let high ← average.add? band
    let low ← average.sub? band
    return if high.lt current then .rising else if current.lt low then .falling else .stable

/-! ## Evaluation -/

/-- A text, or another if it is empty. -/
def orElseText (s other : String) : String :=
  if s.isEmpty then other else s

/-- A sensor as it stands beside an alert. -/
def summarize (s : Snapshot) (v : MetricValue) : Except Fault SensorSummary := do
  let kind := code v.metric.type
  let average := s.historicalMean? v.metric
  let trend ← Trend.of v.value (average.map .real)
  return ⟨orElseText (v.metric.sensorId.getD "") kind, orElseText v.metric.displayName kind,
    v.value, average, trend⟩

namespace Rule

/-- The results of the conditions of a rule. -/
def results (r : Rule) (s : Snapshot) : Except Fault (List ConditionResult) :=
  r.conditions.mapM (·.evaluate s)

/-- What a condition saw. -/
def valueOf (s : Snapshot) (factors : List String) (c : Condition) (r : ConditionResult) :
    MetricValue :=
  ⟨c.metric, r.actual, r.threshold, s.now, toString c.aggregation.period ++ " minutes", factors⟩

/-- What was going on around an alert of a rule. -/
def surroundings (r : Rule) (c : Configuration) (s : Snapshot) (values : List MetricValue)
    (store : Store) : Except Fault Surroundings := do
  let sensors ← values.mapM (summarize s)
  let span ← orFault .outOfBounds (Span.ofMinutes? r.window)
  let since ← orFault .outOfBounds (s.now.minus? span)
  let changes := s.recentChanges.filter fun ch => Snapshot.isBetween since s.now ch.timestamp
  return ⟨sensors, changes, (store.openAlerts (some c.id)).map (·.id), s.weather, s.occupancy⟩

/-- The alert of a rule that triggered. -/
def alert (r : Rule) (c : Configuration) (s : Snapshot) (results : List ConditionResult)
    (store : Store) : Drafting Alert := do
  let factors ← s.factors
  let values := List.zipWith (valueOf s factors) r.conditions results
  let surroundings ← r.surroundings c s values store
  let description ← describe r.name r.description results
  let confidence ← Confidence.of results
  let actions ← Advice.of results (!surroundings.changes.isEmpty)
  let id ← Drafting.draw .alert
  return {
    id := id, configurationId := c.id, ruleId := r.id, severity := some r.priority,
    title := r.name ++ " - " ++ c.name, description := description, values := values,
    triggeredAt := s.now, status := .triggered, confidence := .real confidence,
    escalationLevel := 0, escalatedAt := none, acknowledgedAt := none, acknowledgedBy := none,
    resolvedAt := none, resolvedBy := none, notes := "", isFalsePositive := false,
    notifications := [], surroundings := surroundings, actions := actions }

/-- Evaluates a rule: the identifier of the alert that stands for its triggering, if it
triggers, and the store afterwards. -/
def evaluate (r : Rule) (c : Configuration) (s : Snapshot) (store : Store) :
    Drafting (Option String × Store) := do
  let results ← r.results s
  if r.connective.holds results then
    let (a, _, store) ← store.openOrAdd c.id r.id s.now r.cooldown r.suppressDuplicates
      (r.alert c s results)
    return (some a.id, store)
  else
    return (none, store)

end Rule

end BuildingAlerts
