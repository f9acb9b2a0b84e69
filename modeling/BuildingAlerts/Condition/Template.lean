/-
Ready-made conditions.

A condition can be built from its parts, the shape of its threshold following from the
operator, or from one of the templates for the usual troubles of a building.
-/
import BuildingAlerts.Condition.Basic
import BuildingAlerts.Ident

set_option autoImplicit false

namespace BuildingAlerts

/-- A condition with the usual details filled in. -/
structure AlertTemplate where
  key : String
  name : String
  description : String
  category : Category
  metricType : MetricType
  operator : Comparison
  threshold : Float
  secondary : Option Float
  reduction : Reduction
  period : Int
  units : String
  priority : Priority

namespace AlertTemplate

/-- All templates. -/
def all : List AlertTemplate := [
  { key := "hvac_energy_spike", name := "HVAC Energy Spike",
    description := "Total HVAC energy over the window exceeds a budget",
    category := .energyEfficiency, metricType := .energyConsumption, operator := .greaterThan,
    threshold := 1000.0, secondary := none, reduction := .sum, period := 5, units := "kWh",
    priority := .high },
  { key := "temperature_out_of_range", name := "Temperature Out Of Range",
    description := "Average zone temperature leaves the comfort band",
    category := .occupantComfort, metricType := .temperature, operator := .outsideRange,
    threshold := 18.0, secondary := some 26.0, reduction := .average, period := 15, units := "C",
    priority := .medium },
  { key := "high_humidity", name := "High Humidity",
    description := "Relative humidity stays above the mould-risk level",
    category := .maintenance, metricType := .humidity, operator := .greaterThan,
    threshold := 70.0, secondary := none, reduction := .average, period := 30, units := "%",
    priority := .medium },
  { key := "poor_air_quality", name := "Poor Air Quality",
    description := "CO2 concentration above the ventilation target",
    category := .safety, metricType := .airQuality, operator := .greaterThan,
    threshold := 1000.0, secondary := none, reduction := .average, period := 10, units := "ppm",
    priority := .high },
  { key := "energy_usage_jump", name := "Energy Usage Jump",
    description := "Energy use rises sharply against the weekly baseline",
    category := .costOptimization, metricType := .energyConsumption,
    operator := .percentageChange, threshold := 25.0, secondary := none, reduction := .average,
    period := 60, units := "kWh", priority := .low }]

/-- The template of a key. -/
def find (key : String) : Except Fault AlertTemplate :=
  orFault (.unknownTemplate key) (all.find? (·.key == key))

end AlertTemplate

/-- The parts of a condition on one metric. -/
structure ConditionParts where
  metricType : MetricType
  operator : Comparison
  threshold : Number
  secondary : Option Number := none
  reduction : Reduction := .latest
  period : Int := 5
  minimumDataPoints : Int := 1
  sensorId : Option String := none
  baselinePeriod : String := Threshold.standardPeriod
  units : String := ""
  displayName : String := ""

namespace ConditionParts

/-- The threshold in the shape of the operator. -/
def shaped (p : ConditionParts) : Except Fault Threshold :=
  match p.operator.shape with
  | .range => (orFault (.rangeEnd p.operator) p.secondary).map (.range p.threshold)
  | .percentChange => .ok (.percentChange p.threshold p.baselinePeriod)
  | .scalar => .ok (.scalar p.threshold)

/-- The metric of the condition, shown under the code of its kind if it has no name. -/
def metric (p : ConditionParts) : Metric :=
  ⟨p.metricType, p.sensorId, p.units,
    if p.displayName.isEmpty then code p.metricType else p.displayName⟩

/-- The condition, with a new identifier. -/
def build (p : ConditionParts) : Drafting Condition := do
  let threshold ← p.shaped
  let id ← Drafting.draw .condition
  Condition.make id p.metric p.operator threshold
    ⟨p.reduction, p.period, p.minimumDataPoints⟩ []

end ConditionParts

/-- The condition of a template, for one sensor and with another threshold if those are
given. -/
def AlertTemplate.condition (t : AlertTemplate) (sensorId : Option String)
    (threshold : Option Number) : Drafting Condition :=
  ConditionParts.build {
    metricType := t.metricType, operator := t.operator,
    threshold := threshold.getD (.real t.threshold), secondary := t.secondary.map .real,
    reduction := t.reduction, period := t.period, sensorId := sensorId, units := t.units,
    displayName := t.name }

end BuildingAlerts
