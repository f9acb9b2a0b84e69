/-
Documents of snapshots, and of configurations with their rules and conditions.

What lacks an identifier is given a new one: the conditions of a rule before the rule, the
rules of a configuration before the configuration.
-/
import BuildingAlerts.Document.Notification
import BuildingAlerts.Document.Schema
import BuildingAlerts.Metric.Aggregation
import BuildingAlerts.Metric.Reading
import BuildingAlerts.Rule.Basic

set_option autoImplicit false

namespace BuildingAlerts

open Fields Schema

/-! ## Metrics, readings and snapshots -/

/-- A metric. -/
def Metric.schema : Schema Metric :=
  object (Metric.mk
    <$> required "type" word
    <*> withDefault "sensor_id" none (optional text)
    <*> withDefault "units" "" text
    <*> withDefault "display_name" "" text)

/-- An aggregation. -/
def Aggregation.schema : Schema Aggregation :=
  object (Aggregation.mk
    <$> withDefault "function" .latest word
    <*> withDefault "period" 5 whole
    <*> withDefault "minimum_data_points" 1 whole)

/-- A reading. -/
def Reading.schema : Schema Reading :=
  object (Reading.mk
    <$> required "sensor_id" text
    <*> required "timestamp" moment
    <*> required "value" real
    <*> withDefault "unit" "" text
    <*> withDefault "quality" "good" text
    <*> withDefault "metric_type" none (optional word)
    <*> withDefault "attributes" [] members)

/-- The weather. -/
def Weather.schema : Schema Weather :=
  object (Weather.mk
    <$> withDefault "temperature" none (optional real)
    <*> withDefault "humidity" none (optional real)
    <*> withDefault "conditions" "" text)

/-- The people in the building. -/
def Occupancy.schema : Schema Occupancy :=
  object (Occupancy.mk
    <$> withDefault "current" 0 whole
    <*> withDefault "capacity" 0 whole)

/-- A change to a system. -/
def SystemChange.schema : Schema SystemChange :=
  object (SystemChange.mk
    <$> required "timestamp" moment
    <*> withDefault "component" "" text
    <*> withDefault "description" "" text)

/-- A snapshot. -/
def Snapshot.schema : Schema Snapshot :=
  object (Snapshot.mk
    <$> required "current_time" moment
    <*> withDefault "sensor_readings" [] (list Reading.schema)
    <*> withDefault "historical_data" [] (list Reading.schema)
    <*> withDefault "system_status" [] members
    <*> withDefault "weather" none (optional Weather.schema)
    <*> withDefault "occupancy" none (optional Occupancy.schema)
    <*> withDefault "recent_changes" [] (list SystemChange.schema))

/-! ## Configurations -/

/-- The threshold of a condition before its shape is known. -/
structure ThresholdParts where
  value : Float
  secondary : Option Float
  baselinePeriod : String

namespace ThresholdParts

/-- A threshold. -/
def schema : Schema ThresholdParts :=
  object (ThresholdParts.mk
    <$> required "value" real
    <*> withDefault "secondary_value" none (optional real)
    <*> withDefault "baseline_period" Threshold.standardPeriod text)

/-- The threshold in the shape of an operator. -/
def shaped (t : ThresholdParts) (op : Comparison) : Except Fault Threshold :=
  match op.shape with
  | .range => (orFault (.documentRangeEnd op) t.secondary).map fun high =>
      .range (.real t.value) (.real high)
  | .percentChange => .ok (.percentChange (.real t.value) t.baselinePeriod)
  | .scalar => .ok (.scalar (.real t.value))

end ThresholdParts

/-- A filter. -/
def ReadingFilter.schema : Schema ReadingFilter :=
  object (ReadingFilter.mk
    <$> required "field" text
    <*> withDefault "value" .null any
    <*> withDefault "operator" "equals" text)

/-- The condition that a document describes. -/
def Condition.draft (id : Option String) (metric : Metric) (op : Comparison)
    (threshold : ThresholdParts) (aggregation : Aggregation) (filters : List ReadingFilter) :
    Drafting Condition := do
  let threshold ← threshold.shaped op
  let id ← Drafting.identOr .condition id
  Condition.make id metric op threshold aggregation filters

/-- A condition. -/
def Condition.schema : Schema (Drafting Condition) :=
  object (Condition.draft
    <$> withDefault "id" none (optional text)
    <*> required "metric" Metric.schema
    <*> required "operator" word
    <*> required "threshold" ThresholdParts.schema
    <*> withDefault "time_aggregation" .standard Aggregation.schema
    <*> withDefault "filters" [] (list ReadingFilter.schema))

/-- The rule that a document describes. -/
def Rule.draft (id : Option String) (name description : String) (enabled : Bool)
    (priority : Priority) (conditions : List (Drafting Condition)) (connective : Connective)
    (window cooldown : Int) (suppressDuplicates : Bool) (tags : List String) :
    Drafting Rule := do
  let conditions ← conditions.mapM fun c => c
  let id ← Drafting.identOr .rule id
  return ⟨id, name, conditions, priority, connective, window, cooldown, suppressDuplicates,
    enabled, description, tags⟩

/-- A rule. -/
def Rule.schema : Schema (Drafting Rule) :=
  object (Rule.draft
    <$> withDefault "id" none (optional text)
    <*> required "name" text
    <*> withDefault "description" "" text
    <*> withDefault "enabled" true flag
    <*> withDefault "priority" .medium word
    <*> withDefault "conditions" [] (list Condition.schema)
    <*> withDefault "logical_operator" .all word
    <*> withDefault "evaluation_window" 5 whole
    <*> withDefault "cooldown_period" 30 whole
    <*> withDefault "suppress_duplicates" true flag
    <*> withDefault "tags" [] (list text))

/-- What a configuration is about. -/
def Metadata.schema : Schema Metadata :=
  object (Metadata.mk
    <$> withDefault "category" Metadata.standard.category word
    <*> withDefault "impact_level" Metadata.standard.impact word
    <*> withDefault "affected_systems" [] (list text)
    <*> withDefault "affected_locations" [] (list text)
    <*> withDefault "runbook_url" none (optional text)
    <*> withDefault "tags" [] (list text))

/-- The configuration that a document describes, created now. -/
def Configuration.draft (now : Moment) (id : Option String) (name description : String)
    (status : ConfigurationStatus) (userId organizationId : String)
    (rules : List (Drafting Rule)) (routing : Routing) (policy : Option (Drafting Policy))
    (metadata : Metadata) : Drafting Configuration := do
  let rules ← rules.mapM fun r => r
  let policy ← policy.mapM fun p => p
  let id ← Drafting.identOr .configuration id
  return ⟨id, name, rules, routing, policy, metadata, status, description, userId,
    organizationId, now, now⟩

/-- A configuration. -/
def Configuration.schema (now : Moment) : Schema (Drafting Configuration) :=
  object (Configuration.draft now
    <$> withDefault "id" none (optional text)
    <*> withDefault "name" "" text
    <*> withDefault "description" "" text
    <*> withDefault "status" .active word
    <*> withDefault "user_id" "" text
    <*> withDefault "organization_id" "" text
    <*> withDefault "rules" [] (list Rule.schema)
    <*> withDefault "notification_settings" .standard Routing.schema
    <*> withDefault "escalation_policy" none (optional Policy.schema)
    <*> withDefault "metadata" .standard Metadata.schema)

namespace Configuration

/-- Takes in one document. -/
def load (now : Moment) (v : Json) (ids : IdSource) :
    Except Refusal Configuration × IdSource :=
  match (schema now).check v with
  | .error fs => (.error (.flaws fs), ids)
  | .ok d =>
    let (result, ids) := d.on ids
    (result.mapError .fault, ids)

/-- The values that stand one after the other in a value. -/
def parts : Json → Except Fault (List Json)
  | .list items => .ok items
  | .object ms => .ok (ms.map fun (k, _) => .text k)
  | .text s => .ok (s.toList.map fun c => .text (String.ofList [c]))
  | _ => .error .unfit

/-- The documents in a file: a list of them, an object that holds one under
`configurations`, or the object itself. -/
def documents : Json → Except Fault (List Json)
  | .object ms =>
    match ms.lookup "configurations" with
    | some v => parts v
    | none => .ok [.object ms]
  | v => parts v

/-- Takes in documents one after the other, up to the first that is refused. -/
def loadEach (now : Moment) : List Json → IdSource → Except Refusal (List Configuration) × IdSource
  | [], ids => (.ok [], ids)
  | v :: vs, ids =>
    match load now v ids with
    | (.error e, ids) => (.error e, ids)
    | (.ok c, ids) =>
      let (rest, ids) := loadEach now vs ids
      (rest.map (c :: ·), ids)

/-- Takes in all documents of a file. -/
def loadAll (now : Moment) (v : Json) (ids : IdSource) :
    Except Refusal (List Configuration) × IdSource :=
  match documents v with
  | .error f => (.error (.fault f), ids)
  | .ok vs => loadEach now vs ids

end Configuration

end BuildingAlerts
