/-
Changes of configurations.

A change names fields of a configuration and their new values. Everything that it does not
name stays as it is, and who a configuration belongs to cannot be changed at all.
-/
import BuildingAlerts.Ident
import BuildingAlerts.Condition.Template
import BuildingAlerts.Rule.Validation

set_option autoImplicit false

namespace BuildingAlerts

/-- New values for some fields of a configuration. -/
structure Change where
  name : Option String := none
  description : Option String := none
  rules : Option (List Rule) := none
  routing : Option Routing := none
  policy : Option (Option Policy) := none
  metadata : Option Metadata := none
  /-- The names of fields that cannot be changed. -/
  others : List String := []

namespace Change

/-- A configuration with a change made at a moment. -/
def apply (ch : Change) (c : Configuration) (now : Moment) : Configuration :=
  { c with
    name := ch.name.getD c.name
    description := ch.description.getD c.description
    rules := ch.rules.getD c.rules
    routing := ch.routing.getD c.routing
    policy := ch.policy.getD c.policy
    metadata := ch.metadata.getD c.metadata
    updatedAt := now }

end Change

/-- Why a configuration was not taken in. -/
inductive Rejection where
  /-- There is no configuration of this identifier. -/
  | unknown (id : String)
  /-- Fields that cannot be changed. -/
  | fields (names : List String)
  /-- What the check found. -/
  | invalid (v : Validation)
  /-- The check itself failed. -/
  | fault (f : Fault)

/-- The wording of a rejection. -/
def Rejection.message : Rejection → String
  | .unknown id => id
  | .fields names =>
    let sorted := names.mergeSort fun a b => decide (a < b) || a == b
    "Cannot update fields: [" ++ Json.commaSeparated (sorted.map Text.quoted) ++ "]"
  | .invalid v => v.message
  | .fault f => f.message

namespace Configuration

/-- Checks a configuration, which is rejected when an error is found. -/
def accept (c : Configuration) : Except Rejection Validation :=
  match Validation.of c with
  | .error f => .error (.fault f)
  | .ok v => if v.isValid then .ok v else .error (.invalid v)

end Configuration

/-- The minutes for which an alert of a ready-made rule stands for further ones. -/
def Priority.cooldown : Priority → Int
  | .critical => 15
  | .high => 30
  | .medium => 60
  | .low => 120
  | .info => 240

/-- What a ready-made configuration is given beside its template. -/
structure TemplateUse where
  name : Option String
  sensorId : Option String
  threshold : Option Number
  routing : Routing
  policy : Option Policy
  userId : String
  organizationId : String

/-- The configuration of a template: one rule with one condition. -/
def AlertTemplate.configuration (t : AlertTemplate) (u : TemplateUse) (now : Moment) :
    Drafting Configuration := do
  let condition ← t.condition u.sensorId u.threshold
  let ruleId ← Drafting.draw .rule
  let id ← Drafting.draw .configuration
  let rule : Rule := {
    id := ruleId, name := t.name, conditions := [condition], priority := t.priority,
    connective := .all, window := t.period, cooldown := t.priority.cooldown,
    suppressDuplicates := true, enabled := true, description := t.description, tags := [] }
  return {
    id := id, name := (u.name.filter (!·.isEmpty)).getD t.name, rules := [rule],
    routing := u.routing, policy := u.policy,
    metadata := { Metadata.standard with category := t.category }, status := .active,
    description := t.description, userId := u.userId, organizationId := u.organizationId,
    createdAt := now, updatedAt := now }

end BuildingAlerts
