/-
Taking in documents that may need identifiers.

A document is checked first, and only a sound one is made into something, which may draw
identifiers and may still fail. What was drawn stays drawn.
-/
import BuildingAlerts.Document.Configuration
import BuildingAlerts.Json.Access
import BuildingAlerts.Rule.Change

set_option autoImplicit false

namespace BuildingAlerts

/-- Something that is taken in from documents. -/
abbrev Taking := ExceptT Refusal (StateM IdSource)

namespace Schema

/-- Takes in a document that needs no identifiers. -/
def takePlain {α : Type} (s : Schema α) (v : Json) : Taking α :=
  fun ids => ((s.check v).mapError .flaws, ids)

/-- Takes in a document. -/
def take {α : Type} (s : Schema (Drafting α)) (v : Json) : Taking α := do
  let d ← s.takePlain v
  fun ids =>
    let (result, ids) := d.on ids
    (result.mapError .fault, ids)

end Schema

/-- A routing; nobody is notified if none is given. -/
def Routing.take : Json → Taking Routing
  | .null => pure .standard
  | v => Routing.schema.takePlain v

/-- A policy, if one is given. -/
def Policy.take : Json → Taking (Option Policy)
  | .null => pure none
  | v => some <$> Policy.schema.take v

namespace Change

/-- A change with one more field. -/
def takeField (ch : Change) (name : String) (v : Json) : Taking Change :=
  match name with
  | "name" => return { ch with name := some v.asText }
  | "description" => return { ch with description := some v.asText }
  | "rules" => return { ch with rules := some (← v.items.mapM Rule.schema.take) }
  | "notification_settings" => return { ch with routing := some (← Routing.schema.takePlain v) }
  | "escalation_policy" => return { ch with policy := some (← Policy.take v) }
  | "metadata" => return { ch with metadata := some (← Metadata.schema.takePlain v) }
  | name => return { ch with others := ch.others ++ [name] }

/-- The change that a document asks for. -/
def take (v : Json) : Taking Change :=
  v.members.foldlM (fun ch (name, w) => ch.takeField name w) {}

end Change

/-- A use of a template with the routing and the policy that a document gives. -/
def TemplateUse.take (v : Json) : Taking TemplateUse :=
  return ⟨(v.part "name").asText?, (v.part "sensor_id").asText?, v.number? "threshold_override",
    ← Routing.take (v.part "notification_settings"), ← Policy.take (v.part "escalation_policy"),
    v.textAt "user_id", v.textAt "organization_id"⟩

end BuildingAlerts
