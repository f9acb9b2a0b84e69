/-
Rules and configurations.

A rule joins conditions. A configuration belongs to a user and holds rules together with
where their alerts go.
-/
import BuildingAlerts.Condition.Basic
import BuildingAlerts.Notification.Policy
import BuildingAlerts.Notification.Routing

set_option autoImplicit false

namespace BuildingAlerts

/-- Conditions under a name. The window and the cooldown are in minutes. -/
structure Rule where
  id : String
  name : String
  conditions : List Condition
  priority : Priority
  connective : Connective
  window : Int
  cooldown : Int
  suppressDuplicates : Bool
  enabled : Bool
  description : String
  tags : List String

/-- What a configuration is about. -/
structure Metadata where
  category : Category
  impact : Impact
  systems : List String
  locations : List String
  runbook : Option String
  tags : List String

/-- About daily operation, of medium impact. -/
def Metadata.standard : Metadata := ⟨.operational, .medium, [], [], none, []⟩

/-- The rules of a user and where their alerts go. -/
structure Configuration where
  id : String
  name : String
  rules : List Rule
  routing : Routing
  policy : Option Policy
  metadata : Metadata
  status : ConfigurationStatus
  description : String
  userId : String
  organizationId : String
  createdAt : Moment
  updatedAt : Moment

namespace Configuration

/-- Whether the configuration is evaluated. -/
def isActive (c : Configuration) : Bool :=
  c.status == .active

/-- The rules that are evaluated. -/
def enabledRules (c : Configuration) : List Rule :=
  c.rules.filter (·.enabled)

/-- The first rule of an identifier. -/
def rule? (c : Configuration) (id : String) : Option Rule :=
  c.rules.find? (·.id == id)

end Configuration

end BuildingAlerts
