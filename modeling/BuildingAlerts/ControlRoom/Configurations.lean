/-
The configurations of the control room.

A configuration is only taken in, or changed, when its check finds no error; whatever is
rejected leaves everything as it was. Recipients stay known once they were part of one.
-/
import BuildingAlerts.ControlRoom.Basic
import BuildingAlerts.Notification.Routing
import BuildingAlerts.Rule.Change

set_option autoImplicit false

namespace BuildingAlerts.ControlRoom

/-- Makes the recipients of a routing known. -/
def index (c : ControlRoom) (r : Routing) : ControlRoom :=
  { c with directory := c.directory.insertAll r.directory }

/-- Puts a configuration in the place of the one of its identifier. -/
def keep (c : ControlRoom) (k : Configuration) : ControlRoom :=
  { c with configurations := c.configurations.insert k.id k }.index k.routing

/-- Takes in a configuration. -/
def addConfiguration (c : ControlRoom) (k : Configuration) :
    Except Rejection Validation × ControlRoom :=
  match k.accept with
  | .error e => (.error e, c)
  | .ok v => (.ok v, c.keep k)

/-- Takes in configurations, up to the first that is rejected. -/
def addConfigurations (c : ControlRoom) :
    List Configuration → Except Rejection Unit × ControlRoom
  | [] => (.ok (), c)
  | k :: ks =>
    match c.addConfiguration k with
    | (.error e, c) => (.error e, c)
    | (.ok _, c) => c.addConfigurations ks

/-- Changes a configuration. -/
def updateConfiguration (c : ControlRoom) (now : Moment) (id : String) (ch : Change) :
    Except Rejection Configuration × ControlRoom :=
  match c.configurations.get? id with
  | none => (.error (.unknown id), c)
  | some k =>
    if !ch.others.isEmpty then (.error (.fields ch.others), c)
    else
      let k := ch.apply k now
      match k.accept with
      | .error e => (.error e, c)
      | .ok _ =>
        (.ok k, { c with configurations := c.configurations.insert id k }.index k.routing)

/-- Changes a configuration, if there is one of the identifier, and stamps it. -/
def touch (c : ControlRoom) (now : Moment) (id : String) (f : Configuration → Configuration) :
    ControlRoom :=
  { c with configurations := c.configurations.adjust id fun k => { f k with updatedAt := now } }

/-- Gives a configuration a status. -/
def setStatus (c : ControlRoom) (now : Moment) (id : String) (s : ConfigurationStatus) :
    ControlRoom :=
  c.touch now id fun k => { k with status := s }

/-- Turns the first rule of an identifier on or off. -/
def enableFirst (id : String) (on : Bool) : List Rule → List Rule
  | [] => []
  | r :: rs => if r.id == id then { r with enabled := on } :: rs else r :: enableFirst id on rs

/-- Turns a rule on or off. Nothing happens if there is no such rule. -/
def setRuleEnabled (c : ControlRoom) (now : Moment) (id ruleId : String) (on : Bool) :
    ControlRoom :=
  match (c.configurations.get? id).bind (·.rule? ruleId) with
  | none => c
  | some _ => c.touch now id fun k => { k with rules := enableFirst ruleId on k.rules }

/-- The configurations of a status and of a user, if those are named. -/
def listConfigurations (c : ControlRoom) (status : Option ConfigurationStatus)
    (userId : String) : List Configuration :=
  (c.configurations.values.filter fun k => status.all (k.status == ·)).filter fun k =>
    userId.isEmpty || k.userId == userId

/-- Creates something that may need identifiers. -/
def drafting {α : Type} (c : ControlRoom) (d : Drafting α) : Except Fault α × ControlRoom :=
  let (result, ids) := d.on c.registry.ids
  (result, { c with registry := { c.registry with ids := ids } })

/-- Takes in the configuration of a template. -/
def addFromTemplate (c : ControlRoom) (now : Moment) (key : String) (u : TemplateUse) :
    Except Rejection Configuration × ControlRoom :=
  match AlertTemplate.find key with
  | .error f => (.error (.fault f), c)
  | .ok t =>
    match c.drafting (t.configuration u now) with
    | (.error f, c) => (.error (.fault f), c)
    | (.ok k, c) =>
      match c.addConfiguration k with
      | (.error e, c) => (.error e, c)
      | (.ok _, c) => (.ok k, c)

end BuildingAlerts.ControlRoom
