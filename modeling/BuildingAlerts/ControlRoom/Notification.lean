/-
Notification of alerts.

An alert is held back in quiet hours and when too many went out already. Otherwise there is one
delivery for each target, all of them start together, and the alert's log lists them in the
order in which they end.
-/
import BuildingAlerts.ControlRoom.Escalation
import BuildingAlerts.Notification.Routing

set_option autoImplicit false

namespace BuildingAlerts.ControlRoom

/-- The first channel for an alert that has no line. -/
def missingLine? (c : ControlRoom) (r : Routing) (a : Alert) : Option Channel :=
  ((r.channelsFor a.severity).map (·.channel)).find? fun ch => !c.supports ch

/-- The targets of an alert before the limits are asked; none when it is held back. -/
def candidates (c : ControlRoom) (now : Moment) (r : Routing) (a : Alert) :
    Except Fault (List Target) := do
  if ← r.quietHours.suppresses a.id a.severity now then return []
  match c.missingLine? r a with
  | some channel => .error (.unsupportedChannel channel)
  | none => r.targets a.severity now

/-- The targets that the limits admit. -/
def admitted (c : ControlRoom) (now : Moment) (r : Routing) (a : Alert) (ts : List Target) :
    Except Fault (List Target) × ControlRoom :=
  if ts.isEmpty then (.ok [], c)
  else
    let ids := firsts (ts.map (·.recipient.id))
    let (result, limiter) :=
      StateT.run (Limiter.allow r.limits ⟨a.configurationId, a.ruleId⟩ ids now) c.limiter
    (result.map fun ids => ts.filter fun t => ids.contains t.recipient.id,
      { c with limiter := limiter })

/-- The request for a target. -/
def requestFor (c : ControlRoom) (alert : AlertRef) (a : Alert) (t : Target) : DeliveryRequest where
  channel := t.channel.channel
  address := t.contact.value
  content := Rendering.alert a c.setup.dashboard
  alert := alert
  options := t.channel.options
  recipientId := some t.recipient.id

/-- The requests for an alert under given settings. -/
def requests (c : ControlRoom) (now : Moment) (r : Routing) (alert : AlertRef) (a : Alert) :
    Except Fault (List DeliveryRequest) × ControlRoom :=
  match c.candidates now r a with
  | .error f => (.error f, c)
  | .ok ts =>
    let (result, c) := c.admitted now r a ts
    (result.map fun ts => ts.map (c.requestFor alert a), c)

/-- Ends a notification. -/
def endNotification (c : ControlRoom) (now : Moment) (alert : AlertRef) (entries : List String) :
    Sequel → Stretch
  | .none => c.done entries
  | .book policy =>
    let (retries, f) := c.retryAppointments now entries
    match f, policy with
    | some f, _ => ⟨c, retries, .finish (.error (.failed f))⟩
    | none, none => ⟨c, retries, .finish (.ok (.names entries))⟩
    | none, some p =>
      match c.escalationAppointment? now alert p with
      | .error f => ⟨c, retries, .finish (.error (.failed f))⟩
      | .ok m => ⟨c, retries ++ m.toList, .finish (.ok (.names entries))⟩

/-- A notification that was stopped. A pass goes on after a failure of the alerting side. -/
def stopNotification (c : ControlRoom) (s : Stop) : Sequel → Stretch
  | .none => c.stop s
  | .book _ =>
    match s with
    | .failed f => if f.isAlerting then c.done [] else c.fail f
    | .cancelled => c.stop .cancelled

/-- Begins the notification of an alert under given settings. -/
def beginNotification (c : ControlRoom) (now : Moment) (alert : AlertRef) (r : Routing)
    (sequel : Sequel) : Stretch :=
  match c.store.find? alert with
  | none => c.fail .nothingToRoute
  | some a =>
    match c.requests now r alert a with
    | (.error f, c) => c.stopNotification (.failed f) sequel
    | (.ok [], c) => c.endNotification now alert [] sequel
    | (.ok rs, c) => c.goOn (.collect (rs.map fun r => .deliver r 0)
        (.collecting alert rs.length [] sequel))

/-- Begins the notification of a new alert under the settings of its configuration. -/
def beginAnnouncement (c : ControlRoom) (now : Moment) (alert : AlertRef) : Stretch :=
  match (c.store.find? alert).bind fun a => c.configurations.get? a.configurationId with
  | none => c.done []
  | some k => c.beginNotification now alert k.routing (.book k.policy)

/-- The entries of deliveries that have ended, up to the first that was stopped. -/
def arrivals : List (Outcome Yield) → List String × Option Stop
  | [] => ([], none)
  | .error s :: _ => ([], some s)
  | .ok y :: os =>
    let (ids, s) := arrivals os
    (y.ids ++ ids, s)

/-- Takes in deliveries of a wave that have ended. -/
def takeIn (c : ControlRoom) (now : Moment) (alert : AlertRef) (left : Nat)
    (entries : List String) (sequel : Sequel) (os : List (Outcome Yield)) : Stretch :=
  match arrivals os with
  | (_, some s) => c.stopNotification s sequel
  | (ids, none) =>
    let entries := entries ++ ids
    let left := left - os.length
    if left = 0 then
      (c.adjustAlert alert fun a =>
        { a with notifications := a.notifications ++ entries }).endNotification now alert
          entries sequel
    else c.goOn (.await (.collecting alert left entries sequel))

end BuildingAlerts.ControlRoom
