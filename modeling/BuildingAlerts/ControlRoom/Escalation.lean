/-
Escalations.

An open alert that nobody takes notice of goes through the stages of its policy, each of which
is due some minutes after the latest notification. A stage that is due turns to its recipients
on its channels, and the alert rises to the level of the stage when all deliveries have ended.
The next stage is booked from there.
-/
import BuildingAlerts.Alert.Basic
import BuildingAlerts.ControlRoom.Retry
import BuildingAlerts.Notification.Policy
import BuildingAlerts.Notification.Rendering

set_option autoImplicit false

/-! ## When an alert is escalated -/

namespace BuildingAlerts.Alert

/-- The stage that would be fired next after a level, whenever it is due. -/
def nextStage? (a : Alert) (p : Policy) (level : Int) : Option Stage :=
  if !a.isOpen || p.most ≤ level then none
  else (p.stageAfter level).filter fun s => !(s.skipIfAcknowledged && a.isAcknowledged)

/-- When a stage is due, given the log entries of the alert. -/
def dueAt (a : Alert) (entries : List LogEntry) (s : Stage) : Except Fault Moment := do
  let last ← lastNotified entries
  let delay ← orFault .outOfBounds (Span.ofMinutes? s.delay)
  orFault .outOfBounds ((last.getD a.triggeredAt).plus? delay)

/-- How long it is until a stage is due, below zero if it is overdue. -/
def untilDue (a : Alert) (entries : List LogEntry) (s : Stage) (now : Moment) :
    Except Fault Span := do
  let due ← a.dueAt entries s
  orFault .unfit (due.since? now)

/-- The alert after a stage was fired. -/
def escalate (a : Alert) (s : Stage) (now : Moment) (entries : List String) : Alert :=
  { a with
    escalationLevel := s.level, escalatedAt := some now,
    notifications := a.notifications ++ entries }

end BuildingAlerts.Alert

/-! ## Escalations of the room -/

namespace BuildingAlerts

/-- The key of the escalation of an alert to a level. -/
def escalationKey (alertId : String) (level : Int) : String :=
  "escalation:" ++ alertId ++ ":" ++ toString level

namespace ControlRoom

/-- The appointment for the next escalation of an alert, if there is one. -/
def escalationAppointment? (c : ControlRoom) (now : Moment) (alert : AlertRef) (p : Policy) :
    Except Fault (Option (Appointment Work)) :=
  match c.store.find? alert with
  | none => .error .noPart
  | some a =>
    match a.nextStage? p a.escalationLevel with
    | none => .ok none
    | some s => do
      let left ← a.untilDue (c.entriesOf a) s now
      return some {
        key := escalationKey alert.id s.level
        alertId := some alert.id
        delay := .ofFloat left.toSeconds
        body := .escalate alert p none }

/-- The request that a stage makes to a recipient on a channel, if they can be reached. -/
def stageRequest? (c : ControlRoom) (alert : AlertRef) (a : Alert) (s : Stage)
    (recipient : String) (channel : Channel) : Option DeliveryRequest := do
  let r ← c.directory.get? recipient
  guard (c.supports channel)
  let contact ← r.contactFor channel
  return {
    channel := channel, address := contact.value,
    content := Rendering.escalation a s s.level c.setup.dashboard,
    alert := alert, options := [], recipientId := some r.id }

/-- The requests of a stage: in order of recipients, and for each of channels. -/
def stageRequests (c : ControlRoom) (alert : AlertRef) (a : Alert) (s : Stage) :
    List DeliveryRequest :=
  s.recipients.flatMap fun r => s.channels.filterMap fun ch => c.stageRequest? alert a s r ch

/-- Books the retries of deliveries that failed and the next escalation. -/
def followUp (c : ControlRoom) (now : Moment) (alert : AlertRef) (p : Policy)
    (entries : List String) : Stretch :=
  let (retries, f) := c.retryAppointments now entries
  match f with
  | some f => ⟨c, retries, .finish (.error (.failed f))⟩
  | none =>
    match c.escalationAppointment? now alert p with
    | .error f => ⟨c, retries, .finish (.error (.failed f))⟩
    | .ok m => ⟨c, retries ++ m.toList, .finish (.ok (.names entries))⟩

/-- Ends an escalation that did not fire or whose deliveries have ended. -/
def endEscalation (c : ControlRoom) (now : Moment) (alert : AlertRef) (p : Policy)
    (booked : Bool) (entries : List String) : Stretch :=
  if booked then c.followUp now alert p entries else c.done entries

/-- The alert rises to the level of a stage that was fired. -/
def rise (c : ControlRoom) (alert : AlertRef) (s : Stage) (since : Moment)
    (entries : List String) : ControlRoom :=
  c.adjustAlert alert fun a => a.escalate s since entries

/-- Fires the stage after a level if it is due. -/
def beginEscalation (c : ControlRoom) (now : Moment) (alert : AlertRef) (p : Policy)
    (level : Option Int) : Stretch :=
  match c.store.find? alert with
  | none => c.fail .noPart
  | some a =>
    match a.nextStage? p (level.getD a.escalationLevel) with
    | none => c.endEscalation now alert p level.isNone []
    | some s =>
      match a.untilDue (c.entriesOf a) s now with
      | .error f => c.fail f
      | .ok left =>
        if 0 < left.micros then c.endEscalation now alert p level.isNone []
        else match c.stageRequests alert a s with
          | [] => (c.rise alert s now []).endEscalation now alert p level.isNone []
          | rs => c.goOn (.gather (rs.map fun r => .deliver r s.level)
              (.escalating alert p s now level.isNone))

end ControlRoom

end BuildingAlerts
