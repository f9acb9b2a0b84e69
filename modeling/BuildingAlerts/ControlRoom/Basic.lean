/-
The control room.

The control room holds the configurations, the alerts and everything about their
notifications. Its work is done in tasks: passes, notifications, deliveries, retries and
escalations. Here are what the room holds and the forms that the work takes.

A channel has a line if something is there to deliver on it: a service that the setup names, or
a provider of whom all that is known is what they do with each message.
-/
import BuildingAlerts.Agenda.Basic
import BuildingAlerts.Agenda.Delay
import BuildingAlerts.Notification.Limiter
import BuildingAlerts.Notification.Log
import BuildingAlerts.Rule.Pass
import BuildingAlerts.Setup.Alerting

set_option autoImplicit false

namespace BuildingAlerts

/-! ## Lines -/

/-- What a provider does with one message: some time passes, and then there is a result. -/
structure Handling where
  delay : Delay
  result : Except Fault DeliveryResult

/-- Who delivers on a line. -/
inductive Carrier where
  /-- The service that the setup names for the channel. -/
  | service
  /-- A provider, by what they do with the message of each number. -/
  | provider (handle : Nat → Handling)

/-- What was handed to a provider, and when. -/
structure Handed where
  moment : Moment
  address : String
  subject : String
  alertId : String
  options : List (String × Json)
  /-- The log entry of the delivery, if it has one. -/
  entry : Option String

/-- A line with all that was handed to the provider on it. -/
structure Line where
  carrier : Carrier
  handed : List Handed

/-- A line on which nothing went out yet. -/
def Line.fresh (c : Carrier) : Line := ⟨c, []⟩

/-! ## The room -/

/-- Where the snapshots of the periodic passes come from: one for each fetch, told by its
number and its time. -/
abbrev SnapshotSource := Nat → Moment → Except Fault Snapshot

/-- The periodic passes. -/
structure Rounds where
  source : SnapshotSource
  interval : Number
  running : Bool
  fetched : Nat
  completed : Nat
  failed : Nat
  /-- The task that goes on in the background. -/
  task : Option TaskId

/-- No rounds are made: there is no source of snapshots. -/
def Rounds.none (interval : Number) : Rounds :=
  ⟨fun _ _ => .error .unreachable, interval, false, 0, 0, 0, .none⟩

/-- What the control room holds. -/
structure ControlRoom where
  setup : Setup
  limit : Concurrency
  /-- The clock when the room was opened. -/
  opened : Moment
  configurations : Table Configuration
  /-- All recipients that are known, by their identifiers. -/
  directory : Table Recipient
  /-- The alerts, and the identifiers given out so far. -/
  registry : Registry
  limiter : Limiter
  /-- All log entries. -/
  journal : Journal
  /-- The log entries of the deliveries that were given up. -/
  deadLetters : List String
  lines : Channel → Option Line
  rounds : Rounds

/-- What a task of the control room results in. -/
inductive Yield where
  /-- The identifiers of alerts or of log entries. -/
  | names (ids : List String)
  /-- What a provider answered. -/
  | answer (r : DeliveryResult)

/-- The identifiers in a result. -/
def Yield.ids : Yield → List String
  | .names ids => ids
  | .answer _ => []

/-- What a pass is for. -/
inductive PassFor where
  /-- Somebody asked for it. -/
  | caller
  /-- It is a single one of the periodic passes. -/
  | single
  /-- It is one of a row of periodic passes: how many are made at most, how many were made
  before it, and whether somebody waits for the end of the row. -/
  | row (most : Option Int) (made : Nat) (awaited : Bool)

/-- What follows when the deliveries of a wave have ended. -/
inductive Sequel where
  /-- Nothing. -/
  | none
  /-- Retries and, if there is a policy, the first escalation are booked. -/
  | book (policy : Option Policy)

/-- What tasks of the control room do. -/
inductive Work where
  /-- A periodic pass with a snapshot that is still to be fetched. -/
  | round (p : PassFor)
  /-- A pause between two periodic passes. -/
  | interval (p : PassFor)
  /-- A pass over a snapshot. -/
  | pass (p : PassFor) (s : Snapshot)
  /-- A pass whose configurations are being evaluated, with the alerts from before it. -/
  | evaluating (p : PassFor) (known : List String)
  /-- A pass whose new alerts are being notified. -/
  | notifying (p : PassFor) (found : List String)
  /-- The evaluation of one configuration. -/
  | evaluate (b : Assignment) (s : Snapshot)
  /-- The notification of a new alert. -/
  | notify (alert : AlertRef)
  /-- The notification of an alert under given settings. -/
  | route (alert : AlertRef) (r : Routing)
  /-- A wave of deliveries of an alert, of which so many are still under way. -/
  | collecting (alert : AlertRef) (left : Nat) (entries : List String) (sequel : Sequel)
  /-- A new delivery, on a level of escalation. -/
  | deliver (r : DeliveryRequest) (level : Int)
  /-- One more attempt at a delivery. -/
  | attempt (entry : String)
  /-- An attempt that the provider is at work on. -/
  | sending (entry : String) (result : Except Fault DeliveryResult)
  /-- An attempt whose time is up before it began. -/
  | lapsing (entry : String) (turns : Nat)
  /-- Something handed to a line that is not logged. -/
  | hand (r : DeliveryRequest)
  /-- The provider is at work on it. -/
  | handing (result : Except Fault DeliveryResult)
  /-- Retries of some deliveries, each at most so often; whether further ones are booked. -/
  | retry (entries : List String) (most : Int) (again : Bool)
  /-- Retries that are under way. -/
  | retrying (entries : List String) (most : Int) (again : Bool)
  /-- The escalation of an alert under a policy from a level, or from the level that it has
  by then, in which case the next one is booked. -/
  | escalate (alert : AlertRef) (p : Policy) (level : Option Int)
  /-- An escalation whose deliveries are under way. -/
  | escalating (alert : AlertRef) (p : Policy) (s : Stage) (since : Moment) (booked : Bool)

/-- An agenda of the control room. -/
abbrev Office := Agenda ControlRoom Work Yield

/-- What a task of the control room does in one stretch. -/
abbrev Stretch := Turn ControlRoom Work Yield

namespace ControlRoom

/-- A room that is just opened. -/
def opening (setup : Setup) (limit : Concurrency) (opened : Moment) (ids : IdSource)
    (lines : Channel → Option Line) : ControlRoom where
  setup := setup
  limit := limit
  opened := opened
  configurations := .empty
  directory := .empty
  registry := ⟨.empty, ids⟩
  limiter := .fresh
  journal := .empty
  deadLetters := []
  lines := lines
  rounds := .none setup.interval

/-- The clock of the room some time after it was opened, as long as the calendar lasts. -/
def clock? (c : ControlRoom) (now : Instant) : Option Moment :=
  c.opened.plus? ⟨now.micros⟩

/-- The clock of the room, which stands still where the calendar ends. -/
def clock (c : ControlRoom) (now : Instant) : Moment :=
  (c.clock? now).getD c.opened

/-- The alerts. -/
def store (c : ControlRoom) : Store :=
  c.registry.store

/-- Whether there is a line for a channel. -/
def supports (c : ControlRoom) (channel : Channel) : Bool :=
  (c.lines channel).isSome

/-- Opens a line for a channel. -/
def openLine (c : ControlRoom) (channel : Channel) (carrier : Carrier) : ControlRoom :=
  { c with lines := assign c.lines channel (some (.fresh carrier)) }

/-- Changes an alert. -/
def adjustAlert (c : ControlRoom) (r : AlertRef) (f : Alert → Alert) : ControlRoom :=
  { c with registry := { c.registry with store := c.registry.store.adjustAt r f } }

/-- Changes a log entry. -/
def adjustEntry (c : ControlRoom) (id : String) (f : LogEntry → LogEntry) : ControlRoom :=
  { c with journal := c.journal.adjust id f }

/-- The log entries of an alert. -/
def entriesOf (c : ControlRoom) (a : Alert) : List LogEntry :=
  c.journal.pick a.notifications

/-- A new identifier. -/
def draw (c : ControlRoom) (k : IdKind) : String × ControlRoom :=
  let (id, ids) := c.registry.ids.draw k
  (id, { c with registry := { c.registry with ids := ids } })

/-- Work that goes on, with nothing booked. -/
def goOn (c : ControlRoom) (n : Next Work Yield) : Stretch :=
  ⟨c, [], n⟩

/-- Work that has ended with some identifiers. -/
def done (c : ControlRoom) (ids : List String) : Stretch :=
  c.goOn (.finish (.ok (.names ids)))

/-- Work that has come to a stop. -/
def stop (c : ControlRoom) (s : Stop) : Stretch :=
  c.goOn (.finish (.error s))

/-- Work that has failed. -/
def fail (c : ControlRoom) (f : Fault) : Stretch :=
  c.stop (.failed f)

end ControlRoom

end BuildingAlerts
