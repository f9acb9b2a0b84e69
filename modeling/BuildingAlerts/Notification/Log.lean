/-
Deliveries and what became of them.

A log entry follows one delivery from its first attempt through all retries. Entries are
kept in a journal and known by their identifiers.
-/
import BuildingAlerts.Notification.Routing
import BuildingAlerts.Ident
import BuildingAlerts.Time.Written

set_option autoImplicit false

namespace BuildingAlerts

/-- A moment as a document value, or null when there is none. -/
def Json.moment? (m : Option Moment) : Json :=
  .text? (m.map (·.iso))

/-- The content of a notification. -/
structure Content where
  subject : String
  body : String
  html : Option String
  substitutions : List (String × String)

/-- What a provider answers to a delivery. -/
structure DeliveryResult where
  success : Bool
  /-- The provider's name for the message, in whatever form it comes. -/
  messageId : Json
  error : Option String
  deliveredAt : Option Moment

/-- A delivery that was refused. -/
def DeliveryResult.refused (error : String) : DeliveryResult :=
  ⟨false, .null, some error, none⟩

/-- One of the alerts that came under an identifier. -/
structure AlertRef where
  id : String
  /-- How many alerts of the identifier came before it. -/
  place : Nat
deriving DecidableEq

/-- Everything that is needed to attempt a delivery once more. -/
structure DeliveryRequest where
  channel : Channel
  address : String
  content : Content
  alert : AlertRef
  options : List (String × Json)
  recipientId : Option String

/-- The record of one delivery. -/
structure LogEntry where
  id : String
  alertId : String
  channel : Channel
  address : String
  /-- When the latest attempt was made. -/
  sentAt : Moment
  deliveredAt : Option Moment
  status : DeliveryStatus
  error : Option String
  retries : Int
  messageId : Json
  /-- The stage that the delivery belongs to, zero for the first notification. -/
  escalationLevel : Int
  request : Option DeliveryRequest

namespace LogEntry

/-- The entry after a delivery that succeeded. -/
def markSent (e : LogEntry) (r : DeliveryResult) (now : Moment) : LogEntry :=
  { e with
    status := .sent, messageId := r.messageId, deliveredAt := some (r.deliveredAt.getD now),
    error := none }

/-- The entry after a delivery that failed. -/
def markFailed (e : LogEntry) (error : String) : LogEntry :=
  { e with status := .failed, error := some error }

/-- The members of an entry. -/
def toJson (e : LogEntry) : Json :=
  .object [("id", .text e.id), ("alert_id", .text e.alertId), ("channel", .text (code e.channel)),
    ("recipient", .text e.address), ("sent_at", .text e.sentAt.iso),
    ("delivered_at", .moment? e.deliveredAt), ("status", .text (code e.status)),
    ("error_message", .text? e.error), ("retry_count", .whole e.retries),
    ("message_id", e.messageId), ("escalation_level", .whole e.escalationLevel)]

end LogEntry

/-- All log entries by their identifiers. -/
abbrev Journal := Table LogEntry

/-- The entries of some identifiers, in their order. -/
def Journal.pick (j : Journal) (ids : List String) : List LogEntry :=
  ids.filterMap j.get?

end BuildingAlerts
