/-
Notification as documents: contacts, channels, recipients, limits, policies and content.
-/
import BuildingAlerts.Json.Access
import BuildingAlerts.Notification.Log
import BuildingAlerts.Notification.Policy

set_option autoImplicit false

namespace BuildingAlerts

/-- The codes of some words. -/
def Json.codes {α : Type} [Coded α] (words : List α) : Json :=
  .texts (words.map code)

/-- The members of a contact. -/
def Contact.toJson (c : Contact) : Json :=
  .object [("type", .text (code c.channel)), ("value", .text c.value),
    ("verified", .bool c.verified), ("primary", .bool c.primary)]

/-- The members of a channel. -/
def ChannelSetting.toJson (c : ChannelSetting) : Json :=
  .object [("type", .text (code c.channel)), ("enabled", .bool c.enabled),
    ("configuration", .object c.options), ("priority_filter", .codes c.severities)]

/-- The members of a period of duty. -/
def DutyPeriod.toJson (p : DutyPeriod) : Json :=
  .object [("days_of_week", .list (p.days.map .whole)), ("start_time", .text p.start),
    ("end_time", .text p.finish)]

/-- The members of a schedule of duty. -/
def DutySchedule.toJson (d : DutySchedule) : Json :=
  .object [("timezone", .text d.zone), ("schedules", .list (d.periods.map (·.toJson)))]

/-- The members of a recipient. -/
def Recipient.toJson (r : Recipient) : Json :=
  .object [("id", .text r.id), ("name", .text r.name), ("role", .text r.role),
    ("department", .text r.department), ("contact_methods", .list (r.contacts.map (·.toJson))),
    ("notification_preferences", .object [("channels_by_priority",
      .object (r.wanted.map fun (p, cs) => (code p, .codes cs)))]),
    ("on_call_schedule", .orNull (·.toJson) r.duty)]

/-- The members of limits of frequency. -/
def FrequencyLimits.toJson (l : FrequencyLimits) : Json :=
  .object [("max_alerts_per_hour", .whole l.hourly), ("max_alerts_per_day", .whole l.daily),
    ("cooldown_between_similar", .whole l.cooldown), ("scope", .text (code l.scope))]

/-- The members of quiet hours. -/
def QuietHours.toJson (q : QuietHours) : Json :=
  .object [("enabled", .bool q.enabled), ("start_time", .text q.start),
    ("end_time", .text q.finish), ("timezone", .text q.zone), ("exceptions", .texts q.exceptions)]

/-- The members of a routing. -/
def Routing.toJson (r : Routing) : Json :=
  .object [("channels", .list (r.channels.map (·.toJson))),
    ("recipients", .list (r.recipients.map (·.toJson))),
    ("frequency_limits", r.limits.toJson), ("quiet_hours", r.quietHours.toJson),
    ("escalation_delays", .list (r.escalationDelays.map .whole))]

/-- The members of a stage. -/
def Stage.toJson (s : Stage) : Json :=
  .object [("level", .whole s.level), ("delay_minutes", .whole s.delay),
    ("recipients", .texts s.recipients), ("channels", .codes s.channels),
    ("require_acknowledgment", .bool s.requireAcknowledgment),
    ("acknowledgment_timeout", .whole s.acknowledgmentTimeout),
    ("skip_if_acknowledged", .bool s.skipIfAcknowledged), ("custom_message", .text s.message)]

/-- The members of a policy. -/
def Policy.toJson (p : Policy) : Json :=
  .object [("id", .text p.id), ("name", .text p.name), ("stages", .list (p.stages.map (·.toJson))),
    ("max_escalations", .whole p.most)]

/-- The members of a content. -/
def Content.toJson (c : Content) : Json :=
  .object [("subject", .text c.subject), ("body", .text c.body), ("html_body", .text? c.html),
    ("variables", .object (c.substitutions.map fun (k, v) => (k, .text v)))]

/-- The members of the result of a delivery. -/
def DeliveryResult.toJson (r : DeliveryResult) : Json :=
  .object [("success", .bool r.success), ("message_id", r.messageId), ("error", .text? r.error),
    ("delivery_time", .moment? r.deliveredAt)]

end BuildingAlerts
