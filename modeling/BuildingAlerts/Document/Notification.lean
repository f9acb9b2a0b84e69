/-
Documents of notification: channels, recipients, limits, quiet hours and policies.
-/
import BuildingAlerts.Document.Schema
import BuildingAlerts.Notification.Policy
import BuildingAlerts.Notification.Routing

set_option autoImplicit false

namespace BuildingAlerts

open Fields Schema

/-- A channel. Without a filter it takes every severity. -/
def ChannelSetting.schema : Schema ChannelSetting :=
  object (ChannelSetting.mk
    <$> required "type" word
    <*> withDefault "enabled" true flag
    <*> withDefault "configuration" [] members
    <*> withDefault "priority_filter" Coded.words (list word))

/-- A contact. -/
def Contact.schema : Schema Contact :=
  object (Contact.mk
    <$> required "type" word
    <*> required "value" text
    <*> withDefault "verified" false flag
    <*> withDefault "primary" false flag)

/-- Whether all numbers name days of the week. -/
def areWeekdays (days : List Int) : Bool :=
  days.all fun d => 0 ≤ d && d ≤ 6

/-- A period of duty. Without days it is every day. -/
def DutyPeriod.schema : Schema DutyPeriod :=
  object (DutyPeriod.mk
    <$> withDefault "days_of_week" [0, 1, 2, 3, 4, 5, 6]
      ((list whole).keeping areWeekdays "days_of_week uses 0=Sunday .. 6=Saturday")
    <*> withDefault "start_time" "00:00" text
    <*> withDefault "end_time" "00:00" text)

/-- A schedule of duty. -/
def DutySchedule.schema : Schema DutySchedule :=
  object (DutySchedule.mk
    <$> withDefault "timezone" "UTC" text
    <*> withDefault "schedules" [] (list DutyPeriod.schema))

/-- The channels that a recipient wants. -/
def wantedSchema : Schema (List (Priority × List Channel)) :=
  object (withDefault "channels_by_priority" [] (table (list word)))

/-- A recipient. -/
def Recipient.schema : Schema Recipient :=
  object (Recipient.mk
    <$> required "id" text
    <*> withDefault "name" "" text
    <*> withDefault "role" "" text
    <*> withDefault "department" "" text
    <*> withDefault "contact_methods" [] (list Contact.schema)
    <*> withDefault "notification_preferences" [] wantedSchema
    <*> withDefault "on_call_schedule" none (optional DutySchedule.schema))

/-- Limits of frequency. -/
def FrequencyLimits.schema : Schema FrequencyLimits :=
  object (FrequencyLimits.mk
    <$> withDefault "max_alerts_per_hour" FrequencyLimits.standard.hourly whole
    <*> withDefault "max_alerts_per_day" FrequencyLimits.standard.daily whole
    <*> withDefault "cooldown_between_similar" FrequencyLimits.standard.cooldown whole
    <*> withDefault "scope" FrequencyLimits.standard.scope word)

/-- Quiet hours. -/
def QuietHours.schema : Schema QuietHours :=
  object (QuietHours.mk
    <$> withDefault "enabled" QuietHours.standard.enabled flag
    <*> withDefault "start_time" QuietHours.standard.start text
    <*> withDefault "end_time" QuietHours.standard.finish text
    <*> withDefault "timezone" QuietHours.standard.zone text
    <*> withDefault "exceptions" [] (list text))

/-- Where alerts go. -/
def Routing.schema : Schema Routing :=
  object (Routing.mk
    <$> withDefault "channels" [] (list ChannelSetting.schema)
    <*> withDefault "recipients" [] (list Recipient.schema)
    <*> withDefault "frequency_limits" .standard FrequencyLimits.schema
    <*> withDefault "quiet_hours" .standard QuietHours.schema
    <*> withDefault "escalation_delays" [] (list whole))

/-- A stage of an escalation. -/
def Stage.schema : Schema Stage :=
  object (Stage.mk
    <$> required "level" whole
    <*> required "delay_minutes" whole
    <*> withDefault "recipients" [] (list text)
    <*> withDefault "channels" [] (list word)
    <*> withDefault "require_acknowledgment" true flag
    <*> withDefault "acknowledgment_timeout" 30 whole
    <*> withDefault "skip_if_acknowledged" true flag
    <*> withDefault "custom_message" "" text)

/-- The policy that a document describes. -/
def Policy.draft (id : Option String) (name : String) (stages : List Stage) (most : Int) :
    Drafting Policy := do
  let id ← Drafting.identOr .policy id
  Policy.make id name stages most

/-- An escalation policy. -/
def Policy.schema : Schema (Drafting Policy) :=
  object (Policy.draft
    <$> withDefault "id" none (optional text)
    <*> withDefault "name" "" text
    <*> withDefault "stages" [] (list Stage.schema)
    <*> withDefault "max_escalations" 3 whole)

end BuildingAlerts
