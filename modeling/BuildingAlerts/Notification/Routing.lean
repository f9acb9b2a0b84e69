/-
Where the alerts of a configuration go.

The channels and recipients of a configuration, how often they may be notified, and the
hours in which they are left alone. Every channel that takes an alert's severity is paired with
every recipient who wants it, has a verified contact for it and is on call.
-/
import BuildingAlerts.Notification.Recipient

set_option autoImplicit false

namespace BuildingAlerts

/-! ## Settings -/

/-- A channel that a configuration uses. -/
structure ChannelSetting where
  channel : Channel
  enabled : Bool
  options : List (String × Json)
  severities : List Priority

/-- Whether a channel takes alerts of a severity. -/
def ChannelSetting.accepts (c : ChannelSetting) (severity : Option Priority) : Bool :=
  c.enabled && severity.any fun p => c.severities.contains p

/-- How often notifications may go out. The cooldown is in minutes. -/
structure FrequencyLimits where
  hourly : Int
  daily : Int
  cooldown : Int
  scope : FrequencyScope

/-- Ten an hour and fifty a day for each configuration. -/
def FrequencyLimits.standard : FrequencyLimits := ⟨10, 50, 0, .configuration⟩

/-- Hours in which alerts are held back. -/
structure QuietHours where
  enabled : Bool
  start : String
  finish : String
  zone : String
  /-- The alerts that are let through all the same. -/
  exceptions : List String

namespace QuietHours

/-- From ten at night to six in the morning, but not in force. -/
def standard : QuietHours := ⟨false, "22:00", "06:00", "UTC", []⟩

/-- Whether an alert is held back at a moment. Critical alerts never are. -/
def suppresses (q : QuietHours) (alertId : String) (severity : Option Priority) (m : Moment) :
    Except Fault Bool :=
  if !q.enabled || severity == some .critical || q.exceptions.contains alertId then .ok false
  else isWithinHours m q.start q.finish q.zone

end QuietHours

/-- Where the alerts of a configuration go. -/
structure Routing where
  channels : List ChannelSetting
  recipients : List Recipient
  limits : FrequencyLimits
  quietHours : QuietHours
  escalationDelays : List Int

/-- Nobody is notified. -/
def Routing.standard : Routing := ⟨[], [], .standard, .standard, []⟩

/-! ## Targets -/

/-- A recipient on a channel, with the contact that is used. -/
structure Target where
  channel : ChannelSetting
  recipient : Recipient
  contact : Contact

namespace Routing

/-- The channels that take alerts of a severity. -/
def channelsFor (r : Routing) (severity : Option Priority) : List ChannelSetting :=
  r.channels.filter (·.accepts severity)

/-- The target that a recipient makes on a channel, if they make one. -/
def target? (severity : Option Priority) (now : Moment) (c : ChannelSetting) (r : Recipient) :
    Except Fault (Option Target) :=
  match r.wants severity c.channel, r.contactFor c.channel with
  | true, some k => (r.isOnCall now).map fun onCall => if onCall then some ⟨c, r, k⟩ else none
  | _, _ => .ok none

/-- The targets of an alert: in order of channels, and on each channel of recipients. -/
def targets (r : Routing) (severity : Option Priority) (now : Moment) :
    Except Fault (List Target) := do
  let pairs := (r.channelsFor severity).flatMap fun c => r.recipients.map fun p => (c, p)
  let found ← pairs.mapM fun (c, p) => target? severity now c p
  return found.reduceOption

/-- The recipients by their identifiers; the last of one identifier counts. -/
def directory (r : Routing) : List (String × Recipient) :=
  r.recipients.map fun p => (p.id, p)

end Routing

end BuildingAlerts
