/-
Who is notified, and how they are reached.

A recipient is reached on a channel by a verified contact, on the channels they asked for at
each severity, and only while they are on call.
-/
import BuildingAlerts.Schedule
import BuildingAlerts.Vocabulary

set_option autoImplicit false

namespace BuildingAlerts

/-- A way of reaching a recipient on one channel. -/
structure Contact where
  channel : Channel
  value : String
  verified : Bool
  primary : Bool

/-- A period of the week, with zero for Sunday. Equal times cover the whole day. -/
structure DutyPeriod where
  days : List Int
  start : String
  finish : String

/-- When a recipient is on call. -/
structure DutySchedule where
  zone : String
  periods : List DutyPeriod

/-- Whether one of some periods covers a moment. Periods after the first that does are not
looked at. -/
def DutyPeriod.anyCovers (zone : String) (m : Moment) : List DutyPeriod → Except Fault Bool
  | [] => .ok false
  | p :: ps => do
    if ← isOnSchedule m p.days p.start p.finish zone then return true
    anyCovers zone m ps

/-- Whether a schedule covers a moment. -/
def DutySchedule.covers (s : DutySchedule) (m : Moment) : Except Fault Bool :=
  DutyPeriod.anyCovers s.zone m s.periods

/-- A person or a system that is notified. -/
structure Recipient where
  id : String
  name : String
  role : String
  department : String
  contacts : List Contact
  /-- The channels that are wanted at each severity. -/
  wanted : List (Priority × List Channel)
  duty : Option DutySchedule

namespace Recipient

/-- Whether the recipient wants a channel at a severity. -/
def wants (r : Recipient) (severity : Option Priority) (c : Channel) : Bool :=
  match severity.bind fun p => r.wanted.lookup p with
  | some channels => channels.contains c
  | none => false

/-- The verified contacts for a channel. -/
def verifiedContacts (r : Recipient) (c : Channel) : List Contact :=
  r.contacts.filter fun k => k.channel == c && k.verified

/-- The verified contact for a channel: the first primary one, or else the first. -/
def contactFor (r : Recipient) (c : Channel) : Option Contact :=
  let ks := r.verifiedContacts c
  (ks.find? (·.primary)).or ks.head?

/-- Whether the recipient is on call. Without a schedule they always are. -/
def isOnCall (r : Recipient) (m : Moment) : Except Fault Bool :=
  match r.duty with
  | some s => s.covers m
  | none => .ok true

end Recipient

end BuildingAlerts
