/-
Limits on the frequency of notifications.

Admissions are counted over the last hour and the last day, for each configuration or for
each recipient. After a notification of a rule, similar ones may have to wait for a cooldown.
-/
import BuildingAlerts.Notification.Routing
import BuildingAlerts.Table

set_option autoImplicit false

namespace BuildingAlerts

/-- What admissions are counted against. -/
structure CounterKey where
  scope : FrequencyScope
  id : String
deriving DecidableEq

/-- A rule of a configuration. -/
structure RuleKey where
  configurationId : String
  ruleId : String
deriving DecidableEq

/-- The admissions of the last day and the last notification of each rule. -/
structure Limiter where
  sent : CounterKey → List Moment
  lastSimilar : RuleKey → Option Moment

namespace Limiter

/-- The limiter that has admitted nothing yet. -/
def fresh : Limiter := ⟨fun _ => [], fun _ => none⟩

instance : Inhabited Limiter := ⟨fresh⟩

/-- An hour. -/
def hour : Span := ⟨Span.microsPerHour⟩

/-- A day. -/
def day : Span := ⟨Span.microsPerDay⟩

/-- Whether `t` lies less than a span before a moment. -/
def isWithin (now : Moment) (window : Span) (t : Moment) : Except Fault Bool :=
  orFault .unfit ((now.since? t).map fun s => decide (s.micros < window.micros))

/-- How many of some moments lie less than a span before a moment. -/
def countIn (ts : List Moment) (now : Moment) (window : Span) : Except Fault Nat := do
  let recent ← ts.filterM (isWithin now window)
  return recent.length

/-- How many admissions of a key lie less than a span before a moment. -/
def count (l : Limiter) (key : CounterKey) (now : Moment) (window : Span) : Except Fault Nat :=
  countIn (l.sent key) now window

/-- The admissions without those at the front that are a day old. -/
def prune (now : Moment) (ts : List Moment) : List Moment :=
  ts.dropWhile fun t => (now.since? t).any fun s => day.micros ≤ s.micros

/-- Whether the admissions of a key have used up a limit. -/
def isFull (limits : FrequencyLimits) (now : Moment) (ts : List Moment) : Except Fault Bool := do
  let inHour ← countIn ts now hour
  if limits.hourly ≤ inHour then return true
  let inDay ← countIn ts now day
  return limits.daily ≤ inDay

/-- A limiter as it is after a step, whether or not the step failed. -/
abbrev Limiting := ExceptT Fault (StateM Limiter)

/-- Admits one notification of a key and records it, unless a limit is used up. -/
def record (limits : FrequencyLimits) (now : Moment) (key : CounterKey) : Limiting Bool := do
  modify fun l => { l with sent := assign l.sent key (prune now (l.sent key)) }
  let l ← get
  if ← (isFull limits now (l.sent key) : Except Fault Bool) then return false
  set { l with sent := assign l.sent key (l.sent key ++ [now]) }
  return true

/-- Whether the cooldown after the last notification of a rule is still running. -/
def isCooling (limits : FrequencyLimits) (now : Moment) (last : Option Moment) :
    Except Fault Bool := do
  if limits.cooldown ≤ 0 then return false
  let span ← orFault .outOfBounds (Span.ofMinutes? limits.cooldown)
  match last with
  | some t => isWithin now span t
  | none => return false

/-- Admits a notification of a rule to some recipients: those that may be notified. -/
def allow (limits : FrequencyLimits) (rule : RuleKey) (recipients : List String) (now : Moment) :
    Limiting (List String) := do
  let l ← get
  if ← (isCooling limits now (l.lastSimilar rule) : Except Fault Bool) then return []
  let admitted ← match limits.scope with
    | .recipient => recipients.filterM fun r => record limits now ⟨.recipient, r⟩
    | .configuration => do
      if ← record limits now ⟨.configuration, rule.configurationId⟩ then pure recipients
      else pure []
  if !admitted.isEmpty then
    modify fun l => { l with lastSimilar := assign l.lastSimilar rule (some now) }
  return admitted

end Limiter

end BuildingAlerts
