/-
Moments and spans of time.

A span is a whole number of microseconds. Spans are bounded: they reach at most a billion
days either way, and an operation that would leave the bounds has no result.

A moment is what a clock on a wall shows, with the offset of that clock from universal time
if it is known. Two moments with known offsets are compared by the instants they name; one
with an offset and one without have no order.
-/
import BuildingAlerts.Number
import BuildingAlerts.Time.Civil

set_option autoImplicit false

namespace BuildingAlerts

/-! ## Spans -/

/-- A length of time in microseconds. -/
structure Span where
  micros : Int
deriving DecidableEq

namespace Span

def microsPerSecond : Int := 1000000
def microsPerMinute : Int := 60 * microsPerSecond
def microsPerHour : Int := 60 * microsPerMinute
def microsPerDay : Int := 24 * microsPerHour

/-- The most days that a span holds. -/
def mostDays : Int := 999999999

/-- The whole days of a span; only they are negative. -/
def days (s : Span) : Int :=
  s.micros / microsPerDay

/-- The seconds behind the whole days. -/
def seconds (s : Span) : Int :=
  s.micros % microsPerDay / microsPerSecond

/-- The microseconds behind the whole seconds. -/
def microseconds (s : Span) : Int :=
  s.micros % microsPerSecond

/-- A span, if it is within the bounds. -/
def ofMicros? (n : Int) : Option Span :=
  let s : Span := ⟨n⟩
  if -mostDays ≤ s.days ∧ s.days ≤ mostDays then some s else none

/-- A number of minutes, if it is within the bounds. -/
def ofMinutes? (n : Int) : Option Span :=
  ofMicros? (n * microsPerMinute)

/-- The span in seconds, as the nearest double. -/
def toSeconds (s : Span) : Float :=
  Decimal.ofRatio (s.micros < 0) s.micros.natAbs microsPerSecond.natAbs

end Span

/-! ## Moments -/

/-- How an offset is named beside a time. -/
inductive OffsetName where
  /-- By its distance from universal time, such as `UTC+05:30`. -/
  | relative
  /-- By the bare distance, such as `+05:30`. -/
  | bare
deriving DecidableEq

/-- The distance of a clock from universal time, in microseconds to the east. -/
structure Offset where
  micros : Int
  name : OffsetName
deriving DecidableEq

/-- A reading of a wall clock, in microseconds since the start of the year one. -/
structure Moment where
  wall : Int
  offset : Option Offset
deriving DecidableEq

namespace Moment

open BuildingAlerts.Span

/-- The year of a wall time that may be outside of the calendar. -/
def yearOf (wall : Int) : Int :=
  let day := wall / microsPerDay
  let cycle := day / Civil.cycleDays
  400 * cycle + (Civil.ofDays (day - cycle * Civil.cycleDays).toNat).year

/-- The first wall time past the calendar. -/
def wallEnd : Int := Civil.allDays * microsPerDay

/-- Whether a wall time is in the calendar. -/
def inCalendar (wall : Int) : Bool :=
  0 ≤ wall && wall < wallEnd

/-- Universal time. -/
def utc : Offset := ⟨0, .relative⟩

/-- The moment at an instant on the universal clock. -/
def atUtc (instant : Int) : Moment :=
  ⟨instant, some utc⟩

/-- The wall time of the start of 1970 on the universal clock. -/
def epoch : Int := Civil.toDays ⟨1970, 1, 1⟩ * microsPerDay

/-- The instant that a moment names, with unknown offsets taken for universal time. -/
def instant (m : Moment) : Int :=
  match m.offset with
  | some o => m.wall - o.micros
  | none => m.wall

/-- The moment with an unknown offset taken for universal time. -/
def assumeUtc (m : Moment) : Moment :=
  match m.offset with
  | some _ => m
  | none => ⟨m.wall, some utc⟩

/-- The time from `b` to `a`; none if only one of the offsets is known. -/
def since? (a b : Moment) : Option Span :=
  if a.offset.isSome == b.offset.isSome then some ⟨a.instant - b.instant⟩ else none

/-- Whether `a` is not later than `b`. -/
def le? (a b : Moment) : Option Bool :=
  (b.since? a).map fun s => decide (0 ≤ s.micros)

/-- Whether `a` is earlier than `b`. -/
def lt? (a b : Moment) : Option Bool :=
  (b.since? a).map fun s => decide (0 < s.micros)

/-- The moment a span later on the same clock, if it is in the calendar. -/
def plus? (m : Moment) (s : Span) : Option Moment :=
  let wall := m.wall + s.micros
  if inCalendar wall then some { m with wall := wall } else none

/-- The moment a span earlier on the same clock, if it is in the calendar. -/
def minus? (m : Moment) (s : Span) : Option Moment :=
  m.plus? ⟨-s.micros⟩

/-- The days before the date on the wall. -/
def dayNumber (m : Moment) : Nat :=
  (m.wall / microsPerDay).toNat

/-- The date on the wall. -/
def date (m : Moment) : Civil :=
  Civil.ofDays m.dayNumber

/-- The microseconds since midnight on the wall. -/
def timeOfDay (m : Moment) : Nat :=
  (m.wall % microsPerDay).toNat

def hour (m : Moment) : Nat := m.timeOfDay / microsPerHour.toNat
def minute (m : Moment) : Nat := m.timeOfDay / microsPerMinute.toNat % 60
def second (m : Moment) : Nat := m.timeOfDay / microsPerSecond.toNat % 60
def microsecond (m : Moment) : Nat := m.timeOfDay % microsPerSecond.toNat

/-- The minutes since midnight on the wall. -/
def minuteOfDay (m : Moment) : Nat :=
  60 * m.hour + m.minute

/-- The day of the week on the wall, with zero for Sunday. -/
def weekday (m : Moment) : Nat :=
  Civil.sundayBased m.dayNumber

end Moment

end BuildingAlerts
