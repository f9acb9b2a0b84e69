/-
Time zones.

A zone has a standard offset and, where clocks are changed, the two Sundays of the year on
which summer time starts and ends. South of the equator it starts later in the year than it
ends.
-/
import BuildingAlerts.Time.Moment
import BuildingAlerts.Fault

set_option autoImplicit false

namespace BuildingAlerts

/-- Which Sunday of a month. -/
inductive Sunday where
  | first | second | last

/-- A change of clocks: a Sunday of a month, and the minute of that day on the clock that is
in force until then. -/
structure ClockChange where
  month : Nat
  sunday : Sunday
  minute : Nat

/-- The change to summer time and back, and how far the clocks are moved. -/
structure Summer where
  start : ClockChange
  finish : ClockChange
  shift : Int

/-- A time zone. Offsets are in minutes to the east. -/
structure Zone where
  standard : Int
  summer : Option Summer

namespace Zone

/-- The day number of a Sunday of a month. -/
def sundayOf (year month : Nat) : Sunday → Nat
  | .first => nthSunday year month 0
  | .second => nthSunday year month 1
  | .last =>
    let final := Civil.toDays ⟨year, month, Civil.monthDays year month⟩
    final - Civil.sundayBased final
where
  nthSunday (year month n : Nat) : Nat :=
    let start := Civil.toDays ⟨year, month, 1⟩
    start + (7 - Civil.sundayBased start) % 7 + 7 * n

/-- The instant of a change of clocks in a year, in microseconds. -/
def changeAt (year : Nat) (c : ClockChange) (offsetBefore : Int) : Int :=
  let day : Int := sundayOf year c.month c.sunday
  day * Span.microsPerDay + ((c.minute : Int) - offsetBefore) * Span.microsPerMinute

/-- The offset in force at an instant, in minutes. -/
def offsetAt (z : Zone) (instant : Int) : Int :=
  match z.summer with
  | none => z.standard
  | some s =>
    let year := (Civil.ofDays ((instant + z.standard * Span.microsPerMinute)
      / Span.microsPerDay).toNat).year
    let start := changeAt year s.start z.standard
    let finish := changeAt year s.finish (z.standard + s.shift)
    let isSummer :=
      if start < finish then start ≤ instant && instant < finish
      else start ≤ instant || instant < finish
    if isSummer then z.standard + s.shift else z.standard

/-- Two in the morning of the second Sunday of March to two of the first of November. -/
def northAmerica : Summer :=
  ⟨⟨3, .second, 120⟩, ⟨11, .first, 120⟩, 60⟩

/-- One in the morning, universal time, of the last Sundays of March and October. -/
def europe : Summer :=
  ⟨⟨3, .last, 60⟩, ⟨10, .last, 120⟩, 60⟩

/-- The zones by name. -/
def named : List (String × Zone) := [
  ("UTC", ⟨0, none⟩),
  ("America/New_York", ⟨-300, some northAmerica⟩),
  ("America/St_Johns", ⟨-210, some northAmerica⟩),
  ("Europe/London", ⟨0, some europe⟩),
  ("Asia/Kolkata", ⟨330, none⟩),
  ("Asia/Kathmandu", ⟨345, none⟩),
  ("Asia/Tokyo", ⟨540, none⟩),
  ("Australia/Sydney", ⟨600, some ⟨⟨10, .first, 120⟩, ⟨4, .first, 180⟩, 60⟩⟩),
  ("Australia/Lord_Howe", ⟨630, some ⟨⟨10, .first, 120⟩, ⟨4, .first, 120⟩, 30⟩⟩),
  ("Pacific/Kiritimati", ⟨840, none⟩)]

/-- The zone of a name; no name at all means universal time. -/
def find? (name : String) : Except Fault Zone :=
  orFault (.unknownZone name) (named.lookup (if name.isEmpty then "UTC" else name))

end Zone

namespace Moment

/-- The moment on the clocks of a zone. It stays in the calendar, also on the way there. -/
def inZone (m : Moment) (z : Zone) : Except Fault Moment :=
  let instant := m.instant
  let offset := z.offsetAt instant * Span.microsPerMinute
  let wall := instant + offset
  if inCalendar instant && inCalendar wall then .ok ⟨wall, some ⟨offset, .relative⟩⟩
  else .error .outOfBounds

/-- The moment on the clocks of the zone of a name. -/
def local? (m : Moment) (zoneName : String) : Except Fault Moment := do
  let z ← Zone.find? zoneName
  m.inZone z

end Moment

end BuildingAlerts
