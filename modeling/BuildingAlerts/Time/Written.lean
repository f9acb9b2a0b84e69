/-
Moments as text.

The full form is a date, a `T`, a time with microseconds only where there are some, and the
offset. Messages have shorter forms that end in the name of the offset.
-/
import BuildingAlerts.Time.Moment

set_option autoImplicit false

namespace BuildingAlerts

open Decimal (padded)

/-- A number with at least two digits. -/
def twoDigits (n : Nat) : String :=
  String.ofList (padded 2 n)

/-- Hours, minutes and what follows them of a distance in microseconds. -/
def Offset.distance (o : Offset) : String :=
  let n := o.micros.natAbs
  let us := n % 1000000
  let s := n / 1000000 % 60
  let m := n / 60000000 % 60
  let h := n / 3600000000
  let sign := if o.micros < 0 then "-" else "+"
  let base := sign ++ twoDigits h ++ ":" ++ twoDigits m
  if us != 0 then base ++ ":" ++ twoDigits s ++ "." ++ String.ofList (padded 6 us)
  else if s != 0 then base ++ ":" ++ twoDigits s
  else base

/-- The name of an offset beside a time. -/
def Offset.label (o : Offset) : String :=
  if o.micros == 0 then "UTC"
  else match o.name with
    | .relative => "UTC" ++ o.distance
    | .bare => o.distance

/-- A span with the names of its parts that are not zero. -/
def Span.shown (s : Span) : String :=
  let parts := [("days", s.days), ("seconds", s.seconds), ("microseconds", s.microseconds)]
  let named := (parts.filter (·.2 != 0)).map fun (name, n) => name ++ "=" ++ toString n
  "datetime.timedelta(" ++ (if named.isEmpty then "0" else String.intercalate ", " named) ++ ")"

namespace Moment

/-- Year, month and day. -/
def dateText (m : Moment) : String :=
  let d := m.date
  String.ofList (padded 4 d.year) ++ "-" ++ twoDigits d.month ++ "-" ++ twoDigits d.day

/-- Year, month and day, with no zeros in front of the year. -/
def shortDateText (m : Moment) : String :=
  let d := m.date
  toString d.year ++ "-" ++ twoDigits d.month ++ "-" ++ twoDigits d.day

/-- Hours and minutes. -/
def clockText (m : Moment) : String :=
  twoDigits m.hour ++ ":" ++ twoDigits m.minute

/-- Hours, minutes and seconds. -/
def secondsText (m : Moment) : String :=
  m.clockText ++ ":" ++ twoDigits m.second

/-- The full form with a given mark between date and time. -/
def write (m : Moment) (mark : String) : String :=
  let fraction :=
    if m.microsecond == 0 then "" else "." ++ String.ofList (padded 6 m.microsecond)
  let zone := match m.offset with
    | some o => o.distance
    | none => ""
  m.dateText ++ mark ++ m.secondsText ++ fraction ++ zone

/-- The full form. -/
def iso (m : Moment) : String :=
  m.write "T"

/-- The name of the offset, empty when it is not known. -/
def zoneLabel (m : Moment) : String :=
  match m.offset with
  | some o => o.label
  | none => ""

end Moment

end BuildingAlerts
