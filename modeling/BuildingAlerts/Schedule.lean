/-
Times of day and on-call periods.

A window runs from one minute of the day up to, and without, another; one that starts later
than it ends runs past midnight. A window whose ends are equal is empty, while an on-call
period whose ends are equal is the whole day.
-/
import BuildingAlerts.Time.Zone
import BuildingAlerts.Decimal.Numeral

set_option autoImplicit false

namespace BuildingAlerts

/-- A minute of the day. -/
abbrev MinuteOfDay := Int

/-- The parts of a text before, between and after its colons. -/
def betweenColons : List Char → List (List Char)
  | [] => [[]]
  | ':' :: cs => [] :: betweenColons cs
  | c :: cs =>
    match betweenColons cs with
    | [] => [[c]]
    | part :: parts => (c :: part) :: parts

/-- Hours and minutes as a minute of the day. -/
def clockMinute? (s : String) : Option MinuteOfDay :=
  match betweenColons (Text.trim s.toList) with
  | [h, m] => do
    let h ← Decimal.wholeOfText? (String.ofList h)
    let m ← Decimal.wholeOfText? (String.ofList m)
    if 0 ≤ h ∧ h ≤ 23 ∧ 0 ≤ m ∧ m ≤ 59 then some (60 * h + m) else none
  | _ => none

/-- Reads a time of day. -/
def timeOfDay (s : String) : Except Fault MinuteOfDay :=
  orFault (.timeOfDay (Text.quoted s)) (clockMinute? s)

/-- Reads a time of day from a value that may not even be a text. -/
def timeOfDayValue : Json → Except Fault MinuteOfDay
  | .text s => timeOfDay s
  | v => .error (.timeOfDay v.shown)

/-- Whether a minute lies in the window from `start` up to `finish`. -/
def inWindow (minute start finish : MinuteOfDay) : Bool :=
  if start == finish then false
  else if finish < start then start ≤ minute || minute < finish
  else start ≤ minute && minute < finish

/-- Whether a moment lies in a window on the clocks of a zone. -/
def isWithinHours (m : Moment) (start finish zoneName : String) : Except Fault Bool := do
  let here ← m.local? zoneName
  let s ← timeOfDay start
  let f ← timeOfDay finish
  return inWindow here.minuteOfDay s f

/-- Whether a moment lies in a period of some days, by clocks that tell the time in a zone. The
day is that of the moment itself, also for a period that runs past midnight. -/
def isOnScheduleBy (clocks : Moment → String → Except Fault Moment) (m : Moment)
    (days : List Int) (start finish zoneName : String) : Except Fault Bool := do
  let here ← clocks m zoneName
  if !days.contains (here.weekday : Int) then return false
  let s ← timeOfDay start
  let f ← timeOfDay finish
  if s == f then return true
  return inWindow here.minuteOfDay s f

/-- Whether a moment lies in a period of some days on the clocks of a zone. -/
def isOnSchedule (m : Moment) (days : List Int) (start finish zoneName : String) :
    Except Fault Bool :=
  isOnScheduleBy Moment.local? m days start finish zoneName

/-- Digits and a unit with blanks around and between them. -/
def readPeriod? (cs : List Char) : Option (List Nat × Char) :=
  let ds := Decimal.splitDigits Text.digitValue? (cs.dropWhile Text.isBlank)
  match ds.1, ds.2.dropWhile Text.isBlank with
  | [], _ => none
  | _, [] => none
  | digits, unit :: rest =>
    if rest.all Text.isBlank then some (digits, unit) else none

/-- The microseconds of a unit of periods. -/
def periodUnit? : Char → Option Int
  | 'm' => some Span.microsPerMinute
  | 'h' => some Span.microsPerHour
  | 'd' => some Span.microsPerDay
  | 'w' => some (7 * Span.microsPerDay)
  | _ => none

/-- Reads a period such as `30m`, `24h`, `7d` or `2w`. -/
def period (s : String) : Except Fault Span := do
  let bad := Fault.period (Text.quoted s)
  let (digits, unit) ← orFault bad (readPeriod? s.toList)
  let size ← orFault bad (periodUnit? unit)
  if Decimal.mostDigits < digits.length then .error (.tooManyDigits digits.length)
  orFault .outOfBounds (Span.ofMicros? (Text.digitsToNat digits * size))

/-- Reads a period from a value that may not be a text; an absent one is no period. -/
def periodValue (v : Json) : Except Fault Span :=
  match v with
  | .text s => period s
  | v => if v.isPresent then .error .unfit else .error (.period v.shown)

end BuildingAlerts
