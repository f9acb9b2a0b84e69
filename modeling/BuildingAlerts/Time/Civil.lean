/-
The calendar.

Days are counted from the first of January of the year one in the Gregorian calendar carried
backwards. A date is read off the count by cycles of 400, 100, 4 and 1 years; the last day of
a long cycle belongs to its last year.
-/
set_option autoImplicit false

namespace BuildingAlerts

/-- A calendar date. -/
structure Civil where
  year : Nat
  month : Nat
  day : Nat
deriving DecidableEq

namespace Civil

/-- Whether a year has a twenty-ninth of February. -/
def isLeap (year : Nat) : Bool :=
  year % 4 == 0 && (year % 100 != 0 || year % 400 == 0)

/-- The days of a month. -/
def monthDays (year month : Nat) : Nat :=
  match month with
  | 2 => if isLeap year then 29 else 28
  | 4 | 6 | 9 | 11 => 30
  | _ => 31

/-- The days before a year. -/
def daysBeforeYear (year : Nat) : Nat :=
  let y := year - 1
  365 * y + y / 4 - y / 100 + y / 400

/-- The days of a year before a month. -/
def daysBeforeMonth (year : Nat) : Nat → Nat
  | 0 | 1 => 0
  | month + 2 => daysBeforeMonth year (month + 1) + monthDays year (month + 1)

/-- The days before a date. -/
def toDays (c : Civil) : Nat :=
  daysBeforeYear c.year + daysBeforeMonth c.year c.month + (c.day - 1)

/-- The month and day of a day of the year; `left` months are still to come. -/
def monthOf (year : Nat) : Nat → Nat → Nat × Nat
  | 0, d => (12, d + 1)
  | left + 1, d =>
    let month := 12 - left
    if d < monthDays year month then (month, d + 1)
    else monthOf year left (d - monthDays year month)

/-- The date with a given number of days before it. -/
def ofDays (n : Nat) : Civil :=
  let n400 := n / 146097
  let n := n % 146097
  let n100 := min (n / 36524) 3
  let n := n - n100 * 36524
  let n4 := n / 1461
  let n := n % 1461
  let n1 := min (n / 365) 3
  let n := n - n1 * 365
  let year := 400 * n400 + 100 * n100 + 4 * n4 + n1 + 1
  let md := monthOf year 12 n
  ⟨year, md.1, md.2⟩

/-- Whether the date is in the calendar. -/
def isValid (c : Civil) : Bool :=
  1 ≤ c.year && c.year ≤ 9999 && 1 ≤ c.month && c.month ≤ 12 && 1 ≤ c.day
    && c.day ≤ monthDays c.year c.month

/-- The number of days of the years 1 to 9999. -/
def allDays : Nat := 3652059

/-- The number of days after which the calendar repeats, which is every four hundred years. -/
def cycleDays : Nat := 146097

/-- The day of the week of a count of days, with zero for Sunday. -/
def sundayBased (days : Nat) : Nat :=
  (days + 1) % 7

end Civil

end BuildingAlerts
