/-
Reading moments.

Two grammars read moments. The wide one takes the dates and times of the international
standard, in their long and short forms, with any character between them. The narrow one is
that of documents: a date, a time with a colon, and an offset, or a count of seconds since
1970, which is taken in thousandths when it is too large to be one of seconds.
-/
import BuildingAlerts.Time.Moment
import BuildingAlerts.Decimal.Numeral

set_option autoImplicit false

namespace BuildingAlerts

open Decimal (arabicDigit? readReal?)

/-- The number written by exactly `width` digits at the front, and the rest. -/
def takeDigits? : Nat → List Char → Option (Nat × List Char)
  | 0, cs => some (0, cs)
  | width + 1, c :: cs =>
    match arabicDigit? c, takeDigits? width cs with
    | some d, some (n, rest) => some (d * Decimal.tenTo width + n, rest)
    | _, _ => none
  | _ + 1, [] => none

/-- The rest behind a given character. -/
def dropMark? (mark : Char) : List Char → Option (List Char)
  | c :: cs => if c == mark then some cs else none
  | [] => none

/-- The rest behind a given character if it stands in front, and whether it did. -/
def dropOptional (mark : Char) : List Char → Bool × List Char
  | c :: cs => if c == mark then (true, cs) else (false, c :: cs)
  | [] => (false, [])

/-- A time of day in microseconds, if its parts are in range. -/
def timeOfParts? (h m s us : Nat) : Option Int :=
  if h < 24 && m < 60 && s < 60 then some ((((h * 60 + m) * 60 + s) * 1000000 + us : Nat) : Int)
  else none

/-- The microseconds of the first six digits of a fraction. -/
def fractionMicros (ds : List Nat) : Nat :=
  let six := ds.take 6
  Text.digitsToNat six * Decimal.tenTo (6 - six.length)

/-- The days before a date, counted like all days. The year zero is the one before the first
of the calendar. -/
def daysBefore (c : Civil) : Int :=
  if c.year == 0 then Civil.toDays { c with year := 400 } - Civil.cycleDays else c.toDays

/-- The first day of the first week of a year, counted like all days. Weeks start on Monday
and the first one holds the fourth of January. -/
def firstWeek (year : Nat) : Int :=
  let fourth := daysBefore ⟨year, 1, 4⟩
  fourth - fourth % 7

/-- The number of weeks of a year. -/
def weeksOf (year : Nat) : Int :=
  (firstWeek (year + 1) - firstWeek year) / 7

/-- What may be wrong with a written moment. -/
inductive MomentFlaw where
  /-- It has not the form of a moment. -/
  | shape
  /-- A part of it is out of its range. -/
  | year (n : Int) | month | day | hour | minute | second
  /-- Its offset is a day or more. -/
  | offset (distance : Span)
deriving DecidableEq

namespace Moment

/-! ## The wide grammar -/

/-- The parts of a written time. It is exact if nothing is left behind them. -/
structure ClockParts where
  hour : Nat
  minute : Nat
  second : Nat
  micros : Nat
  exact : Bool

/-- Whether a text ends. A null character ends it like the end itself. -/
def endsHere : List Char → Bool
  | [] => true
  | c :: _ => c.toNat == 0

/-- How a written time goes on behind two of its digits. -/
inductive Onward where
  | ends (exact : Bool)
  | part (cs : List Char)
  | fraction (cs : List Char)

/-- How a written time goes on. A single last ASCII character is passed over, and a point or
comma starts the fraction of what stands before it. Colons stand between all parts or none. -/
def onward? (colons : Bool) : List Char → Option Onward
  | [] => some (.ends true)
  | c :: cs =>
    if cs.isEmpty && c.toNat < 0x80 then some (.ends (endsHere [c]))
    else if colons && c == ':' then some (.part cs)
    else if c == '.' || c == ',' then some (.fraction cs)
    else if colons then none
    else some (.part (c :: cs))

/-- The microseconds of a fraction and whether nothing is left behind it. Its first six
characters are digits, or all of them if there are fewer. -/
def readFraction? (cs : List Char) : Option (Nat × Bool) := do
  let six := cs.take 6
  match Decimal.splitDigits arabicDigit? six with
  | (ds, []) => some (fractionMicros ds, endsHere ((cs.drop 6).dropWhile Char.isDigit))
  | _ => none

/-- The parts of a written time: hours, minutes, seconds and a fraction. -/
def readClock? (cs : List Char) : Option ClockParts := do
  let fraction? (h m s : Nat) (cs : List Char) : Option ClockParts :=
    (readFraction? cs).map fun (us, exact) => ⟨h, m, s, us, exact⟩
  let (h, cs) ← takeDigits? 2 cs
  let colons := cs.head? == some ':'
  match ← onward? colons cs with
  | .ends exact => some ⟨h, 0, 0, 0, exact⟩
  | .fraction cs => fraction? h 0 0 cs
  | .part cs =>
    let (m, cs) ← takeDigits? 2 cs
    match ← onward? colons cs with
    | .ends exact => some ⟨h, m, 0, 0, exact⟩
    | .fraction cs => fraction? h m 0 cs
    | .part cs =>
      let (s, cs) ← takeDigits? 2 cs
      match ← onward? colons cs with
      | .ends exact => some ⟨h, m, s, 0, exact⟩
      | .fraction cs | .part cs => fraction? h m s cs

/-- The distance that an offset names after its sign. -/
def readOffset? (west : Bool) (cs : List Char) : Option Span := do
  let p ← readClock? cs
  let seconds := (p.hour * 60 + p.minute) * 60 + p.second
  let n : Int := if seconds == 0 then 0 else seconds * 1000000 + p.micros
  if p.exact then some ⟨if west then -n else n⟩ else none

/-- A time with an optional offset. -/
def readTime? (cs : List Char) : Option (ClockParts × Option Span) := do
  let clock := cs.takeWhile fun c => c != '+' && c != '-' && c != 'Z'
  let p ← readClock? clock
  match cs.drop clock.length with
  | [] => if p.exact then some (p, none) else none
  | '+' :: rest => (readOffset? false rest).map fun o => (p, some o)
  | '-' :: rest => (readOffset? true rest).map fun o => (p, some o)
  | _ :: rest => if endsHere rest then some (p, some ⟨0⟩) else none

/-- How many characters the date takes. Where a week is followed by digits alone, their
number decides whether the first of them is the day. -/
def dateLength? (cs : List Char) : Option Nat :=
  let digitAt (i : Nat) : Bool := (cs[i]?.map Char.isDigit).getD false
  if cs.length < 7 then none
  else if cs.length == 7 then some 7
  else if cs[4]? == some '-' then
    if cs[5]? != some 'W' then some 10
    else if cs[8]? != some '-' then some 8
    else if cs.length == 9 then none
    else if cs.length > 10 && digitAt 10 then some 8
    else some 10
  else if cs[4]? == some 'W' then
    let digits := 7 + ((cs.drop 7).takeWhile Char.isDigit).length
    if digits < 9 then some digits
    else if digits % 2 == 0 then some 7
    else some 8
  else some 8

/-- A date as it is written. -/
inductive WrittenDate where
  | day (year month day : Nat)
  | week (year week day : Nat)

/-- A date that takes a given number of characters. -/
def readDate? (length : Nat) (cs : List Char) : Option WrittenDate := do
  let taken (rest : List Char) : Nat := cs.length - rest.length
  let (y, rest) ← takeDigits? 4 cs
  let dash := dropOptional '-' rest
  match dropMark? 'W' dash.2 with
  | some rest =>
    let (w, rest) ← takeDigits? 2 rest
    if taken rest < length then
      let rest ← if dash.1 then dropMark? '-' rest else some rest
      let (d, _) ← takeDigits? 1 rest
      some (.week y w d)
    else some (.week y w 1)
  | none =>
    let (m, rest) ← takeDigits? 2 dash.2
    let rest ← if dash.1 then dropMark? '-' rest else some rest
    let (d, rest) ← takeDigits? 2 rest
    if taken rest == length then some (.day y m d) else none

/-- The days before a written date. -/
def WrittenDate.toDays : WrittenDate → Except MomentFlaw Int
  | .day y m d =>
    if y == 0 then .error (.year 0)
    else if m == 0 || 12 < m then .error .month
    else if (⟨y, m, d⟩ : Civil).isValid then .ok (Civil.toDays ⟨y, m, d⟩)
    else .error .day
  | .week y w d =>
    let n := firstWeek y + 7 * ((w : Int) - 1) + ((d : Int) - 1)
    if y == 0 then .error .month
    else if Civil.allDays ≤ n then .error (.year (y + 1))
    else .ok n

/-- Whether a written date names a week and a day that there are. -/
def WrittenDate.isWeekday : WrittenDate → Bool
  | .day .. => true
  | .week y w d => 1 ≤ w && (w : Int) ≤ weeksOf y && 1 ≤ d && d ≤ 7

/-- The microseconds since midnight of a written time. -/
def ClockParts.toMicros (p : ClockParts) : Except MomentFlaw Int :=
  if 24 ≤ p.hour then .error .hour
  else if 60 ≤ p.minute then .error .minute
  else if 60 ≤ p.second then .error .second
  else .ok ((((p.hour * 60 + p.minute) * 60 + p.second) * 1000000 + p.micros : Nat) : Int)

/-- The offset of a distance. -/
def offsetOf (s : Span) : Except MomentFlaw Offset :=
  if s.micros.natAbs < Span.microsPerDay.natAbs then .ok ⟨s.micros, .relative⟩
  else .error (.offset s)

/-- Reads a moment by the wide grammar. -/
def read (s : String) : Except MomentFlaw Moment := do
  let some length := dateLength? s.toList | .error .shape
  let some date := readDate? length s.toList | .error .shape
  if !date.isWeekday then .error .shape
  match s.toList.drop length with
  | [] => return ⟨(← date.toDays) * Span.microsPerDay, none⟩
  | _ :: time =>
    let some (clock, distance) := readTime? time | .error .shape
    let offset ← distance.mapM offsetOf
    let day ← date.toDays
    return ⟨day * Span.microsPerDay + (← clock.toMicros), offset⟩

/-! ## The narrow grammar -/

/-- The days before a date, if there is such a date. The year zero counts as one. -/
def dayOfDate? (c : Civil) : Option Int :=
  if 1 ≤ c.month && c.month ≤ 12 && 1 ≤ c.day && c.day ≤ Civil.monthDays c.year c.month then
    some (daysBefore c)
  else none

/-- A date with dashes at the front, and the rest. -/
def readDocumentDay? (cs : List Char) : Option (Int × List Char) := do
  let (y, cs) ← takeDigits? 4 cs
  let cs ← dropMark? '-' cs
  let (m, cs) ← takeDigits? 2 cs
  let cs ← dropMark? '-' cs
  let (d, cs) ← takeDigits? 2 cs
  (dayOfDate? ⟨y, m, d⟩).map fun n => (n, cs)

/-- The seconds behind a colon with an optional fraction, and the rest. -/
def readDocumentSeconds? (cs : List Char) : Option (Nat × Nat × List Char) :=
  match cs with
  | ':' :: cs => do
    let (s, cs) ← takeDigits? 2 cs
    match cs with
    | c :: rest =>
      if c == '.' || c == ',' then
        match Decimal.splitDigits arabicDigit? rest with
        | ([], _) => none
        | (ds, after) => some (s, fractionMicros ds, after)
      else some (s, 0, cs)
    | [] => some (s, 0, [])
  | cs => some (0, 0, cs)

/-- The offset that ends a written moment. -/
def readDocumentOffset? (cs : List Char) : Option (Option Offset) :=
  let distance? (west : Bool) (cs : List Char) : Option (Option Offset) := do
    let (h, cs) ← takeDigits? 2 cs
    let (m, cs) ← takeDigits? 2 (dropOptional ':' cs).2
    let n : Int := (h * 60 + m : Nat) * Span.microsPerMinute
    if cs.isEmpty && m < 60 && n < Span.microsPerDay then
      some (some ⟨if west then -n else n, .bare⟩)
    else none
  match cs with
  | [] => some none
  | '+' :: rest => distance? false rest
  | c :: rest =>
    if c == 'Z' || c == 'z' then if rest.isEmpty then some (some utc) else none
    else if c == '-' || c.toNat == 0x2212 then distance? true rest
    else none

/-- A written moment of a document. -/
def readDocumentText? (s : String) : Option Moment := do
  let (day, rest) ← readDocumentDay? s.toList
  match rest with
  | [] => some ⟨day * Span.microsPerDay, none⟩
  | mark :: cs =>
    if mark == 'T' || mark == 't' || mark == ' ' || mark == '_' then
      let (h, cs) ← takeDigits? 2 cs
      let cs ← dropMark? ':' cs
      let (m, cs) ← takeDigits? 2 cs
      let (sec, us, cs) ← readDocumentSeconds? cs
      let t ← timeOfParts? h m sec us
      let offset ← readDocumentOffset? cs
      some ⟨day * Span.microsPerDay + t, offset⟩
    else none

/-- Counts beyond this are taken in thousandths of a second. -/
def secondsLimit : Nat := 20000000000

/-- The wall time of the start of the year zero. Moments before it are not read. -/
def yearZero : Int := daysBefore ⟨0, 1, 1⟩ * Span.microsPerDay

/-- The moment of a whole count since 1970 and some microseconds, of which there are at most
a million. -/
def ofCount? (count : Int) (us : Nat) : Option Moment :=
  let micros : Int :=
    if secondsLimit < count.natAbs then count * 1000 + us else count * 1000000 + us
  let wall := epoch + micros
  if yearZero ≤ wall && wall < wallEnd then some (atUtc wall) else none

/-- The largest count that is read. -/
def countBound : Int := Decimal.twoTo 63

/-- The moment of a count since 1970 that is a double. A count of thousandths is first brought
to seconds; its microseconds are rounded, a half away from zero. -/
def ofReal? (x : Float) : Option Moment :=
  let seconds := if secondsLimit.toFloat < x.abs then x / 1000.0 else x
  match Decimal.shape seconds.floor with
  | .finite b =>
    let r := Decimal.scaleByTwo b.mantissa 1 b.exponent
    let n : Int := (r.1 / r.2 : Nat)
    let whole := if b.negative then -n else n
    if whole.natAbs < countBound.natAbs then
      ofCount? whole ((seconds - seconds.floor) * 1000000.0).round.toUInt64.toNat
    else none
  | _ => none

end Moment

end BuildingAlerts
