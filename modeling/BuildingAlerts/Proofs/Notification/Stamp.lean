/-
The time that a chat message shows.

The stamp of a chat message shows the date and the minute on the clock by which its alert triggered,
and calls it universal time. Whether that is so is a question about the texts of two moments. A date
is read off a count of days that it leads back to, and digits off a number that they lead back to,
so two moments of the calendar show the same text exactly within the same minute of their clocks. A
snapshot of a document is dated by a clock that is off by whole minutes, and an alert is raised at
the time of its snapshot: its message is right only where that clock is universal time.
-/
import BuildingAlerts.Json.Access
import BuildingAlerts.Notification.Rendering
import BuildingAlerts.Proofs.Document.Yields
import BuildingAlerts.Proofs.Rule.Accepted
import BuildingAlerts.Time.Zone
import Mathlib.Logic.Function.Basic

set_option autoImplicit false

namespace BuildingAlerts

/-! ## Days and dates -/

namespace Civil

/-- A month and a day lead back to the day of the year, unless the year has no such day. -/
theorem daysBeforeMonth_monthOf {year left d : Nat} (hleft : left ≤ 12)
    (hd : daysBeforeMonth year (13 - left) + d < daysBeforeMonth year 13) :
    daysBeforeMonth year (monthOf year left d).1 + ((monthOf year left d).2 - 1)
      = daysBeforeMonth year (13 - left) + d := by
  -- on the months that are left: the day is in the first of them, or that month is passed over
  induction left generalizing d with
  | zero => exact absurd hd (Nat.not_lt.mpr (Nat.le_add_right _ d))
  | succ left ih =>
    obtain ⟨month, hmonth⟩ : ∃ month, 12 - left = month + 1 := ⟨11 - left, by omega⟩
    have hhere : 13 - (left + 1) = 12 - left := by omega
    have hnext : 13 - left = month + 2 := by omega
    have hstep : daysBeforeMonth year (13 - left)
        = daysBeforeMonth year (12 - left) + monthDays year (12 - left) := by
      rw [hnext, hmonth, daysBeforeMonth]
    rw [hhere] at hd ⊢
    unfold monthOf
    dsimp only
    split
    · rfl
    · rw [ih (by omega) (by omega)]
      omega

theorem daysBeforeMonth_thirteen (year : Nat) :
    daysBeforeMonth year 13 = if isLeap year then 366 else 365 := by
  simp only [daysBeforeMonth, monthDays]
  split <;> rfl

/-- A year ends a cycle of four years unless it ends one of a hundred years only. -/
theorem isLeap_of_cycles {a b c : Nat} (hb : b ≤ 3) (hc : c = 24 → b = 3) (hc' : c ≤ 24) :
    isLeap (400 * a + 100 * b + 4 * c + 3 + 1) = true := by
  unfold isLeap
  rw [Bool.and_eq_true, Bool.or_eq_true, beq_iff_eq, bne_iff_ne, beq_iff_eq]
  refine ⟨by omega, ?_⟩
  by_cases hlast : c = 24
  · right
    obtain rfl := hc hlast
    omega
  · left
    omega

theorem daysBeforeYear_of_cycles {a b c d : Nat} (hb : b ≤ 3) (hc : c ≤ 24) (hd : d ≤ 3) :
    daysBeforeYear (400 * a + 100 * b + 4 * c + d + 1)
      = 146097 * a + 36524 * b + 1461 * c + 365 * d := by
  have h4 : (400 * a + 100 * b + 4 * c + d) / 4 = 100 * a + 25 * b + c := by omega
  have h100 : (400 * a + 100 * b + 4 * c + d) / 100 = 4 * a + b := by omega
  have h400 : (400 * a + 100 * b + 4 * c + d) / 400 = a := by omega
  unfold daysBeforeYear
  dsimp only
  rw [Nat.add_sub_cancel, h4, h100, h400]
  omega

/-- A date leads back to the count of days that it was read off. -/
theorem toDays_ofDays (n : Nat) : (ofDays n).toDays = n := by
  let a := n / 146097
  let r := n % 146097
  let b := min (r / 36524) 3
  let s := r - b * 36524
  let c := s / 1461
  let t := s % 1461
  let d := min (t / 365) 3
  let rest := t - d * 365
  let year := 400 * a + 100 * b + 4 * c + d + 1
  have hdate : ofDays n = ⟨year, (monthOf year 12 rest).1, (monthOf year 12 rest).2⟩ := rfl
  have hr : r < 146097 := Nat.mod_lt _ (by decide)
  have hb : b ≤ 3 := Nat.min_le_right _ _
  -- the last of four cycles or years may be a day longer than the others
  have hs : s < 36524 ∨ s = 36524 ∧ b = 3 := by omega
  have hc : c ≤ 24 := by omega
  have ht : t < 1461 := Nat.mod_lt _ (by decide)
  have hd : d ≤ 3 := Nat.min_le_right _ _
  have hrest : rest < 365 ∨ rest = 365 ∧ d = 3 := by omega
  have hyear : daysBeforeYear year + rest = n := by
    have hdays : daysBeforeYear year = 146097 * a + 36524 * b + 1461 * c + 365 * d :=
      daysBeforeYear_of_cycles hb hc hd
    omega
  have hend : rest < daysBeforeMonth year 13 := by
    rw [daysBeforeMonth_thirteen]
    rcases hrest with hrest | ⟨hrest, hlast⟩
    · split <;> omega
    · -- the day after the last of an ordinary year ends a cycle of four years
      have hleap : isLeap year = true := by
        have hyear : year = 400 * a + 100 * b + 4 * c + 3 + 1 := by omega
        rw [hyear]
        exact isLeap_of_cycles hb (by omega) hc
      rw [if_pos hleap]
      omega
  have hmonth : daysBeforeMonth year (monthOf year 12 rest).1 + ((monthOf year 12 rest).2 - 1)
      = rest := by
    have hfirst : daysBeforeMonth year (13 - 12) = 0 := rfl
    rw [daysBeforeMonth_monthOf (Nat.le_refl 12) (by omega), hfirst, Nat.zero_add]
  rw [hdate, toDays, Nat.add_assoc, hmonth, hyear]

theorem eq_iff {c d : Civil} : c = d ↔ c.year = d.year ∧ c.month = d.month ∧ c.day = d.day := by
  cases c
  cases d
  rw [mk.injEq]

theorem ofDays_inj {m n : Nat} : ofDays m = ofDays n ↔ m = n :=
  Function.LeftInverse.injective toDays_ofDays |>.eq_iff

end Civil

/-! ## Digits -/

namespace Decimal

theorem ofDigitChars_padded (width n : Nat) : Nat.ofDigitChars 10 (padded width n) 0 = n := by
  unfold padded
  rw [Nat.ofDigitChars_append, Nat.ofDigitChars_replicate_zero, Nat.mul_zero,
    Nat.ofDigitChars_ten_toDigits]

theorem padded_inj {width m n : Nat} : padded width m = padded width n ↔ m = n := by
  refine ⟨fun h => ?_, fun h => by rw [h]⟩
  rw [← ofDigitChars_padded width m, h, ofDigitChars_padded]

theorem isDigit_of_mem_padded {width n : Nat} {c : Char} (h : c ∈ padded width n) :
    c.isDigit = true := by
  rcases List.mem_append.mp h with h | h
  · rw [List.eq_of_mem_replicate h]
    decide
  · exact Nat.isDigit_of_mem_toDigits (by decide) (by decide) h

/-- What follows a number begins at the first character that is no digit. -/
theorem padded_append_inj {width m n : Nat} {c : Char} {cs ds : List Char}
    (hc : c.isDigit = false) :
    padded width m ++ c :: cs = padded width n ++ c :: ds ↔ m = n ∧ cs = ds := by
  -- the number is what stands before the first character that is no digit
  have hdigits (k : Nat) (es : List Char) :
      (padded width k ++ c :: es).takeWhile Char.isDigit = padded width k := by
    rw [List.takeWhile_append_of_pos fun _ h => isDigit_of_mem_padded h,
      List.takeWhile_cons_of_neg (by rw [hc]; decide), List.append_nil]
  refine ⟨fun h => ?_, fun ⟨hm, hcs⟩ => by rw [hm, hcs]⟩
  have hpadded : padded width m = padded width n := by
    rw [← hdigits m cs, h, hdigits]
  obtain rfl : m = n := padded_inj.mp hpadded
  exact ⟨rfl, (List.cons.inj (List.append_cancel_left h)).2⟩

end Decimal

/-! ## Texts of moments -/

namespace Moment

open Decimal (padded)

/-- The date and the minute on the wall as messages show them. -/
def minuteText (m : Moment) : String :=
  m.shortDateText ++ " " ++ m.clockText

/-- The minutes on the wall since the start of the year one. -/
def minuteCount (m : Moment) : Int :=
  m.wall / Span.microsPerMinute

theorem toList_minuteText (m : Moment) :
    m.minuteText.toList = padded 0 m.date.year ++ '-' :: (padded 2 m.date.month ++ '-' ::
      (padded 2 m.date.day ++ ' ' :: (padded 2 m.hour ++ ':' :: padded 2 m.minute))) := by
  have hyear : (toString m.date.year).toList = padded 0 m.date.year := by
    unfold padded
    dsimp only
    rw [Nat.zero_sub]
    exact Nat.toList_repr
  have hdash : "-".toList = ['-'] := by decide
  have hblank : " ".toList = [' '] := by decide
  have hcolon : ":".toList = [':'] := by decide
  unfold minuteText shortDateText clockText twoDigits
  simp only [String.toList_append, String.toList_ofList, hyear, hdash, hblank, hcolon,
    List.append_assoc, List.cons_append, List.nil_append]

theorem minuteText_inj {a b : Moment} : a.minuteText = b.minuteText ↔
    a.dayNumber = b.dayNumber ∧ a.hour = b.hour ∧ a.minute = b.minute := by
  have hdash : Char.isDigit '-' = false := by decide
  have hblank : Char.isDigit ' ' = false := by decide
  have hcolon : Char.isDigit ':' = false := by decide
  have hdate : a.dayNumber = b.dayNumber ↔ a.date = b.date := Civil.ofDays_inj.symm
  rw [← String.toList_inj, toList_minuteText, toList_minuteText,
    Decimal.padded_append_inj hdash, Decimal.padded_append_inj hdash,
    Decimal.padded_append_inj hblank, Decimal.padded_append_inj hcolon, Decimal.padded_inj,
    hdate, Civil.eq_iff, and_assoc, and_assoc]

/-- Moments of the calendar show the same text exactly within the same minute. -/
theorem minuteText_eq_iff {a b : Moment} (ha : inCalendar a.wall = true)
    (hb : inCalendar b.wall = true) :
    a.minuteText = b.minuteText ↔ a.minuteCount = b.minuteCount := by
  have hday : Span.microsPerDay = 86400000000 := by decide
  have hhour : Span.microsPerHour.toNat = 3600000000 := by decide
  have hminute : Span.microsPerMinute = 60000000 := by decide
  have hcount {m : Moment} (hm : inCalendar m.wall = true) :
      m.minuteCount = 1440 * m.dayNumber + 60 * m.hour + m.minute
        ∧ m.hour < 24 ∧ m.minute < 60 := by
    have hwall : 0 ≤ m.wall := by
      unfold inCalendar at hm
      rw [Bool.and_eq_true, decide_eq_true_iff] at hm
      exact hm.1
    unfold minuteCount dayNumber hour minute timeOfDay
    rw [hday, hhour, hminute, show (60000000 : Int).toNat = 60000000 from rfl]
    omega
  obtain ⟨ha, hahour, haminute⟩ := hcount ha
  obtain ⟨hb, hbhour, hbminute⟩ := hcount hb
  rw [minuteText_inj]
  omega

/-! ## Universal time -/

/-- On the clocks of universal time a moment shows its instant, if that is in the calendar. -/
theorem local?_utc {m u : Moment} :
    m.local? "UTC" = .ok u ↔ inCalendar m.instant = true ∧ u = atUtc m.instant := by
  have hzone : m.local? "UTC" = m.inZone ⟨0, none⟩ := rfl
  have hoffset : (⟨0, none⟩ : Zone).offsetAt m.instant * Span.microsPerMinute = 0 := rfl
  rw [hzone]
  unfold inZone
  dsimp only
  rw [hoffset, Int.add_zero, Bool.and_self]
  split
  · rename_i hm
    rw [Except.ok.injEq]
    exact ⟨fun h => ⟨hm, h.symm⟩, fun h => h.2.symm⟩
  · rename_i hm
    exact ⟨nofun, fun h => absurd h.1 hm⟩

/-- A clock that is off by whole minutes is right only if it is not off at all. -/
theorem minuteCount_utc_iff {m u : Moment} {o : Offset} (ho : m.offset = some o)
    (hminutes : Span.microsPerMinute ∣ o.micros) (hu : m.local? "UTC" = .ok u) :
    m.minuteCount = u.minuteCount ↔ o.micros = 0 := by
  obtain ⟨-, rfl⟩ := local?_utc.mp hu
  have hinstant : m.instant = m.wall - o.micros := by
    unfold instant
    rw [ho]
  have hminute : Span.microsPerMinute = 60000000 := by decide
  obtain ⟨k, hk⟩ := hminutes
  unfold minuteCount atUtc
  rw [hinstant]
  rw [hminute] at hk ⊢
  dsimp only
  omega

/-- Clocks that are off by whole minutes show the same at one instant only if they agree. -/
theorem minuteCount_eq_iff {a b : Moment} {o o' : Offset} (ha : a.offset = some o)
    (hb : b.offset = some o') (hminutes : Span.microsPerMinute ∣ o.micros)
    (hminutes' : Span.microsPerMinute ∣ o'.micros) (h : a.instant = b.instant) :
    a.minuteCount = b.minuteCount ↔ o.micros = o'.micros := by
  have hminute : Span.microsPerMinute = 60000000 := by decide
  obtain ⟨k, hk⟩ := hminutes
  obtain ⟨k', hk'⟩ := hminutes'
  unfold instant at h
  rw [ha, hb] at h
  unfold minuteCount
  rw [hminute] at *
  dsimp only at h
  omega

end Moment

/-! ## Chat messages -/

namespace Rendering

/-- A chat message whose stamp says that its alert triggered at a time of the universal clock. -/
def LabelsUtc (body : Json) (a : Alert) (time : String) : Prop :=
  ∃ blocks, body.part "blocks" = .list (blocks ++ [.object [("type", .text "context"),
    ("elements", .list [chatText "mrkdwn" ("_Alert " ++ a.id ++ " | " ++ time ++ " UTC_")])]])

/-- The stamp shows what the clock showed by which the alert triggered. -/
theorem labelsUtc_chatBody {a : Alert} (h : a.severity.isSome = true) (c : Content)
    (options : List (String × Json)) :
    ∃ body, chatBody a c options = .ok body ∧
      ∀ time, LabelsUtc body a time ↔ time = a.triggeredAt.minuteText := by
  obtain ⟨severity, hseverity⟩ := Option.isSome_iff_exists.mp h
  have hstamp : chatStamp a
      = "_Alert " ++ a.id ++ " | " ++ a.triggeredAt.minuteText ++ " UTC_" := by
    unfold chatStamp Moment.minuteText
    simp only [String.append_assoc]
  unfold chatBody
  rw [hseverity]
  refine ⟨_, rfl, fun time => ?_⟩
  unfold LabelsUtc
  rw [hstamp]
  constructor
  · rintro ⟨blocks, hblocks⟩
    -- whatever blocks come first, the stamp is the last one
    have hlast := List.append_inj_right' (Json.list.inj hblocks) rfl
    simp only [chatText, List.cons.injEq, Json.object.injEq, Prod.mk.injEq, Json.list.injEq,
      Json.text.injEq, and_true, true_and] at hlast
    exact ((String.append_right_inj _).mp ((String.append_left_inj _).mp hlast)).symm
  · rintro rfl
    exact ⟨_, rfl⟩

end Rendering

/-- An alert that a rule raises about a snapshot. -/
def Alert.IsRaisedFrom (a : Alert) (s : Snapshot) : Prop :=
  ∃ (r : Rule) (c : Configuration) (results : List ConditionResult) (store : Store)
    (ids ids' : IdSource), (r.alert c s results store).on ids = (.ok a, ids')

theorem Alert.IsRaisedFrom.triggeredAt {a : Alert} {s : Snapshot} (h : a.IsRaisedFrom s) :
    a.triggeredAt = s.now ∧ a.severity.isSome = true := by
  obtain ⟨r, c, results, store, ids, ids', h⟩ := h
  obtain ⟨_, _, _, _, _, _, rfl⟩ := Rule.alert_eq_ok r c s results h
  exact ⟨rfl, rfl⟩

/-- The clock of a snapshot of a document is off by whole minutes. -/
theorem Snapshot.exists_offset_of_check {v : Json} {s : Snapshot} (h : schema.check v = .ok s) :
    ∃ o, s.now.offset = some o ∧ Span.microsPerMinute ∣ o.micros := by
  have hdated : s.now.IsDated := yields_schema.of_check h
  have hminutes : s.now.IsInMinutes := (yields_now Schema.yields_minutes).of_check h
  obtain ⟨o, ho⟩ := Option.isSome_iff_exists.mp hdated.2
  exact ⟨o, ho, hminutes o ho⟩

namespace Rendering

/-- **The time of a chat message.** A message about an alert in the calendar labels exactly what its
own clock showed. That is the universal time exactly if the two clocks show the same minute, and two
messages label the same time exactly if the clocks of their alerts show the same minute. Alerts that
are raised about snapshots of documents keep the offsets of these: their messages are right exactly
if the offset is zero, and at one instant they agree exactly if the offsets do. -/
theorem chat_time_iff {a b : Alert} (ha : a.severity.isSome = true) (hb : b.severity.isSome = true)
    (hdated : Moment.inCalendar a.triggeredAt.wall = true)
    (hdated' : Moment.inCalendar b.triggeredAt.wall = true) (c d : Content)
    (options options' : List (String × Json)) :
    ∃ body body', chatBody a c options = .ok body ∧ chatBody b d options' = .ok body' ∧
      (∀ time, LabelsUtc body a time ↔ time = a.triggeredAt.minuteText) ∧
      (∀ u, a.triggeredAt.local? "UTC" = .ok u →
        (LabelsUtc body a u.minuteText ↔ a.triggeredAt.minuteCount = u.minuteCount)) ∧
      ((∃ time, LabelsUtc body a time ∧ LabelsUtc body' b time) ↔
        a.triggeredAt.minuteCount = b.triggeredAt.minuteCount) ∧
      ∀ v w s t, Snapshot.schema.check v = .ok s → Snapshot.schema.check w = .ok t →
        a.IsRaisedFrom s → b.IsRaisedFrom t →
        ∃ o o', s.now.offset = some o ∧ t.now.offset = some o' ∧
          (∀ u, a.triggeredAt.local? "UTC" = .ok u →
            (LabelsUtc body a u.minuteText ↔ o.micros = 0)) ∧
          (s.now.instant = t.now.instant →
            ((∃ time, LabelsUtc body a time ∧ LabelsUtc body' b time) ↔
              o.micros = o'.micros)) := by
  obtain ⟨body, hbody, hlabels⟩ := labelsUtc_chatBody ha c options
  obtain ⟨body', hbody', hlabels'⟩ := labelsUtc_chatBody hb d options'
  have hutc (u : Moment) (hu : a.triggeredAt.local? "UTC" = .ok u) :
      LabelsUtc body a u.minuteText ↔ a.triggeredAt.minuteCount = u.minuteCount := by
    obtain ⟨hcalendar, rfl⟩ := Moment.local?_utc.mp hu
    rw [hlabels, eq_comm, Moment.minuteText_eq_iff hdated hcalendar]
  have hboth : (∃ time, LabelsUtc body a time ∧ LabelsUtc body' b time) ↔
      a.triggeredAt.minuteCount = b.triggeredAt.minuteCount := by
    rw [← Moment.minuteText_eq_iff hdated hdated']
    simp only [hlabels, hlabels', exists_eq_left]
  refine ⟨body, body', hbody, hbody', hlabels, hutc, hboth, fun v w s t hv hw hs ht => ?_⟩
  obtain ⟨o, ho, hminutes⟩ := Snapshot.exists_offset_of_check hv
  obtain ⟨o', ho', hminutes'⟩ := Snapshot.exists_offset_of_check hw
  have hnow : a.triggeredAt = s.now := hs.triggeredAt.1
  have hnow' : b.triggeredAt = t.now := ht.triggeredAt.1
  refine ⟨o, o', ho, ho', fun u hu => ?_, fun hinstant => ?_⟩
  · rw [hutc u hu, Moment.minuteCount_utc_iff (hnow ▸ ho) hminutes hu]
  · rw [hboth, hnow, hnow', Moment.minuteCount_eq_iff ho ho' hminutes hminutes' hinstant]

end Rendering

/-! ## A ward in two time zones -/

namespace Sample

/-- The snapshot of the ward that has got warmer, as a clock of its own dates it. -/
def warmerAt (time : String) : Json :=
  .object [("current_time", .text time), ("sensor_readings", .list [degrees 1717595940 27]),
    ("historical_data", .list [degrees 1717509600 21])]

/-- Two in the afternoon of universal time. -/
def afternoon : Int := Moment.epoch + 1717596000000000

/-- The same instant on two clocks, with the wall time that each of them shows. -/
def clocks : List (String × Int) :=
  [("2024-06-05T19:30:00+05:30", afternoon + 19800000000), ("2024-06-05T14:00:00Z", afternoon)]

set_option maxRecDepth 100000 in
/-- By either clock the ward is found too warm, at one instant. -/
theorem exists_isRaisedFrom : ∀ p ∈ clocks, ∃ s a, Snapshot.schema.check (warmerAt p.1) = .ok s ∧
    Alert.IsRaisedFrom a s ∧ a.severity.isSome = true ∧ a.triggeredAt.wall = p.2 ∧
    a.triggeredAt.instant = afternoon := by
  have hraised : ∀ p ∈ clocks, ∃ c, (Configuration.load (.atUtc 0) (ward 30) .fresh).1 = .ok c ∧
      ∃ s, Snapshot.schema.check (warmerAt p.1) = .ok s ∧
        (s.now.wall = p.2 ∧ s.now.instant = afternoon) ∧
        ∃ r ∈ c.rules, ∃ results, r.results s = .ok results ∧ r.connective.holds results = true ∧
          ∃ a, ((r.alert c s results .empty).on .fresh).1 = .ok a ∧ True := by
    decide +kernel
  intro p hp
  obtain ⟨c, -, s, hs, hnow, r, -, results, -, -, a, ha, -⟩ := hraised p hp
  have ha : a.IsRaisedFrom s := ⟨r, c, results, .empty, .fresh, _, Prod.ext ha rfl⟩
  obtain ⟨htime, hseverity⟩ := ha.triggeredAt
  exact ⟨s, a, hs, ha, hseverity, htime ▸ hnow.1, htime ▸ hnow.2⟩

/-- What the two clocks show. -/
theorem minuteText_of_wall {m : Moment} :
    (m.wall = afternoon + 19800000000 → m.minuteText = "2024-06-05 19:30") ∧
      (m.wall = afternoon → m.minuteText = "2024-06-05 14:00") := by
  obtain ⟨wall, offset⟩ := m
  have hshown (w : Int) : (⟨w, offset⟩ : Moment).minuteText = (⟨w, none⟩ : Moment).minuteText := rfl
  refine ⟨fun h => ?_, fun h => ?_⟩
  · rw [show wall = _ from h, hshown]
    decide +kernel
  · rw [show wall = _ from h, hshown]
    decide +kernel

end Sample

namespace Rendering

open Sample

/-- Of the ward in two time zones, the message about the one abroad is wrong. -/
theorem chat_time_iff_ward : ∃ (s t : Snapshot) (a b : Alert) (body body' : Json),
    (a.IsRaisedFrom s ∧ b.IsRaisedFrom t) ∧
      ((a.severity.isSome = true ∧ b.severity.isSome = true) ∧
        Moment.inCalendar a.triggeredAt.wall = true ∧
        Moment.inCalendar b.triggeredAt.wall = true) ∧
      (chatBody a (alert a none) [] = .ok body ∧ chatBody b (alert b none) [] = .ok body') ∧
      LabelsUtc body a "2024-06-05 19:30" ∧
      (∀ u, a.triggeredAt.local? "UTC" = .ok u → ¬ LabelsUtc body a u.minuteText) ∧
      ¬ ∃ time, LabelsUtc body a time ∧ LabelsUtc body' b time := by
  obtain ⟨s, a, hs, ha, hseverity, hwall, hinstant⟩ := exists_isRaisedFrom _ List.mem_cons_self
  obtain ⟨t, b, ht, hb, hseverity', hwall', -⟩ :=
    exists_isRaisedFrom _ (List.mem_cons_of_mem _ List.mem_cons_self)
  have hdated : Moment.inCalendar a.triggeredAt.wall = true := by
    rw [hwall]
    decide
  have hdated' : Moment.inCalendar b.triggeredAt.wall = true := by
    rw [hwall']
    decide
  obtain ⟨body, body', hbody, hbody', hlabels, hutc, hboth, -⟩ :=
    chat_time_iff hseverity hseverity' hdated hdated' (alert a none) (alert b none) [] []
  have hminute {m : Moment} (hm : m.wall = afternoon) :
      a.triggeredAt.minuteCount ≠ m.minuteCount := by
    unfold Moment.minuteCount
    rw [hwall, hm]
    decide
  refine ⟨s, t, a, b, body, body', ⟨ha, hb⟩, ⟨⟨hseverity, hseverity'⟩, hdated, hdated'⟩,
    ⟨hbody, hbody'⟩, ?_, fun u hu => ?_, ?_⟩
  · rw [hlabels, minuteText_of_wall.1 hwall]
  · obtain ⟨-, rfl⟩ := Moment.local?_utc.mp hu
    rw [hutc _ hu]
    exact hminute hinstant
  · rw [hboth]
    exact hminute hwall'

/-- Two clocks date the snapshots of a ward at one instant. The message about the first calls half
past seven in the evening universal time when it is two in the afternoon, and no time is on both. -/
theorem stamps_differ_at_one_instant :
    ∃ (s t : Snapshot) (a b : Alert) (u : Moment) (body body' : Json),
      (Snapshot.schema.check (warmerAt "2024-06-05T19:30:00+05:30") = .ok s ∧ a.IsRaisedFrom s) ∧
      (Snapshot.schema.check (warmerAt "2024-06-05T14:00:00Z") = .ok t ∧ b.IsRaisedFrom t) ∧
      (a.triggeredAt.instant = b.triggeredAt.instant ∧ a.triggeredAt.local? "UTC" = .ok u) ∧
      (chatBody a (alert a none) [] = .ok body ∧ chatBody b (alert b none) [] = .ok body') ∧
      (LabelsUtc body a "2024-06-05 19:30" ∧ u.minuteText = "2024-06-05 14:00") ∧
      ¬ LabelsUtc body a u.minuteText ∧
      ¬ ∃ time, LabelsUtc body a time ∧ LabelsUtc body' b time := by
  obtain ⟨s, a, hs, ha, hseverity, hwall, hinstant⟩ := exists_isRaisedFrom _ List.mem_cons_self
  obtain ⟨t, b, ht, hb, hseverity', hwall', hinstant'⟩ :=
    exists_isRaisedFrom _ (List.mem_cons_of_mem _ List.mem_cons_self)
  obtain ⟨body, hbody, hlabels⟩ := labelsUtc_chatBody hseverity (alert a none) []
  obtain ⟨body', hbody', hlabels'⟩ := labelsUtc_chatBody hseverity' (alert b none) []
  have hutc : (Moment.atUtc afternoon).minuteText = "2024-06-05 14:00" := minuteText_of_wall.2 rfl
  rw [minuteText_of_wall.1 hwall] at hlabels
  rw [minuteText_of_wall.2 hwall'] at hlabels'
  refine ⟨s, t, a, b, .atUtc afternoon, body, body', ⟨hs, ha⟩, ⟨ht, hb⟩,
    ⟨hinstant.trans hinstant'.symm, ?_⟩, ⟨hbody, hbody'⟩, ⟨(hlabels _).mpr rfl, hutc⟩, ?_, ?_⟩
  · rw [Moment.local?_utc, hinstant]
    exact ⟨by decide, rfl⟩
  · rw [hlabels, hutc]
    decide
  · rintro ⟨time, htime, htime'⟩
    rw [hlabels] at htime
    rw [hlabels', htime] at htime'
    exact absurd htime' (by decide)

end Rendering

end BuildingAlerts
