/-
On-call periods that run past midnight.

A period that starts later than it ends reads as a shift: it begins on each day that is listed and
runs into the next morning. The check asks for the day of the moment itself, though, so of the
morning of a listed day it takes what belongs to the shift before, and it leaves out the morning
that follows. The two agree where a day and the day before are listed alike, and at all times only
if the shift ends at midnight or all days are listed alike. This holds whatever clocks are used.
-/
import BuildingAlerts.Proofs.Fault
import BuildingAlerts.Schedule

set_option autoImplicit false

namespace BuildingAlerts

variable {clocks : Moment → String → Except Fault Moment} {m here : Moment} {days : List Int}
  {start finish zone : String} {s f : Int}

/-! ## Shifts -/

/-- The day before a day of the week. -/
def dayBefore (weekday : Nat) : Nat :=
  (weekday + 6) % 7

/-- A shift that begins at `s` on the days that are listed and ends at `f` on the next morning is
on, by the time that a clock shows. -/
def OnShift (days : List Int) (s f : Int) (here : Moment) : Prop :=
  (s ≤ here.minuteOfDay ∧ (here.weekday : Int) ∈ days) ∨
    ((here.minuteOfDay : Int) < f ∧ (dayBefore here.weekday : Int) ∈ days)

/-- Clocks show every minute of every day of the week at some time. -/
def ShowEveryMinute (clocks : Moment → String → Except Fault Moment) (zone : String) : Prop :=
  ∀ w < 7, ∀ n < 1440, ∃ m here, clocks m zone = .ok here ∧ here.weekday = w ∧ here.minuteOfDay = n

/-- Every day of the week is listed, or none is. -/
def ListedAlike (days : List Int) : Prop :=
  (∀ w : Nat, w < 7 → (w : Int) ∈ days) ∨ ∀ w : Nat, w < 7 → (w : Int) ∉ days

theorem timeOfDay_bounds {t : String} {n : Int} (h : timeOfDay t = .ok n) :
    0 ≤ n ∧ n < 1440 := by
  have h := orFault_eq_ok_iff.mp h
  unfold clockMinute? at h
  split at h
  · obtain ⟨hour, -, h⟩ := Option.bind_eq_some_iff.mp h
    obtain ⟨minute, -, h⟩ := Option.bind_eq_some_iff.mp h
    split at h
    · cases h
      omega
    · cases h
  · cases h

/-- By the time that a clock shows, the day test and the shift agree exactly where, in the morning
part, the day and the day before are listed alike. -/
theorem agree_iff (hlt : f < s) :
    (((here.weekday : Int) ∈ days ∧ (s ≤ here.minuteOfDay ∨ (here.minuteOfDay : Int) < f)) ↔
      OnShift days s f here) ↔
    ((here.minuteOfDay : Int) < f →
      ((here.weekday : Int) ∈ days ↔ (dayBefore here.weekday : Int) ∈ days)) := by
  unfold OnShift
  by_cases hmorning : (here.minuteOfDay : Int) < f
  · have hevening : ¬ s ≤ here.minuteOfDay := by omega
    simp only [hmorning, hevening, or_true, and_true, false_and, false_or, true_and, true_imp_iff]
  · simp only [hmorning, or_false, false_and, false_imp_iff, iff_true]
    exact And.comm

/-- What the check answers for a period that starts later than it ends, and where that is what the
shift says. -/
theorem isOnScheduleBy_of_lt (days : List Int) (hs : timeOfDay start = .ok s)
    (hf : timeOfDay finish = .ok f) (hlt : f < s) (hhere : clocks m zone = .ok here) :
    ∃ b, isOnScheduleBy clocks m days start finish zone = .ok b ∧
      (b = true ↔ (here.weekday : Int) ∈ days ∧
        (s ≤ here.minuteOfDay ∨ (here.minuteOfDay : Int) < f)) ∧
      ((b = true ↔ OnShift days s f here) ↔ ((here.minuteOfDay : Int) < f →
        ((here.weekday : Int) ∈ days ↔ (dayBefore here.weekday : Int) ∈ days))) := by
  suffices ∃ b, isOnScheduleBy clocks m days start finish zone = .ok b ∧
      (b = true ↔ (here.weekday : Int) ∈ days ∧
        (s ≤ here.minuteOfDay ∨ (here.minuteOfDay : Int) < f)) by
    obtain ⟨b, hb, hcovers⟩ := this
    exact ⟨b, hb, hcovers, by rw [hcovers]; exact agree_iff hlt⟩
  -- the two times differ, so the period is not the whole day
  have hne : (s == f) = false := beq_eq_false_iff_ne.mpr (Int.ne_of_gt hlt)
  unfold isOnScheduleBy
  cases hday : days.contains (here.weekday : Int) with
  | false =>
      refine ⟨false, bind_eq_ok_iff.mpr ⟨here, hhere, ?_⟩, ?_⟩
      · rw [hday]
        rfl
      · refine ⟨fun h => absurd h Bool.false_ne_true, fun h => ?_⟩
        exact hday.symm.trans (List.contains_iff_mem.mpr h.1)
  | true =>
      refine ⟨inWindow here.minuteOfDay s f, ?_, ?_⟩
      · refine bind_eq_ok_iff.mpr ⟨here, hhere, ?_⟩
        rw [hday]
        refine bind_eq_ok_iff.mpr ⟨s, hs, bind_eq_ok_iff.mpr ⟨f, hf, ?_⟩⟩
        rw [hne]
        rfl
      · unfold inWindow
        rw [hne, if_neg Bool.false_ne_true, if_pos hlt, Bool.or_eq_true, decide_eq_true_iff,
          decide_eq_true_iff]
        exact ⟨fun h => ⟨List.contains_iff_mem.mp hday, h⟩, fun h => h.2⟩

/-- Days that are listed like the days before them are listed alike. -/
theorem listedAlike_iff :
    ListedAlike days ↔ ∀ w : Nat, w < 7 → ((w : Int) ∈ days ↔ (dayBefore w : Int) ∈ days) := by
  constructor
  · intro h w hw
    have hbefore : dayBefore w < 7 := Nat.mod_lt _ (by decide)
    rcases h with h | h
    · exact iff_of_true (h w hw) (h _ hbefore)
    · exact iff_of_false (h w hw) (h _ hbefore)
  · intro h
    -- going back day by day, every day is listed like the first
    have hfirst : ∀ w : Nat, w < 7 → ((w : Int) ∈ days ↔ ((0 : Nat) : Int) ∈ days) := by
      intro w
      induction w with
      | zero => exact fun _ => Iff.rfl
      | succ w ih =>
          intro hw
          have hbefore : dayBefore (w + 1) = w := by
            unfold dayBefore
            omega
          exact (hbefore ▸ h (w + 1) hw).trans (ih (Nat.lt_of_succ_lt hw))
    by_cases hzero : ((0 : Nat) : Int) ∈ days
    · exact .inl fun w hw => (hfirst w hw).mpr hzero
    · exact .inr fun w hw => fun hmem => hzero ((hfirst w hw).mp hmem)

/-! ## Overnight periods -/

/-- **Overnight periods break off at midnight.** By whatever clocks, a period that starts later
than it ends covers the morning and the evening part of the days that are listed. At a moment this
agrees with the shift that begins on the days that are listed exactly if the moment is not in the
morning part, or its day and the day before are listed alike. Where the clocks show every minute of
the week, it agrees at all moments exactly if the shift ends at midnight or all days are listed
alike. -/
theorem overnight_breaks_off (hs : timeOfDay start = .ok s) (hf : timeOfDay finish = .ok f)
    (hlt : f < s) :
    (∀ m here, clocks m zone = .ok here →
      ∃ b, isOnScheduleBy clocks m days start finish zone = .ok b ∧
        (b = true ↔ (here.weekday : Int) ∈ days ∧
          (s ≤ here.minuteOfDay ∨ (here.minuteOfDay : Int) < f)) ∧
        ((b = true ↔ OnShift days s f here) ↔ ((here.minuteOfDay : Int) < f →
          ((here.weekday : Int) ∈ days ↔ (dayBefore here.weekday : Int) ∈ days)))) ∧
    (ShowEveryMinute clocks zone →
      ((∀ m here, clocks m zone = .ok here →
          (isOnScheduleBy clocks m days start finish zone = .ok true ↔ OnShift days s f here)) ↔
        f = 0 ∨ ListedAlike days)) := by
  refine ⟨fun m here => isOnScheduleBy_of_lt days hs hf hlt,
    fun hshow => ⟨fun hall => ?_, fun halike m here hhere => ?_⟩⟩
  · obtain ⟨hpos, hday⟩ := timeOfDay_bounds hf
    by_cases hzero : f = 0
    · exact .inl hzero
    · -- the shift has a morning part, and some clock shows its first minute on each day
      refine .inr (listedAlike_iff.mpr fun w hw => ?_)
      obtain ⟨m, here, hhere, rfl, hminute⟩ := hshow w hw 0 (by decide)
      obtain ⟨b, hb, -, hagree⟩ := isOnScheduleBy_of_lt days hs hf hlt hhere
      have hall := hall m here hhere
      rw [hb, Except.ok.injEq] at hall
      exact hagree.mp hall (by omega)
  · obtain ⟨b, hb, -, hagree⟩ := isOnScheduleBy_of_lt days hs hf hlt hhere
    rw [hb, Except.ok.injEq]
    refine hagree.mpr fun hmorning => ?_
    rcases halike with rfl | halike
    · omega
    · exact listedAlike_iff.mp halike _ (Nat.mod_lt _ (by decide))

/-- The clocks of universal time show every minute of the week. -/
theorem showEveryMinute_utc : ShowEveryMinute Moment.local? "UTC" := by
  intro w hw n hn
  have hzone : Zone.find? "UTC" = .ok ⟨0, none⟩ := rfl
  have hday : Span.microsPerDay = 86400000000 := by decide
  have hminute : Span.microsPerMinute.toNat = 60000000 := by decide
  have hhour : Span.microsPerHour.toNat = 3600000000 := by decide
  have hend : Moment.wallEnd = 315537897600000000 := by decide
  -- the first week of the calendar begins on a Monday
  let wall : Int := 86400000000 * (w + 6) + 60000000 * n
  have hwall : wall = 86400000000 * (w + 6) + 60000000 * n := rfl
  refine ⟨.atUtc wall, .atUtc wall, bind_eq_ok_iff.mpr ⟨_, hzone, ?_⟩, ?_, ?_⟩
  · have hcalendar : Moment.inCalendar wall = true := by
      unfold Moment.inCalendar
      rw [Bool.and_eq_true, decide_eq_true_iff, decide_eq_true_iff, hend]
      omega
    have hinstant : (Moment.atUtc wall).instant = wall := Int.sub_zero wall
    have hoffset : (⟨0, none⟩ : Zone).offsetAt wall * Span.microsPerMinute = 0 := rfl
    unfold Moment.inZone
    simp only [hinstant, hoffset, Int.add_zero, hcalendar, Bool.and_self, if_true]
    rfl
  · unfold Moment.weekday Moment.dayNumber Civil.sundayBased Moment.atUtc
    simp only [hday]
    omega
  · unfold Moment.minuteOfDay Moment.hour Moment.minute Moment.timeOfDay Moment.atUtc
    simp only [hday, hhour, hminute]
    omega

/-- The night shift of a Monday, from ten in the evening to six in the morning. -/
theorem overnight_breaks_off_monday :
    timeOfDay "22:00" = .ok 1320 ∧ timeOfDay "06:00" = .ok 360 ∧ (360 : Int) < 1320 ∧
      (∀ m here, m.local? "UTC" = .ok here → ∃ b, isOnSchedule m [1] "22:00" "06:00" "UTC" = .ok b ∧
        (b = true ↔ (here.weekday : Int) ∈ [(1 : Int)] ∧
          (1320 ≤ (here.minuteOfDay : Int) ∨ (here.minuteOfDay : Int) < 360))) ∧
      ¬ ∀ m here, m.local? "UTC" = .ok here →
        (isOnSchedule m [1] "22:00" "06:00" "UTC" = .ok true ↔ OnShift [1] 1320 360 here) := by
  have hs : timeOfDay "22:00" = .ok 1320 := rfl
  have hf : timeOfDay "06:00" = .ok 360 := rfl
  obtain ⟨hmoment, hall⟩ := @overnight_breaks_off Moment.local? [1] "22:00" "06:00" "UTC" _ _ hs hf
    (by decide)
  refine ⟨hs, hf, by decide, fun m here hhere => ?_, fun hagree => ?_⟩
  · obtain ⟨b, hb, hcovers, -⟩ := hmoment m here hhere
    exact ⟨b, hb, hcovers⟩
  · rcases (hall showEveryMinute_utc).mp hagree with hzero | hlisted | hunlisted
    · exact absurd hzero (by decide)
    · exact absurd (hlisted 0 (by decide)) (by decide)
    · exact absurd (hunlisted 1 (by decide)) (by decide)

/-- Two in the morning of a Tuesday. -/
def Sample.afterMidnight : Moment :=
  .atUtc (Moment.epoch + 1717466400000000)

/-- At two in the morning of a Tuesday, the night shift of Monday is on, and the check says that it
is not. -/
theorem not_onSchedule_after_midnight :
    ¬ ∀ (m here : Moment) (days : List Int) (start finish zone : String) (s f : Int),
      m.local? zone = .ok here → timeOfDay start = .ok s → timeOfDay finish = .ok f → f < s →
      (isOnSchedule m days start finish zone = .ok true ↔ OnShift days s f here) := by
  intro h
  have hon : OnShift [1] 1320 360 Sample.afterMidnight := by
    unfold OnShift
    decide +kernel
  have hoff : isOnSchedule Sample.afterMidnight [1] "22:00" "06:00" "UTC" = .ok false := rfl
  have hon := (h Sample.afterMidnight Sample.afterMidnight [1] "22:00" "06:00" "UTC" 1320 360 rfl
    rfl rfl (by decide)).mpr hon
  rw [hoff] at hon
  cases hon

end BuildingAlerts
