/-
Readings without a number.

A sensor that drops out still sends readings, and their value is no number. Most of an evaluation
leaves them aside, but not all of it: they count as readings, the latest value and the rate of
change look at the readings themselves, and a baseline is the mean of all of its history. A
condition that none of this touches is evaluated as if they had never arrived.
-/
import BuildingAlerts.Proofs.Condition.Selection
import BuildingAlerts.Proofs.Rule.Accepted

set_option autoImplicit false

namespace BuildingAlerts

/-- Whether the value of a reading is a number. -/
def Reading.isNumeric (r : Reading) : Bool :=
  !r.value.isNaN

/-- The snapshot without the readings whose values are no numbers. -/
def Snapshot.numeric (s : Snapshot) : Snapshot :=
  { s with
    readings := s.readings.filter Reading.isNumeric
    history := s.history.filter Reading.isNumeric }

/-! ## Reductions -/

namespace Aggregation

variable {a : Aggregation} {rs : List Reading}

/-- The readings whose own values a reduction looks at, besides the numbers among all of them. -/
def looksAt (a : Aggregation) (rs : List Reading) : List Reading :=
  match a.reduction with
  | .latest => rs.getLast?.toList
  | .rateOfChange => rs.head?.toList ++ rs.getLast?.toList
  | _ => []

theorem numbers_eq (rs : List Reading) :
    numbers rs = (rs.filter Reading.isNumeric).map (·.value) :=
  List.filter_map

@[simp] theorem numbers_filter (rs : List Reading) :
    numbers (rs.filter Reading.isNumeric) = numbers rs := by
  rw [numbers_eq, numbers_eq, List.filter_filter]
  simp

/-- A part of the readings is not enough unless all of them are. -/
theorem hasEnough_of_filter {q : Reading → Bool} (h : a.hasEnough (rs.filter q) = true) :
    a.hasEnough rs = true := by
  have hlength := List.length_filter_le q rs
  unfold hasEnough at *
  rw [Bool.and_eq_true, decide_eq_true_iff, Bool.not_eq_true', List.isEmpty_eq_false_iff] at *
  refine ⟨fun hrs => h.1 (by rw [hrs]; rfl), ?_⟩
  omega

theorem getLast?_filter_of_pos {q : Reading → Bool} {r : Reading} (h : rs.getLast? = some r)
    (hr : q r = true) : (rs.filter q).getLast? = some r := by
  obtain ⟨before, rfl⟩ := List.getLast?_eq_some_iff.mp h
  rw [List.filter_append, List.filter_cons_of_pos hr]
  exact List.getLast?_concat

/-- The rate of change looks at nothing but the two ends. -/
theorem rateOfChange_ends (first last : Reading) (rs rs' : List Reading) :
    rateOfChange (first :: (rs ++ [last])) = rateOfChange (first :: (rs' ++ [last])) := by
  have hends : ∀ rs : List Reading, rateOfChange (first :: (rs ++ [last]))
      = rateOfChange [first, last] := by
    intro rs
    have hlast : (first :: (rs ++ [last])).getLast? = [first, last].getLast? := by
      rw [← List.cons_append, List.getLast?_concat]
      rfl
    unfold rateOfChange
    cases rs with
    | nil => rfl
    | cons r rs =>
        rw [hlast]
        rfl
  exact (hends rs).trans (hends rs').symm

theorem rateOfChange_filter {q : Reading → Bool} (hfirst : ∀ r ∈ rs.head?, q r = true)
    (hlast : ∀ r ∈ rs.getLast?, q r = true) : rateOfChange (rs.filter q) = rateOfChange rs := by
  cases rs with
  | nil => rfl
  | cons first rest =>
      have hq := hfirst first rfl
      rw [List.filter_cons_of_pos hq]
      rcases List.eq_nil_or_concat rest with rfl | ⟨middle, last, rfl⟩
      · rfl
      · rw [List.concat_eq_append] at hlast ⊢
        have hq' : q last = true := by
          refine hlast last ?_
          rw [← List.cons_append]
          exact List.getLast?_concat
        rw [List.filter_append, List.filter_cons_of_pos hq']
        exact rateOfChange_ends first last _ _

/-- A reduction of readings with enough numbers among them, if it looks only at numbers. -/
theorem reduce_filter (henough : a.hasEnough (rs.filter Reading.isNumeric) = true)
    (hends : ∀ r ∈ a.looksAt rs, r.isNumeric = true) :
    a.reduce (rs.filter Reading.isNumeric) = a.reduce rs := by
  unfold reduce
  rw [numbers_filter, henough, hasEnough_of_filter henough]
  unfold looksAt at hends
  cases hreduction : a.reduction with
  | latest =>
      rw [hreduction] at hends
      cases hlast : rs.getLast? with
      | none => rw [List.getLast?_eq_none_iff.mp hlast]; rfl
      | some r =>
          rw [hlast] at hends
          rw [getLast?_filter_of_pos hlast (hends r List.mem_cons_self)]
  | rateOfChange =>
      rw [hreduction] at hends
      have hfirst : ∀ r ∈ rs.head?, r.isNumeric = true := fun r hr =>
        hends r (List.mem_append_left _ (Option.mem_toList.mpr hr))
      have hlast : ∀ r ∈ rs.getLast?, r.isNumeric = true := fun r hr =>
        hends r (List.mem_append_right _ (Option.mem_toList.mpr hr))
      dsimp only
      rw [rateOfChange_filter hfirst hlast]
  | _ => rfl

end Aggregation

/-! ## Conditions -/

namespace Condition

variable {c : Condition} {s : Snapshot}

/-- Whether a condition is shielded from the dropouts of a snapshot: no filter fails at one, there
are enough readings without them, the readings that the reduction looks at are numbers, and so is
the history behind the baseline of a change. -/
structure Shielded (c : Condition) (s : Snapshot) : Prop where
  filters : ∀ r ∈ s.readings, c.isInWindow s.now r = true → r.isNumeric = false →
    ∃ b, judge c.filters r = .ok b
  enough : ∀ rs, c.select s = .ok rs → c.aggregation.hasEnough rs = true →
    c.aggregation.hasEnough (rs.filter Reading.isNumeric) = true
  ends : ∀ rs, c.select s = .ok rs → c.aggregation.hasEnough rs = true →
    ∀ r ∈ c.aggregation.looksAt rs, r.isNumeric = true
  history : ∀ percent written span since, c.threshold = .percentChange percent written →
    baselineSpan written = .ok span → s.now.minus? span = some since →
    ∀ r ∈ s.recalled c.metric since, r.isNumeric = true

/-- Without the dropouts, what is selected are the numbers among what was selected. -/
theorem select_numeric (h : ∀ r ∈ s.readings, c.isInWindow s.now r = true →
      r.isNumeric = false → ∃ b, judge c.filters r = .ok b) :
    c.select s.numeric = (c.select s).map (List.filter Reading.isNumeric) := by
  have hwindow : s.numeric.readings.filter (c.isInWindow s.now)
      = (s.readings.filter (c.isInWindow s.now)).filter Reading.isNumeric := by
    show (s.readings.filter Reading.isNumeric).filter _ = _
    rw [List.filter_filter, List.filter_filter]
    exact List.filter_congr fun r _ => Bool.and_comm _ _
  have hjudged : ∀ r ∈ s.readings.filter (c.isInWindow s.now), r.isNumeric = false →
      ∃ b, judge c.filters r = .ok b := fun r hr =>
    h r (List.mem_filter.mp hr).1 (List.mem_filter.mp hr).2
  have hfilters := filterReadings_filter hjudged
  rw [select_eq_bind, select_eq_bind]
  show (windowStart s.now c.aggregation.period >>= _) = _
  cases windowStart s.now c.aggregation.period with
  | error e => rfl
  | ok start =>
      show Except.map inTime (c.filters.foldlM (fun rs f => filterReadings f rs)
        (s.numeric.readings.filter (c.isInWindow s.now))) = _
      rw [hwindow, hfilters]
      show _ = (Except.map inTime _).map _
      cases c.filters.foldlM (fun rs f => filterReadings f rs)
          (s.readings.filter (c.isInWindow s.now)) with
      | error e => rfl
      | ok rs => exact congrArg Except.ok (inTime_filter _ rs)

theorem Shielded.compare_numeric (h : c.Shielded s) (x : Float) :
    c.compare x s.numeric = c.compare x s := by
  refine compare_congr (fun percent written ht => baseline_congr fun span hspan => ?_) x
  show (s.now.minus? span = none ∧ s.now.minus? span = none) ∨ _
  cases hsince : s.now.minus? span with
  | none => exact .inl ⟨rfl, rfl⟩
  | some since =>
      refine .inr ⟨since, since, hsince, rfl, congrArg _ ?_⟩
      have hrecalled : s.numeric.recalled c.metric since
          = (s.recalled c.metric since).filter Reading.isNumeric := by
        show (s.history.filter Reading.isNumeric).filter _ = (s.history.filter _).filter _
        rw [List.filter_filter, List.filter_filter]
        exact List.filter_congr fun r _ => Bool.and_comm _ _
      rw [hrecalled]
      exact List.filter_eq_self.mpr (h.history percent written span since ht hspan hsince)

/-- A window that holds nothing but dropouts has no numbers. -/
theorem filter_isNumeric_of_select {rs : List Reading} (h : c.select s = .ok rs)
    (hdropouts : ∀ r ∈ s.readings, c.isInWindow s.now r = true → r.isNumeric = false) :
    rs.filter Reading.isNumeric = [] := by
  refine List.filter_eq_nil_iff.mpr fun r hr => ?_
  obtain ⟨hmem, hwindow⟩ := mem_of_select h hr
  rw [hdropouts r hmem hwindow]
  exact Bool.false_ne_true

/-- Dropouts alone, if there are enough of them, are weighed as zero. -/
theorem compare_zero_of_dropouts {k : ConditionResult} (hk : c.evaluate s = .ok k)
    (hdropouts : ∀ r ∈ s.readings, c.isInWindow s.now r = true → r.isNumeric = false) :
    k.met = false ∨ c.compare 0.0 s = .ok true := by
  rw [evaluate_eq_bind] at hk
  obtain ⟨rs, hrs, hk⟩ := bind_eq_ok_iff.mp hk
  cases henough : c.aggregation.hasEnough rs with
  | false => exact .inl (not_met_of_conclude hk henough)
  | true =>
      have hzero : c.aggregation.reduce rs = 0.0 := by
        unfold Aggregation.reduce
        rw [Aggregation.numbers_eq, filter_isNumeric_of_select hrs hdropouts, henough]
        rfl
      unfold conclude at hk
      rw [henough] at hk
      obtain ⟨met, hmet, hk⟩ := bind_eq_ok_iff.mp hk
      obtain ⟨deviation, -, hk⟩ := bind_eq_ok_iff.mp hk
      rw [hzero] at hmet
      cases hk
      cases met with
      | false => exact .inl rfl
      | true => exact .inr hmet

/-- Where only the dropouts make the readings enough, leaving them out changes the result. -/
theorem evaluate_numeric_ne {rs : List Reading} {k k' : ConditionResult}
    (hfilters : ∀ r ∈ s.readings, c.isInWindow s.now r = true → r.isNumeric = false →
      ∃ b, judge c.filters r = .ok b)
    (hrs : c.select s = .ok rs) (henough : c.aggregation.hasEnough rs = true)
    (hfew : c.aggregation.hasEnough (rs.filter Reading.isNumeric) = false)
    (hk : c.evaluate s = .ok k) (hk' : c.evaluate s.numeric = .ok k') : k ≠ k' := by
  rw [evaluate_eq_bind, hrs] at hk
  rw [evaluate_eq_bind, select_numeric hfilters, hrs] at hk'
  have hmethod := method_of_conclude (show c.conclude rs s = .ok k from hk)
  have hmethod' := method_of_conclude
    (show c.conclude (rs.filter Reading.isNumeric) s.numeric = .ok k' from hk')
  rw [henough, if_pos rfl] at hmethod
  rw [hfew, if_neg Bool.false_ne_true] at hmethod'
  rintro rfl
  exact code_ne_insufficient c.operator (hmethod.symm.trans hmethod')

/-- **Dropouts.** A condition that is shielded from the dropouts of a snapshot comes to the same
without them, and a window in which there is nothing else never meets it. -/
theorem Shielded.evaluate_numeric (h : c.Shielded s) :
    c.evaluate s.numeric = c.evaluate s ∧
      ((∀ r ∈ s.readings, c.isInWindow s.now r = true → r.isNumeric = false) →
        ∀ k, c.evaluate s = .ok k → k.met = false) := by
  refine ⟨?_, fun hdropouts k hk => ?_⟩
  · rw [evaluate_eq_bind, evaluate_eq_bind, select_numeric h.filters]
    cases hrs : c.select s with
    | error e => rfl
    | ok rs =>
        show c.conclude (rs.filter Reading.isNumeric) s.numeric = c.conclude rs s
        have henough : c.aggregation.hasEnough (rs.filter Reading.isNumeric)
            = c.aggregation.hasEnough rs :=
          Bool.eq_iff_iff.mpr ⟨Aggregation.hasEnough_of_filter, h.enough rs hrs⟩
        refine conclude_congr henough (fun hpart => ?_) h.compare_numeric
        exact Aggregation.reduce_filter hpart (h.ends rs hrs (henough ▸ hpart))
  · rw [evaluate_eq_bind] at hk
    obtain ⟨rs, hrs, hk⟩ := bind_eq_ok_iff.mp hk
    refine not_met_of_conclude hk (Bool.eq_false_iff.mpr fun henough => ?_)
    have hpart := h.enough rs hrs henough
    rw [filter_isNumeric_of_select hrs hdropouts] at hpart
    cases hpart

end Condition

/-! ## A hall whose sensor drops out -/

namespace Sample

/-- A reading of the sensor in the hall, a number of minutes after noon. -/
def inHall (minute : Int) (value : Float) : Reading where
  sensorId := "hall"
  timestamp := .atUtc (Moment.epoch + (720 + minute) * Span.microsPerMinute)
  value := value
  unit := "C"
  quality := "good"
  metricType := some .temperature
  attributes := []

/-- What a sensor sends that has nothing to say. -/
def noNumber : Float := 0.0 / 0.0

/-- The hall half an hour after noon. -/
def hall (readings history : List Reading) : Snapshot where
  now := .atUtc (Moment.epoch + 750 * Span.microsPerMinute)
  readings := readings
  history := history
  systemStatus := []
  weather := none
  occupancy := none
  recentChanges := []

/-- The hall is cold when its mean over ten minutes is below five degrees. -/
def cold : Condition where
  id := "cold"
  metric := ⟨.temperature, some "hall", "C", "Hall"⟩
  operator := .lessThan
  threshold := .scalar (.real 5.0)
  aggregation := ⟨.average, 10, 1⟩
  filters := []
  fits := rfl

/-- The hall cools when its latest value is a tenth away from that of the hour before. -/
def cooling : Condition where
  id := "cooling"
  metric := ⟨.temperature, some "hall", "C", "Hall"⟩
  operator := .percentageChange
  threshold := .percentChange (.real 10.0) "1h"
  aggregation := ⟨.latest, 10, 2⟩
  filters := [⟨"quality", .text "good", "equals"⟩]
  fits := rfl

/-- A dropout between two numbers, and one in the history that is too old. -/
def cooled : Snapshot :=
  hall [inHall 22 18.0, inHall 25 noNumber, inHall 29 17.5]
    [inHall (-60) noNumber, inHall (-20) 20.0, inHall 10 21.0]

end Sample

namespace Condition

open Sample

theorem judge_cooled : ∀ r ∈ cooled.readings, judge cooling.filters r = .ok true := by
  unfold cooled hall
  simp only [List.forall_mem_cons, List.not_mem_nil, false_implies, implies_true, and_true]
  exact ⟨rfl, rfl, rfl⟩

set_option maxRecDepth 100000 in
theorem select_cooled : cooling.select cooled = .ok cooled.readings := by
  have hcounted : cooling.counted cooled = cooled.readings :=
    List.filter_eq_self.mpr (by decide +kernel)
  obtain ⟨start, hstart, -⟩ : ∃ start,
      windowStart cooled.now cooling.aggregation.period = .ok start ∧ True := by
    decide +kernel
  rw [select_eq fun r hr _ => ⟨true, judge_cooled r hr⟩, hstart, hcounted]
  exact congrArg Except.ok (List.mergeSort_of_pairwise (by decide +kernel))

set_option maxRecDepth 100000 in
/-- The dropout between two numbers counts for nothing, and the one in the history is too old. -/
theorem evaluate_numeric_cooled :
    cooling.Shielded cooled ∧ ∃ k, cooling.evaluate cooled = .ok k ∧ k.met = true ∧
      cooling.evaluate cooled.numeric = .ok k := by
  have hpast : ∃ span, baselineSpan "1h" = .ok span ∧
      ∃ since, orFault .outOfBounds (cooled.now.minus? span) = .ok since ∧
        ∀ r ∈ cooled.recalled cooling.metric since, r.isNumeric = true := by
    decide +kernel
  have hshielded : cooling.Shielded cooled :=
    { filters := fun r hr _ _ => ⟨true, judge_cooled r hr⟩
      enough := by
        rintro rs hrs -
        cases select_cooled.symm.trans hrs
        decide +kernel
      ends := by
        rintro rs hrs -
        cases select_cooled.symm.trans hrs
        decide +kernel
      history := by
        rintro percent written span since ht hspan hsince
        cases ht
        obtain ⟨span', hspan', since', hsince', hrecalled⟩ := hpast
        cases hspan'.symm.trans hspan
        cases (orFault_eq_ok_iff.mp hsince').symm.trans hsince
        exact hrecalled }
  have hresult : ∃ k, cooling.conclude cooled.readings cooled = .ok k ∧ k.met = true := by
    decide +kernel
  obtain ⟨k, hk, hmet⟩ := hresult
  have heval : cooling.evaluate cooled = .ok k := by
    rw [evaluate_eq_bind, select_cooled]
    exact hk
  exact ⟨hshielded, k, heval, hmet, hshielded.evaluate_numeric.1.trans heval⟩

set_option maxRecDepth 100000 in
/-- The hall is cold although its sensor said nothing; without what it sent it is not. -/
theorem cold_on_dropout :
    (∃ k, cold.evaluate (hall [inHall 28 noNumber] []) = .ok k ∧ k.met = true) ∧
      ∃ k, cold.evaluate (hall [inHall 28 noNumber] []).numeric = .ok k ∧ k.met = false := by
  decide +kernel

end Condition

end BuildingAlerts
