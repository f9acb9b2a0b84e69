/-
Which readings a condition looks at.

A condition counts the readings of its metric that lie in its window and pass its filters, each
judged for itself. Selection is told through this list: if no filter fails at a reading of the
window, what is selected are the counted readings in order of time. All that is left out of the
window besides changes nothing.
-/
import BuildingAlerts.Condition.Evaluation
import BuildingAlerts.Proofs.Alert.Spacing
import BuildingAlerts.Proofs.Fault

set_option autoImplicit false

namespace BuildingAlerts

/-! ## Sorting a part of a list -/

section Sorting

variable {α : Type} {le : α → α → Bool}

/-- A list is cut in one way only into a part that passes a test and a part that fails it. -/
private theorem cut_unique {p : α → Bool} {l₁ l₂ m₁ m₂ : List α} (h : l₁ ++ l₂ = m₁ ++ m₂)
    (hl₁ : ∀ b ∈ l₁, p b = true) (hl₂ : ∀ b ∈ l₂, p b = false)
    (hm₁ : ∀ b ∈ m₁, p b = true) (hm₂ : ∀ b ∈ m₂, p b = false) : l₁ = m₁ ∧ l₂ = m₂ := by
  have hstop : ∀ l : List α, (∀ b ∈ l, p b = false) → l.takeWhile p = [] := by
    intro l hl
    cases l with
    | nil => rfl
    | cons b l => simp [hl b List.mem_cons_self]
  have htake := congrArg (List.takeWhile p) h
  rw [List.takeWhile_append_of_pos hl₁, List.takeWhile_append_of_pos hm₁, hstop l₂ hl₂,
    hstop m₂ hm₂, List.append_nil, List.append_nil] at htake
  exact ⟨htake, List.append_cancel_left (htake ▸ h)⟩

/-- A stable sort of what a test keeps is what the test keeps of the sorted list. -/
theorem mergeSort_filter (htrans : ∀ a b c, le a b → le b c → le a c)
    (htotal : ∀ a b, le a b || le b a) (q : α → Bool) (l : List α) :
    (l.filter q).mergeSort le = (l.mergeSort le).filter q := by
  induction l with
  | nil => simp
  | cons a l ih =>
      obtain ⟨l₁, l₂, hsort, hrest, hbefore⟩ := List.mergeSort_cons htrans htotal a l
      rw [hrest, List.filter_append] at ih
      rw [hsort, List.filter_append]
      by_cases ha : q a = true
      · rw [List.filter_cons_of_pos ha, List.filter_cons_of_pos ha]
        obtain ⟨m₁, m₂, hsort', hrest', hbefore'⟩ :=
          List.mergeSort_cons htrans htotal a (l.filter q)
        rw [hsort']
        -- both sides put `a` behind exactly the elements that are strictly before it
        have hbehind : ∀ b ∈ l₂, (!le a b) = false := by
          intro b hb
          have hp := List.pairwise_mergeSort htrans htotal (a :: l)
          rw [hsort] at hp
          rw [List.rel_of_pairwise_cons (List.pairwise_append.mp hp).2.1 hb]
          rfl
        have hbehind' : ∀ b ∈ m₂, (!le a b) = false := by
          intro b hb
          have hp := List.pairwise_mergeSort htrans htotal (a :: l.filter q)
          rw [hsort'] at hp
          rw [List.rel_of_pairwise_cons (List.pairwise_append.mp hp).2.1 hb]
          rfl
        obtain ⟨rfl, rfl⟩ := cut_unique (hrest'.symm.trans ih) hbefore' hbehind'
          (fun b hb => hbefore b (List.mem_filter.mp hb).1)
          (fun b hb => hbehind b (List.mem_filter.mp hb).1)
        rfl
      · rw [List.filter_cons_of_neg ha, List.filter_cons_of_neg ha]
        exact ih

end Sorting

/-! ## Order of time -/

namespace Reading

/-- Whether a reading was taken no later than another. -/
def isBy (a b : Reading) : Bool :=
  a.timestamp.instant ≤ b.timestamp.instant

theorem isBy_trans (a b c : Reading) (hab : a.isBy b) (hbc : b.isBy c) : a.isBy c := by
  unfold isBy at *
  exact decide_eq_true (Int.le_trans (of_decide_eq_true hab) (of_decide_eq_true hbc))

theorem isBy_total (a b : Reading) : a.isBy b || b.isBy a := by
  unfold isBy
  rw [Bool.or_eq_true, decide_eq_true_iff, decide_eq_true_iff]
  exact Int.le_total _ _

end Reading

/-- The readings in order of time. -/
def inTime (rs : List Reading) : List Reading :=
  rs.mergeSort Reading.isBy

theorem inTime_filter (q : Reading → Bool) (rs : List Reading) :
    inTime (rs.filter q) = (inTime rs).filter q :=
  mergeSort_filter Reading.isBy_trans Reading.isBy_total q rs

@[simp] theorem mem_inTime {rs : List Reading} {r : Reading} : r ∈ inTime rs ↔ r ∈ rs :=
  List.mem_mergeSort

/-! ## Windows -/

/-- The moment a number of minutes before another, if the calendar has it. -/
def windowStart (now : Moment) (minutes : Int) : Except Fault Moment := do
  let span ← orFault .outOfBounds (Span.ofMinutes? minutes)
  orFault .outOfBounds (now.minus? span)

/-- Where a window begins, on the instants. -/
theorem instant_windowStart {now start : Moment} {minutes : Int}
    (h : windowStart now minutes = .ok start) :
    start.instant = now.instant - minutes * Span.microsPerMinute := by
  obtain ⟨span, hspan, hstart⟩ := bind_eq_ok_iff.mp h
  rw [orFault_eq_ok_iff] at hspan hstart
  rw [(Moment.minus?_eq_some hstart).2, Span.micros_of_ofMinutes? hspan]

/-- Whether a reading passes filters, asked one after the other until one says no. -/
def judge (fs : List ReadingFilter) (r : Reading) : Except Fault Bool :=
  fs.allM fun f => f.passes r

namespace Condition

/-- Whether a reading is of the metric of a condition and lies in its window, on the instants. -/
def isInWindow (c : Condition) (now : Moment) (r : Reading) : Bool :=
  c.metric.selects r &&
    (now.instant - c.aggregation.period * Span.microsPerMinute ≤ r.timestamp.instant &&
      r.timestamp.instant ≤ now.instant)

/-- The readings that a condition counts: those in its window that pass its filters. -/
def counted (c : Condition) (s : Snapshot) : List Reading :=
  s.readings.filter fun r => c.isInWindow s.now r && (judge c.filters r).toOption == some true

/-- Whether no filter of a condition fails at a reading in its window. -/
def Judged (c : Condition) (s : Snapshot) : Prop :=
  ∀ r ∈ s.readings, c.isInWindow s.now r = true → ∃ b, judge c.filters r = .ok b

variable {c : Condition} {s : Snapshot}

theorem isInWindow_eq {start : Moment} (h : windowStart s.now c.aggregation.period = .ok start) :
    (fun r => c.metric.selects r && Snapshot.isBetween start s.now r.timestamp)
      = c.isInWindow s.now := by
  funext r
  unfold isInWindow Snapshot.isBetween
  rw [instant_windowStart h]

end Condition

/-! ## Filters -/

/-- One filter more. -/
theorem judge_cons_eq_ok_iff {f : ReadingFilter} {fs : List ReadingFilter} {r : Reading}
    {b : Bool} : judge (f :: fs) r = .ok b ↔
      f.passes r = .ok false ∧ b = false ∨
        f.passes r = .ok true ∧ judge fs r = .ok b := by
  show (f.passes r >>= _) = .ok b ↔ _
  cases f.passes r with
  | error e => simp [bind, Except.bind]
  | ok x =>
      cases x with
      | false => simp [bind, Except.bind, pure, Except.pure, eq_comm]
      | true =>
          show judge fs r = .ok b ↔ _
          simp

/-- Filters one after the other keep the readings that pass them all, if none of them fails. -/
theorem filterReadings_eq {fs : List ReadingFilter} {rs : List Reading}
    (h : ∀ r ∈ rs, ∃ b, judge fs r = .ok b) :
    fs.foldlM (fun rs f => filterReadings f rs) rs
      = .ok (rs.filter fun r => (judge fs r).toOption == some true) := by
  induction fs generalizing rs with
  | nil => exact congrArg Except.ok (List.filter_eq_self.mpr fun r _ => rfl).symm
  | cons f fs ih =>
      have hfirst : ∀ r ∈ rs, ∃ b, f.passes r = .ok b := by
        intro r hr
        obtain ⟨b, hb⟩ := h r hr
        rcases judge_cons_eq_ok_iff.mp hb with ⟨hno, -⟩ | ⟨hyes, -⟩
        · exact ⟨false, hno⟩
        · exact ⟨true, hyes⟩
      obtain ⟨kept, hkept⟩ := exists_filterM_eq_ok hfirst
      have hmem := (filterM_eq_ok hkept).2
      have hrest : ∀ r ∈ kept, ∃ b, judge fs r = .ok b := by
        intro r hr
        rw [hmem] at hr
        obtain ⟨hr, hpassed⟩ := List.mem_filter.mp hr
        obtain ⟨b, hb⟩ := h r hr
        rcases judge_cons_eq_ok_iff.mp hb with ⟨hno, -⟩ | ⟨-, hrest⟩
        · rw [hno] at hpassed
          cases hpassed
        · exact ⟨b, hrest⟩
      rw [List.foldlM_cons]
      refine bind_eq_ok_iff.mpr ⟨kept, hkept, (ih hrest).trans (congrArg Except.ok ?_)⟩
      rw [hmem, List.filter_filter]
      refine List.filter_congr fun r hr => ?_
      show _ = ((f.passes r >>= _ : Except Fault Bool).toOption == some true)
      obtain ⟨x, hx⟩ := hfirst r hr
      rw [hx]
      cases x with
      | false => exact Bool.and_false _
      | true => exact Bool.and_true _

/-- Taking readings out before the filters is as good as taking them out behind them, if no filter
fails at a reading that is taken out. -/
theorem filterReadings_filter {fs : List ReadingFilter} {rs : List Reading} {q : Reading → Bool}
    (h : ∀ r ∈ rs, q r = false → ∃ b, judge fs r = .ok b) :
    fs.foldlM (fun rs f => filterReadings f rs) (rs.filter q)
      = (fs.foldlM (fun rs f => filterReadings f rs) rs).map (List.filter q) := by
  induction fs generalizing rs with
  | nil => rfl
  | cons f fs ih =>
      have hfirst : ∀ r ∈ rs, q r = false → ∃ b, f.passes r = .ok b := by
        intro r hr hq
        obtain ⟨b, hb⟩ := h r hr hq
        rcases judge_cons_eq_ok_iff.mp hb with ⟨hno, -⟩ | ⟨hyes, -⟩
        · exact ⟨false, hno⟩
        · exact ⟨true, hyes⟩
      rw [List.foldlM_cons, List.foldlM_cons]
      unfold filterReadings
      rw [filterM_filter hfirst]
      cases hkept : rs.filterM fun r => f.passes r with
      | error e => rfl
      | ok kept =>
          refine ih fun r hr hq => ?_
          rw [(filterM_eq_ok hkept).2] at hr
          obtain ⟨hr, hpassed⟩ := List.mem_filter.mp hr
          obtain ⟨b, hb⟩ := h r hr hq
          rcases judge_cons_eq_ok_iff.mp hb with ⟨hno, -⟩ | ⟨-, hrest⟩
          · rw [hno] at hpassed
            cases hpassed
          · exact ⟨b, hrest⟩

/-- What filters keep was there before. -/
theorem mem_of_filterReadings {fs : List ReadingFilter} {rs kept : List Reading}
    (h : fs.foldlM (fun rs f => filterReadings f rs) rs = .ok kept) {r : Reading} (hr : r ∈ kept) :
    r ∈ rs := by
  induction fs generalizing rs with
  | nil =>
      cases h
      exact hr
  | cons f fs ih =>
      rw [List.foldlM_cons] at h
      obtain ⟨first, hfirst, h⟩ := bind_eq_ok_iff.mp h
      have hmem := ih h
      rw [(filterM_eq_ok hfirst).2] at hmem
      exact (List.mem_filter.mp hmem).1

/-! ## Selection -/

namespace Condition

variable {c : Condition} {s : Snapshot}

/-- Selection step by step: the window, the filters, the order of time. -/
theorem select_eq_bind (c : Condition) (s : Snapshot) :
    c.select s = (windowStart s.now c.aggregation.period >>= fun _ =>
      (c.filters.foldlM (fun rs f => filterReadings f rs)
        (s.readings.filter (c.isInWindow s.now))).map inTime) := by
  have hsteps : c.select s = (windowStart s.now c.aggregation.period >>= fun start =>
      (c.filters.foldlM (fun rs f => filterReadings f rs) (s.readings.filter fun r =>
        c.metric.selects r && Snapshot.isBetween start s.now r.timestamp)).map inTime) := by
    unfold select windowStart
    rw [bind_assoc]
    rfl
  cases hstart : windowStart s.now c.aggregation.period with
  | error e => rw [hsteps, hstart]; rfl
  | ok start => rw [hsteps, hstart, ← isInWindow_eq hstart]; rfl

/-- Only readings of the window are selected. -/
theorem mem_of_select {rs : List Reading} (h : c.select s = .ok rs) {r : Reading} (hr : r ∈ rs) :
    r ∈ s.readings ∧ c.isInWindow s.now r = true := by
  rw [select_eq_bind] at h
  obtain ⟨start, -, h⟩ := bind_eq_ok_iff.mp h
  cases hkept : c.filters.foldlM (fun rs f => filterReadings f rs)
      (s.readings.filter (c.isInWindow s.now)) with
  | error e =>
      rw [hkept] at h
      cases h
  | ok kept =>
      rw [hkept] at h
      cases h
      exact List.mem_filter.mp (mem_of_filterReadings hkept (mem_inTime.mp hr))

/-- **Selection.** If no filter fails in the window, the counted readings are selected, in order of
time. -/
theorem select_eq (h : c.Judged s) :
    c.select s = (windowStart s.now c.aggregation.period).map fun _ => inTime (c.counted s) := by
  have hjudged : ∀ r ∈ s.readings.filter (c.isInWindow s.now), ∃ b, judge c.filters r = .ok b :=
    fun r hr => h r (List.mem_filter.mp hr).1 (List.mem_filter.mp hr).2
  have hfilters := filterReadings_eq hjudged
  have hcounted : (s.readings.filter (c.isInWindow s.now)).filter
      (fun r => (judge c.filters r).toOption == some true) = c.counted s := by
    rw [List.filter_filter]
    exact List.filter_congr fun r _ => Bool.and_comm _ _
  rw [select_eq_bind, hfilters, hcounted]
  cases windowStart s.now c.aggregation.period with
  | error e => rfl
  | ok start => rfl

/-! ## From the readings to the result -/

/-- What a condition makes of the readings that it selected. -/
def conclude (c : Condition) (rs : List Reading) (s : Snapshot) : Except Fault ConditionResult := do
  let limit := c.threshold.value
  if !c.aggregation.hasEnough rs then
    let deviation ← orFault .outOfBounds (Number.sub? (.real 0.0) limit)
    return ⟨c.id, false, .real 0.0, limit, deviation, "insufficient_data"⟩
  let actual := c.aggregation.reduce rs
  let met ← c.compare actual s
  let deviation ← orFault .outOfBounds (Number.sub? (.real actual) limit)
  return ⟨c.id, met, .real actual, limit, deviation, code c.operator⟩

theorem evaluate_eq_bind (c : Condition) (s : Snapshot) :
    c.evaluate s = c.select s >>= fun rs => c.conclude rs s := rfl

/-- Too few readings never meet a condition. -/
theorem not_met_of_conclude {rs : List Reading} {k : ConditionResult}
    (h : c.conclude rs s = .ok k) (hfew : c.aggregation.hasEnough rs = false) : k.met = false := by
  unfold conclude at h
  rw [hfew] at h
  obtain ⟨deviation, -, h⟩ := bind_eq_ok_iff.mp h
  cases h
  rfl

/-- The method of a result tells whether there were readings enough. -/
theorem method_of_conclude {rs : List Reading} {k : ConditionResult}
    (h : c.conclude rs s = .ok k) :
    k.method = if c.aggregation.hasEnough rs then code c.operator else "insufficient_data" := by
  unfold conclude at h
  cases henough : c.aggregation.hasEnough rs with
  | false =>
      rw [henough] at h
      obtain ⟨deviation, -, h⟩ := bind_eq_ok_iff.mp h
      cases h
      rfl
  | true =>
      rw [henough] at h
      obtain ⟨met, -, h⟩ := bind_eq_ok_iff.mp h
      obtain ⟨deviation, -, h⟩ := bind_eq_ok_iff.mp h
      cases h
      rfl

theorem code_ne_insufficient (op : Comparison) : code op ≠ "insufficient_data" := by
  cases op <;> decide

/-- Readings that are enough alike, reduce to one value and are compared alike have one result. -/
theorem conclude_congr {t : Snapshot} {rs rs' : List Reading}
    (henough : c.aggregation.hasEnough rs = c.aggregation.hasEnough rs')
    (hvalue : c.aggregation.hasEnough rs = true →
      c.aggregation.reduce rs = c.aggregation.reduce rs')
    (hcompare : ∀ x, c.compare x s = c.compare x t) : c.conclude rs s = c.conclude rs' t := by
  unfold conclude
  rw [← henough]
  cases hrs : c.aggregation.hasEnough rs with
  | false => rfl
  | true => simp only [hvalue hrs, hcompare]

end Condition

/-- **Evaluation.** If no filter fails in the window, the result is told by the counted readings in
order of time. -/
theorem Condition.evaluate_of_judged {c : Condition} {s : Snapshot} (h : c.Judged s) :
    c.evaluate s = windowStart s.now c.aggregation.period >>= fun _ =>
      c.conclude (inTime (c.counted s)) s := by
  rw [evaluate_eq_bind, select_eq h]
  cases windowStart s.now c.aggregation.period with
  | error e => rfl
  | ok start => rfl

/-! ## Baselines -/

/-- The period that a baseline goes back. -/
def baselineSpan (written : String) : Except Fault Span :=
  period (if written.isEmpty then Threshold.standardPeriod else written)

/-- The readings of a metric in the history between two moments. -/
def Snapshot.recalled (s : Snapshot) (metric : Metric) (since : Moment) : List Reading :=
  s.history.filter fun r => metric.selects r && Snapshot.isBetween since s.now r.timestamp

/-- The mean of values; zero when there are none. -/
def meanOrZero : List Float → Float
  | [] => 0.0
  | xs => Summation.mean xs

theorem baseline_eq (metric : Metric) (s : Snapshot) (written : String) :
    baseline metric s written = baselineSpan written >>= fun span =>
      (orFault .outOfBounds (s.now.minus? span)).map fun since =>
        meanOrZero ((s.recalled metric since).map (·.value)) := by
  unfold baseline baselineSpan
  refine bind_congr fun span => ?_
  cases s.now.minus? span with
  | none => rfl
  | some since =>
      have hmean : ∀ xs : List Float, (match xs with
          | [] => (pure 0.0 : Except Fault Float)
          | xs => pure (Summation.mean xs)) = .ok (meanOrZero xs) := by
        intro xs
        cases xs with
        | nil => rfl
        | cons x xs => rfl
      exact hmean _

/-- Snapshots from which both or none can go back, and that recall the same values. -/
theorem baseline_congr {s t : Snapshot} {metric : Metric} {written : String}
    (h : ∀ span, baselineSpan written = .ok span →
      (s.now.minus? span = none ∧ t.now.minus? span = none) ∨
        ∃ a b, s.now.minus? span = some a ∧ t.now.minus? span = some b ∧
          (s.recalled metric a).map (·.value) = (t.recalled metric b).map (·.value)) :
    baseline metric s written = baseline metric t written := by
  rw [baseline_eq, baseline_eq]
  cases hspan : baselineSpan written with
  | error e => rfl
  | ok span =>
      rcases h span hspan with ⟨hs, ht⟩ | ⟨a, b, hs, ht, hvalues⟩
      · show Except.map _ _ = Except.map _ _
        rw [hs, ht]
        rfl
      · show Except.map _ _ = Except.map _ _
        rw [hs, ht]
        exact congrArg (fun xs => Except.ok (meanOrZero xs)) hvalues

/-- Only a change is weighed against a baseline. -/
theorem Condition.compare_congr {c : Condition} {s t : Snapshot}
    (h : ∀ percent written, c.threshold = .percentChange percent written →
      baseline c.metric s written = baseline c.metric t written) (x : Float) :
    c.compare x s = c.compare x t := by
  unfold compare
  cases ht : c.threshold with
  | percentChange percent written => exact congrArg (· >>= _) (h percent written ht)
  | scalar v => rfl
  | range low high => rfl

end BuildingAlerts
