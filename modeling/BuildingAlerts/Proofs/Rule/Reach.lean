/-
Which rules are evaluated to the end.

Evaluating a rule does arithmetic with dates, reads a period, weighs values against each other and
looks for open alerts, and each of these can fail. A loaded configuration rules out some of it: its
thresholds are doubles of the right shape. What it does not rule out is said here as what a rule
reaches in a snapshot: the calendar goes back far enough for its windows, its baseline periods can
be read, and the whole numbers that are weighed have doubles. A rule that reaches all this is
evaluated to the end, at any store whose alerts were triggered at moments with an offset.
-/
import BuildingAlerts.Proofs.Alert.Spacing
import BuildingAlerts.Proofs.Document.Yields
import BuildingAlerts.Rule.Evaluation

set_option autoImplicit false

namespace BuildingAlerts

variable {s : Snapshot}

/-! ## Windows -/

/-- Whether the calendar has the moment that lies a number of microseconds before a snapshot. -/
def Snapshot.Covers (s : Snapshot) (micros : Int) : Prop :=
  Moment.inCalendar (s.now.wall - micros) = true

namespace Snapshot

theorem Covers.exists_minus? {span : Span} (h : s.Covers span.micros) :
    ∃ start, s.now.minus? span = some start :=
  ⟨_, if_pos h⟩

/-- A window that the calendar covers is short enough for a span. -/
theorem Covers.exists_start {minutes : Int} (h : s.Covers (minutes * Span.microsPerMinute))
    (hnow : s.now.IsDated) :
    ∃ span, Span.ofMinutes? minutes = some span ∧ ∃ start, s.now.minus? span = some start := by
  have hstart := h
  have hnow := hnow.1
  unfold Covers Moment.inCalendar at h
  unfold Moment.inCalendar at hnow
  rw [Bool.and_eq_true, decide_eq_true_iff, decide_eq_true_iff] at h hnow
  have hend : Moment.wallEnd = 3652059 * Span.microsPerDay := by decide
  have hday : Span.microsPerDay = 86400000000 := by decide
  refine ⟨⟨minutes * Span.microsPerMinute⟩, if_pos ?_, Covers.exists_minus? hstart⟩
  unfold Span.days Span.mostDays
  dsimp only
  rw [hday] at hend ⊢
  rw [hend] at h hnow
  omega

theorem covers_of_le (hnow : s.now.IsDated) {micros : Int} (hpos : 0 ≤ micros)
    (hle : micros ≤ s.now.wall) : s.Covers micros := by
  have hnow := hnow.1
  unfold Moment.inCalendar at hnow
  unfold Covers Moment.inCalendar
  rw [Bool.and_eq_true, decide_eq_true_iff, decide_eq_true_iff] at hnow ⊢
  omega

end Snapshot

/-! ## Filters -/

/-- Whether a value, if it is a whole number, has a double. -/
def FieldValue.IsBounded : FieldValue → Prop
  | .plain (.number (.whole n)) => (Decimal.ofInt? n).isSome = true
  | _ => True

theorem FieldValue.exists_measure {v : FieldValue} (h : v.IsBounded) :
    ∃ x, v.measure = .ok x := by
  cases v with
  | moment m => exact ⟨none, rfl⟩
  | plain v =>
      cases v with
      | text t => exact ⟨_, rfl⟩
      | null => exact ⟨none, rfl⟩
      | list l => exact ⟨none, rfl⟩
      | object ms => exact ⟨none, rfl⟩
      | bool b =>
          have hb : (Decimal.ofInt? (if b then 1 else 0)).isSome = true := by
            cases b with
            | false => decide +kernel
            | true => decide +kernel
          obtain ⟨x, hx⟩ := Option.isSome_iff_exists.mp hb
          exact ⟨some x, congrArg (fun o => (orFault .outOfBounds o).map some) hx⟩
      | number n =>
          cases n with
          | real x => exact ⟨some x, rfl⟩
          | whole n =>
              obtain ⟨x, hx⟩ := Option.isSome_iff_exists.mp h
              exact ⟨some x, congrArg (fun o => (orFault .outOfBounds o).map some) hx⟩

theorem exists_compareMeasures {test : Float → Float → Bool} {a b : FieldValue}
    (ha : a.IsBounded) (hb : b.IsBounded) : ∃ x, compareMeasures test a b = .ok x := by
  obtain ⟨x, hx⟩ := a.exists_measure ha
  obtain ⟨y, hy⟩ := b.exists_measure hb
  unfold compareMeasures
  rw [hx]
  cases x with
  | none => exact ⟨false, rfl⟩
  | some x =>
      rw [hy]
      cases y with
      | none => exact ⟨false, rfl⟩
      | some y => exact ⟨test x y, rfl⟩

namespace ReadingFilter

/-- Whether a filter weighs its value against a field of a reading. -/
def Weighs (f : ReadingFilter) : Prop :=
  f.operator = "greater_than" ∨ f.operator = "less_than"

/-- Whether the whole numbers that a filter weighs have doubles. -/
def IsBounded (f : ReadingFilter) (r : Reading) : Prop :=
  f.Weighs → (FieldValue.plain f.value).IsBounded ∧ (r.field f.field).IsBounded

theorem exists_passes {f : ReadingFilter} {r : Reading} (h : f.IsBounded r) :
    ∃ b, f.passes r = .ok b := by
  unfold passes
  dsimp only
  split
  · exact ⟨_, rfl⟩
  · exact ⟨_, rfl⟩
  · exact ⟨_, rfl⟩
  · rename_i hop
    obtain ⟨hv, hr⟩ := h (.inl hop)
    exact exists_compareMeasures hr hv
  · rename_i hop
    obtain ⟨hv, hr⟩ := h (.inr hop)
    exact exists_compareMeasures hr hv
  · exact ⟨true, rfl⟩

end ReadingFilter

/-- Filters one after the other; each looks only at what the earlier ones kept. -/
theorem exists_filterReadings {fs : List ReadingFilter} {rs : List Reading}
    (h : ∀ f ∈ fs, ∀ r ∈ rs, f.IsBounded r) :
    ∃ rs', fs.foldlM (fun rs f => filterReadings f rs) rs = .ok rs' := by
  induction fs generalizing rs with
  | nil => exact ⟨rs, rfl⟩
  | cons f fs ih =>
      obtain ⟨kept, hkept⟩ := exists_filterM_eq_ok fun r hr =>
        (f.exists_passes (h f List.mem_cons_self r hr))
      have hsub : ∀ r ∈ kept, r ∈ rs := by
        rw [(filterM_eq_ok hkept).2]
        exact fun r hr => (List.mem_filter.mp hr).1
      obtain ⟨rs', hrs'⟩ := ih fun g hg r hr =>
        h g (List.mem_cons_of_mem _ hg) r (hsub r hr)
      rw [List.foldlM_cons]
      exact ⟨rs', bind_eq_ok_iff.mpr ⟨kept, hkept, hrs'⟩⟩

/-! ## Conditions -/

/-- Whether a snapshot has the baseline of a threshold: its period can be read and begins in the
calendar. Only a change has a baseline. -/
def Threshold.Reaches (t : Threshold) (s : Snapshot) : Prop :=
  match t with
  | .percentChange _ written =>
    ∃ span, period (if written.isEmpty then standardPeriod else written) = .ok span ∧
      s.Covers span.micros
  | _ => True

/-- Whether a condition can be evaluated on a snapshot. -/
structure Condition.Reaches (c : Condition) (s : Snapshot) : Prop where
  window : s.Covers (c.aggregation.period * Span.microsPerMinute)
  baseline : c.threshold.Reaches s
  filters : ∀ f ∈ c.filters, ∀ r ∈ s.readings, c.metric.selects r = true → f.IsBounded r

theorem exists_baseline {percent : Number} {written : String} (metric : Metric)
    (h : (Threshold.percentChange percent written).Reaches s) :
    ∃ x, baseline metric s written = .ok x := by
  obtain ⟨span, hspan, hcovers⟩ := h
  obtain ⟨start, hstart⟩ := hcovers.exists_minus?
  unfold baseline
  cases hvalues : (s.history.filter fun r =>
      metric.selects r && Snapshot.isBetween start s.now r.timestamp).map (·.value) with
  | nil =>
      refine ⟨0.0, bind_eq_ok_iff.mpr ⟨span, hspan, bind_eq_ok_iff.mpr
        ⟨start, orFault_eq_ok_iff.mpr hstart, ?_⟩⟩⟩
      dsimp only
      rw [hvalues]
      rfl
  | cons x xs =>
      refine ⟨Summation.mean (x :: xs), bind_eq_ok_iff.mpr ⟨span, hspan, bind_eq_ok_iff.mpr
        ⟨start, orFault_eq_ok_iff.mpr hstart, ?_⟩⟩⟩
      dsimp only
      rw [hvalues]
      rfl

/-- Doubles can always be weighed against a baseline. -/
theorem exists_changesBeyond (x base percent : Float) :
    ∃ b, changesBeyond (.real x) (.real base) (.real percent) = .ok b := by
  unfold changesBeyond
  cases (Number.real base).isZero with
  | false => exact ⟨_, rfl⟩
  | true => exact ⟨false, rfl⟩

/-- Whether the numbers of a result are doubles. -/
structure ConditionResult.IsReal (r : ConditionResult) : Prop where
  actual : r.actual.IsReal
  threshold : r.threshold.IsReal
  deviation : r.deviation.IsReal

/-- Doubles of the right shape can be compared. -/
theorem Comparison.exists_holds {op : Comparison} {t : Threshold} {x : Float}
    (hshape : t.shape = op.shape) (hop : op ≠ .percentageChange) (ht : t.IsReal) :
    ∃ b, op.holds (.real x) t = .ok b := by
  have hvalue := ht.value
  obtain ⟨v, hv⟩ := hvalue
  have hnear : ∃ b, isNear (.real x) t.value = .ok b := ⟨_, by rw [hv]; rfl⟩
  have hapart : ∃ b, isApart (.real x) t.value = .ok b := ⟨_, by rw [hv]; rfl⟩
  have hwithin : op.shape = .range → ∃ b, isWithin t (.real x) = .ok b := by
    intro hrange
    cases t with
    | range low high => exact ⟨_, rfl⟩
    | scalar v => cases hshape.trans hrange
    | percentChange p b => cases hshape.trans hrange
  cases op with
  | greaterThan => exact ⟨_, rfl⟩
  | lessThan => exact ⟨_, rfl⟩
  | greaterThanOrEqual => exact ⟨_, rfl⟩
  | lessThanOrEqual => exact ⟨_, rfl⟩
  | equals => exact hnear
  | notEquals => exact hapart
  | between => exact hwithin rfl
  | outsideRange =>
      obtain ⟨b, hb⟩ := hwithin rfl
      exact ⟨!b, congrArg (Except.map (!·)) hb⟩
  | rateOfChange => exact ⟨_, rfl⟩
  | percentageChange => exact absurd rfl hop

namespace Condition

variable {c : Condition}

theorem Reaches.exists_select (h : c.Reaches s) (hnow : s.now.IsDated) :
    ∃ rs, c.select s = .ok rs := by
  obtain ⟨span, hspan, start, hstart⟩ := h.window.exists_start hnow
  have hbounded : ∀ f ∈ c.filters, ∀ r ∈ s.readings.filter fun r =>
      c.metric.selects r && Snapshot.isBetween start s.now r.timestamp, f.IsBounded r := by
    intro f hf r hr
    obtain ⟨hr, hsel⟩ := List.mem_filter.mp hr
    rw [Bool.and_eq_true] at hsel
    exact h.filters f hf r hr hsel.1
  obtain ⟨rs, hrs⟩ := exists_filterReadings hbounded
  unfold select
  exact ⟨_, bind_eq_ok_iff.mpr ⟨span, orFault_eq_ok_iff.mpr hspan, bind_eq_ok_iff.mpr
    ⟨start, orFault_eq_ok_iff.mpr hstart, bind_eq_ok_iff.mpr ⟨rs, hrs, rfl⟩⟩⟩⟩

theorem Reaches.exists_compare (h : c.Reaches s) (hc : c.threshold.IsReal) (x : Float) :
    ∃ b, c.compare x s = .ok b := by
  have hbaseline := h.baseline
  have hfits := c.fits
  unfold compare
  cases ht : c.threshold with
  | percentChange percent written =>
      rw [ht] at hbaseline hc
      obtain ⟨p, rfl⟩ := hc
      obtain ⟨base, hbase⟩ := exists_baseline c.metric hbaseline
      obtain ⟨b, hb⟩ := exists_changesBeyond x base p
      exact ⟨b, bind_eq_ok_iff.mpr ⟨base, hbase, hb⟩⟩
  | scalar v =>
      rw [ht] at hfits hc
      refine Comparison.exists_holds hfits (fun hop => ?_) hc
      rw [hop] at hfits
      cases hfits
  | range low high =>
      rw [ht] at hfits hc
      refine Comparison.exists_holds hfits (fun hop => ?_) hc
      rw [hop] at hfits
      cases hfits

/-- A condition that reaches what it needs is evaluated, and its result is in doubles. -/
theorem Reaches.exists_evaluate (h : c.Reaches s) (hc : c.threshold.IsReal)
    (hnow : s.now.IsDated) : ∃ r, c.evaluate s = .ok r ∧ r.IsReal := by
  obtain ⟨rs, hrs⟩ := h.exists_select hnow
  obtain ⟨v, hv⟩ := hc.value
  unfold evaluate
  rw [hv]
  cases henough : c.aggregation.hasEnough rs with
  | false =>
      refine ⟨⟨c.id, false, .real 0.0, .real v, .real (0.0 - v), "insufficient_data"⟩,
        bind_eq_ok_iff.mpr ⟨rs, hrs, ?_⟩, ⟨_, rfl⟩, ⟨_, rfl⟩, ⟨_, rfl⟩⟩
      rw [henough]
      rfl
  | true =>
      obtain ⟨b, hb⟩ := h.exists_compare hc (c.aggregation.reduce rs)
      refine ⟨⟨c.id, b, .real (c.aggregation.reduce rs), .real v,
          .real (c.aggregation.reduce rs - v), code c.operator⟩,
        bind_eq_ok_iff.mpr ⟨rs, hrs, ?_⟩, ⟨_, rfl⟩, ⟨_, rfl⟩, ⟨_, rfl⟩⟩
      rw [henough]
      exact bind_eq_ok_iff.mpr ⟨b, hb, rfl⟩

end Condition

/-! ## Figures of an alert

An alert is described in figures that are computed from the results. Arithmetic on doubles has
no bounds to leave, so nothing of this fails. -/

namespace Number

variable {a b : Number}

theorem IsReal.abs (h : a.IsReal) : a.abs.IsReal := by
  obtain ⟨x, rfl⟩ := h
  exact ⟨x.abs, rfl⟩

theorem IsReal.greatest (ha : a.IsReal) (hb : b.IsReal) : (a.greatest b).IsReal := by
  unfold Number.greatest
  split
  · exact hb
  · exact ha

theorem IsReal.least (ha : a.IsReal) (hb : b.IsReal) : (a.least b).IsReal := by
  unfold Number.least
  split
  · exact hb
  · exact ha

theorem IsReal.exists_toFloat? (h : a.IsReal) : ∃ x, a.toFloat? = some x := by
  obtain ⟨x, rfl⟩ := h
  exact ⟨x, rfl⟩

theorem IsReal.exists_div? (ha : a.IsReal) (hb : b.IsReal) :
    ∃ c, a.div? b = some c ∧ c.IsReal := by
  obtain ⟨x, rfl⟩ := ha
  obtain ⟨y, rfl⟩ := hb
  exact ⟨_, rfl, _, rfl⟩

theorem IsReal.exists_figure (h : a.IsReal) : ∃ t, figure a = .ok t := by
  obtain ⟨x, rfl⟩ := h
  exact ⟨_, rfl⟩

end Number

theorem ConditionResult.IsReal.exists_overshoot {r : ConditionResult} (h : r.IsReal) :
    ∃ x, Confidence.overshoot r = .ok x := by
  obtain ⟨ratio, hratio, hreal⟩ :=
    h.deviation.abs.exists_div? (h.threshold.abs.greatest ⟨1.0, rfl⟩)
  obtain ⟨x, hx⟩ := (hreal.least ⟨2.0, rfl⟩).exists_toFloat?
  exact ⟨x, bind_eq_ok_iff.mpr ⟨ratio, orFault_eq_ok_iff.mpr hratio, orFault_eq_ok_iff.mpr hx⟩⟩

variable {results : List ConditionResult}

theorem isReal_of_mem_metOf (h : ∀ r ∈ results, r.IsReal) : ∀ r ∈ metOf results, r.IsReal :=
  fun r hr => h r (List.mem_filter.mp hr).1

theorem exists_confidence (h : ∀ r ∈ results, r.IsReal) :
    ∃ x, Confidence.of results = .ok x := by
  obtain ⟨overshoots, hovershoots⟩ := exists_mapM_eq_ok fun r hr =>
    (isReal_of_mem_metOf h r hr).exists_overshoot
  unfold Confidence.of
  dsimp only
  split
  · exact ⟨_, rfl⟩
  · split
    · exact ⟨_, rfl⟩
    · exact ⟨_, bind_eq_ok_iff.mpr ⟨overshoots, hovershoots, rfl⟩⟩

theorem exists_describe (h : ∀ r ∈ results, r.IsReal) (name description : String) :
    ∃ t, describe name description results = .ok t := by
  have hmet := isReal_of_mem_metOf h
  unfold describe
  dsimp only
  split
  · rename_i r hr
    rw [hr] at hmet
    have hr := hmet r (List.mem_singleton_self r)
    obtain ⟨actual, hactual⟩ := hr.actual.exists_figure
    obtain ⟨threshold, hthreshold⟩ := hr.threshold.exists_figure
    exact ⟨_, bind_eq_ok_iff.mpr ⟨actual, hactual, bind_eq_ok_iff.mpr
      ⟨threshold, hthreshold, rfl⟩⟩⟩
  · exact ⟨_, rfl⟩

theorem ConditionResult.IsReal.exists_advice {r : ConditionResult} (h : r.IsReal) :
    ∃ l, Advice.ofResult r = .ok l := by
  obtain ⟨distance, hdistance⟩ := h.deviation.abs.exists_figure
  obtain ⟨x, hx⟩ := h.threshold.abs
  have hhalf : orFault .outOfBounds (r.threshold.abs.scale? 0.5) = .ok (.real (x * 0.5)) := by
    rw [hx]
    rfl
  exact ⟨_, bind_eq_ok_iff.mpr ⟨distance, hdistance, bind_eq_ok_iff.mpr ⟨_, hhalf, rfl⟩⟩⟩

theorem exists_advice (h : ∀ r ∈ results, r.IsReal) (hasChanges : Bool) :
    ∃ l, Advice.of results hasChanges = .ok l := by
  obtain ⟨parts, hparts⟩ := exists_mapM_eq_ok fun r hr =>
    (isReal_of_mem_metOf h r hr).exists_advice
  exact ⟨_, bind_eq_ok_iff.mpr ⟨parts, hparts, rfl⟩⟩

theorem exists_summarize {v : MetricValue} (h : v.value.IsReal) (s : Snapshot) :
    ∃ t, summarize s v = .ok t := by
  obtain ⟨x, hx⟩ := h
  have htrend : ∃ t, Trend.of v.value ((s.historicalMean? v.metric).map .real) = .ok t := by
    rw [hx]
    cases s.historicalMean? v.metric with
    | none => exact ⟨_, rfl⟩
    | some average => exact ⟨_, rfl⟩
  obtain ⟨trend, htrend⟩ := htrend
  exact ⟨_, bind_eq_ok_iff.mpr ⟨trend, htrend, rfl⟩⟩

/-! ## Alerts of a rule -/

theorem Drafting.on_bind_of_ok {α β : Type} {d : Drafting α} {f : α → Drafting β}
    {ids mid : IdSource} {a : α} (h : d.on ids = (.ok a, mid)) :
    (d >>= f).on ids = (f a).on mid := by
  have hbind : (d >>= f).on ids = StateT.run (ExceptT.bindCont f (d.on ids).1) (d.on ids).2 := rfl
  rw [hbind, h]
  rfl

theorem Drafting.on_bind_except {α β : Type} {x : Except Fault α} {a : α} (h : x = .ok a)
    {f : α → Drafting β} {ids : IdSource} : Drafting.on (x >>= f) ids = (f a).on ids := by
  rw [h]
  rfl

/-- Whether the share of the building that is taken has a double. -/
def Occupancy.IsBounded (o : Occupancy) : Prop :=
  0 < o.capacity → (Decimal.ofQuotient? o.current o.capacity).isSome = true

theorem Snapshot.exists_factors (h : ∀ o ∈ s.occupancy, o.IsBounded) :
    ∃ l, s.factors = .ok l := by
  have hcrowd : ∃ l, occupancyFactor s.occupancy = .ok l := by
    cases ho : s.occupancy with
    | none => exact ⟨[], rfl⟩
    | some o =>
        unfold occupancyFactor
        dsimp only
        split
        · exact ⟨[], rfl⟩
        · rename_i hpos
          have hpos := Int.not_le.mp hpos
          obtain ⟨x, hx⟩ := Option.isSome_iff_exists.mp (h o ho hpos)
          have hratio : o.ratio = .ok x := by
            unfold Occupancy.ratio
            rw [if_pos hpos, hx]
            rfl
          exact ⟨_, bind_eq_ok_iff.mpr ⟨x, hratio, rfl⟩⟩
  obtain ⟨crowd, hcrowd⟩ := hcrowd
  exact ⟨_, bind_eq_ok_iff.mpr ⟨crowd, hcrowd, rfl⟩⟩

/-- Whether a rule can be evaluated on a snapshot: its windows begin in the calendar, the cooldown
only if duplicates are looked for, and so can its conditions. -/
structure Rule.Reaches (r : Rule) (s : Snapshot) : Prop where
  window : r.window * Span.microsPerMinute ≤ s.now.wall
  cooldown : r.suppressDuplicates = true → r.cooldown * Span.microsPerMinute ≤ s.now.wall
  conditions : ∀ c ∈ r.conditions, c.Reaches s
  occupancy : ∀ o ∈ s.occupancy, o.IsBounded

namespace Rule

variable {r : Rule}

theorem exists_surroundings {values : List MetricValue}
    (hwindow : s.Covers (r.window * Span.microsPerMinute)) (hnow : s.now.IsDated)
    (hvalues : ∀ v ∈ values, v.value.IsReal) (c : Configuration) (store : Store) :
    ∃ t, r.surroundings c s values store = .ok t := by
  obtain ⟨sensors, hsensors⟩ := exists_mapM_eq_ok fun v hv =>
    exists_summarize (hvalues v hv) s
  obtain ⟨span, hspan, start, hstart⟩ := hwindow.exists_start hnow
  exact ⟨_, bind_eq_ok_iff.mpr ⟨sensors, hsensors, bind_eq_ok_iff.mpr
    ⟨span, orFault_eq_ok_iff.mpr hspan, bind_eq_ok_iff.mpr
      ⟨start, orFault_eq_ok_iff.mpr hstart, rfl⟩⟩⟩⟩

theorem Reaches.exists_results (h : r.Reaches s) (hr : r.IsReal) (hnow : s.now.IsDated) :
    ∃ rs, r.results s = .ok rs ∧ ∀ k ∈ rs, k.IsReal := by
  have hall : ∀ c ∈ r.conditions, ∃ k, c.evaluate s = .ok k ∧ k.IsReal := fun c hc =>
    (h.conditions c hc).exists_evaluate (hr c hc) hnow
  obtain ⟨rs, hrs⟩ := exists_mapM_eq_ok fun c hc => (hall c hc).imp fun k hk => hk.1
  refine ⟨rs, hrs, fun k hk => ?_⟩
  obtain ⟨c, hc, hk⟩ := exists_of_mapM_eq_ok hrs k hk
  obtain ⟨k', hk', hreal⟩ := hall c hc
  cases hk.symm.trans hk'
  exact hreal

/-- The alert of a rule that triggered can be made. -/
theorem exists_alert {results : List ConditionResult} (h : r.Reaches s) (hnow : s.now.IsDated)
    (hpos : 0 ≤ r.window) (hresults : ∀ k ∈ results, k.IsReal) (c : Configuration)
    (store : Store) (ids : IdSource) :
    ∃ a ids', (r.alert c s results store).on ids = (.ok a, ids') := by
  have hwindow : s.Covers (r.window * Span.microsPerMinute) :=
    Snapshot.covers_of_le hnow (Int.mul_nonneg hpos (by decide)) h.window
  obtain ⟨factors, hfactors⟩ := Snapshot.exists_factors h.occupancy
  have hvalues : ∀ v ∈ List.zipWith (valueOf s factors) r.conditions results,
      v.value.IsReal := by
    intro v hv
    rw [← List.map_uncurry_zip_eq_zipWith] at hv
    obtain ⟨⟨k, result⟩, hmem, rfl⟩ := List.mem_map.mp hv
    exact (hresults result (List.of_mem_zip hmem).2).actual
  obtain ⟨surroundings, hsurroundings⟩ := exists_surroundings hwindow hnow hvalues c store
  obtain ⟨description, hdescription⟩ := exists_describe hresults r.name r.description
  obtain ⟨confidence, hconfidence⟩ := exists_confidence hresults
  obtain ⟨actions, hactions⟩ := exists_advice hresults (!surroundings.changes.isEmpty)
  unfold alert
  rw [Drafting.on_bind_except hfactors, Drafting.on_bind_except hsurroundings,
    Drafting.on_bind_except hdescription, Drafting.on_bind_except hconfidence,
    Drafting.on_bind_except hactions]
  exact ⟨_, _, rfl⟩

end Rule

/-! ## Stores of dated alerts -/

/-- Whether all alerts of a store were triggered at moments with an offset. -/
def Store.IsDated (s : Store) : Prop :=
  ∀ a ∈ s.all, a.triggeredAt.offset.isSome = true

theorem Store.isDated_empty : Store.empty.IsDated :=
  fun _ ha => absurd ha List.not_mem_nil

/-- The open duplicate of a rule can be looked for. -/
theorem Store.IsDated.exists_openDuplicate? {store : Store} (h : store.IsDated)
    {now : Moment} {cooldown : Int} {span : Span} {start : Moment}
    (hspan : Span.ofMinutes? cooldown = some span) (hstart : now.minus? span = some start)
    (hnow : now.offset.isSome = true) (configurationId ruleId : String) :
    ∃ d, store.openDuplicate? configurationId ruleId now cooldown = .ok d := by
  have hyoung : ∀ a ∈ store.all.filter (isOpenOf configurationId ruleId),
      ∃ b, triggeredSince start a = .ok b := by
    intro a ha
    have hoffset : a.triggeredAt.offset.isSome = start.offset.isSome := by
      rw [h a (List.mem_filter.mp ha).1, (Moment.minus?_eq_some hstart).1, hnow]
    obtain ⟨b, hb⟩ := Moment.exists_le? hoffset
    exact ⟨b, orFault_eq_ok_iff.mpr hb⟩
  obtain ⟨young, hyoung⟩ := exists_filterM_eq_ok hyoung
  exact ⟨_, bind_eq_ok_iff.mpr ⟨span, orFault_eq_ok_iff.mpr hspan, bind_eq_ok_iff.mpr
    ⟨start, orFault_eq_ok_iff.mpr hstart, bind_eq_ok_iff.mpr ⟨young, hyoung, rfl⟩⟩⟩⟩

/-- An alert that is added at a moment with an offset. -/
theorem Store.IsDated.add {store : Store} (h : store.IsDated) {a : Alert}
    (ha : a.triggeredAt.offset.isSome = true) : (store.add a).IsDated := by
  intro b hb
  rcases mem_all_add hb with rfl | hb
  · exact ha
  · exact h b hb

/-- What becomes of an alert does not change when it was triggered. -/
theorem Store.IsDated.adjustAt {store : Store} (h : store.IsDated) {ref : AlertRef}
    {f : Alert → Alert} (hf : ∀ a, (f a).Follows a) : (store.adjustAt ref f).IsDated := by
  intro b hb
  obtain ⟨a, ha, hfollows⟩ := mem_all_adjustAt hf hb
  rw [hfollows.triggeredAt]
  exact h a ha

/-! ## Evaluation -/

namespace Rule

variable {r : Rule} {c : Configuration} {store : Store} {ids : IdSource}

/-- **Evaluation of a rule within reach.** It ends, with or without an alert. -/
theorem Reaches.exists_evaluate (h : r.Reaches s) (hr : r.IsReal) (hnow : s.now.IsDated)
    (hwindow : 0 ≤ r.window) (hcooldown : 0 ≤ r.cooldown) (hstore : store.IsDated) :
    ∃ found store' ids', (r.evaluate c s store).on ids = (.ok (found, store'), ids') := by
  obtain ⟨results, hresults, hreal⟩ := h.exists_results hr hnow
  have hlook : ∃ d, (r.triggering c s results).lookUp store = .ok d := by
    unfold Triggering.lookUp
    split
    · rename_i hsuppress
      have hcovers : s.Covers (r.cooldown * Span.microsPerMinute) :=
        Snapshot.covers_of_le hnow (Int.mul_nonneg hcooldown (by decide)) (h.cooldown hsuppress)
      obtain ⟨span, hspan, start, hstart⟩ := hcovers.exists_start hnow
      exact hstore.exists_openDuplicate? hspan hstart hnow.2 c.id r.id
    · exact ⟨none, rfl⟩
  have hopen : ∃ answer ids', (store.openOrAdd c.id r.id s.now r.cooldown r.suppressDuplicates
      (r.alert c s results)).on ids = (.ok answer, ids') := by
    obtain ⟨d, hd⟩ := hlook
    obtain ⟨a, ids', ha⟩ := exists_alert h hnow hwindow hreal c store ids
    have hon := Store.openOrAdd_on (r.triggering c s results) store ids
    rw [hd] at hon
    cases d with
    | some b => exact ⟨_, _, hon⟩
    | none =>
        refine ⟨(a, true, store.add a), ids', hon.trans ?_⟩
        exact congrArg (fun made : Except Fault Alert × IdSource =>
          (made.1.map fun a => (a, true, store.add a), made.2)) ha
  obtain ⟨⟨a, new, store'⟩, ids', hopen⟩ := hopen
  unfold evaluate
  rw [Drafting.on_bind_except hresults]
  split
  · rw [Drafting.on_bind_of_ok hopen]
    exact ⟨some a.id, store', ids', rfl⟩
  · exact ⟨none, store, ids, rfl⟩

/-- Evaluation of a rule at a snapshot with an offset adds no other alerts than dated ones. -/
theorem isDated_evaluate {found : Option String} {store' : Store} {ids' : IdSource}
    (h : (r.evaluate c s store).on ids = (.ok (found, store'), ids'))
    (hnow : s.now.offset.isSome = true) (hstore : store.IsDated) : store'.IsDated := by
  unfold evaluate at h
  obtain ⟨results, _, -, h⟩ := Drafting.on_bind_eq_ok h
  split at h
  · obtain ⟨⟨a, new, t⟩, _, hopen, h⟩ := Drafting.on_bind_eq_ok h
    cases h
    have hon := (Store.openOrAdd_on (r.triggering c s results) store _).symm.trans hopen
    split at hon
    · cases hon
    · cases hon
      exact hstore
    · cases hc : ((r.triggering c s results).create store).on _ with
      | mk made mid =>
          rw [hc] at hon
          cases made with
          | error f => cases hon
          | ok b =>
              cases hon
              refine hstore.add ?_
              rw [(r.isFaithful_triggering c s results _ _ _ _ hc).2.2]
              exact hnow
  · cases h
    exact hstore

end Rule

end BuildingAlerts
