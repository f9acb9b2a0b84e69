/-
The order in which readings arrive.

Two snapshots are evaluated alike if they count the same readings: it does not matter in which
order these came, what else came, nor on which clock a timestamp is written. Of a reading that is
counted the result sees only the value and the instant; selection puts the readings in the order of
their instants, and readings of distinct instants have one such order.

The one thing that is read off the clock of a snapshot is how far the calendar goes back. Whoever
writes the same instant of the first or the last day of the calendar on two clocks may find the
start of a window on the one and not on the other.
-/
import BuildingAlerts.Proofs.Condition.Dropouts
import BuildingAlerts.Proofs.Condition.Selection
import BuildingAlerts.Proofs.Rule.Accepted
import Mathlib.Data.List.Nodup

set_option autoImplicit false

namespace BuildingAlerts

/-! ## Readings on the universal clock -/

namespace Reading

/-- The reading with its timestamp on the universal clock. -/
def onUtc (r : Reading) : Reading :=
  { r with timestamp := .atUtc r.timestamp.instant }

@[simp] theorem instant_onUtc (r : Reading) : r.onUtc.timestamp.instant = r.timestamp.instant := by
  show r.timestamp.instant - 0 = _
  exact Int.sub_zero _

@[simp] theorem value_onUtc (r : Reading) : r.onUtc.value = r.value := rfl

end Reading

theorem Metric.selects_onUtc (m : Metric) (r : Reading) : m.selects r.onUtc = m.selects r := rfl

/-! ## The order of time -/

theorem inTime_map_onUtc (rs : List Reading) :
    inTime (rs.map Reading.onUtc) = (inTime rs).map Reading.onUtc := by
  refine (List.map_mergeSort fun a _ b _ => ?_).symm
  unfold Reading.isBy
  rw [Reading.instant_onUtc, Reading.instant_onUtc]

/-- Readings of distinct instants have one order of time. -/
theorem inTime_eq_of_perm {rs rs' : List Reading} (h : rs.Perm rs')
    (hnodup : (rs.map fun r => r.timestamp.instant).Nodup) : inTime rs = inTime rs' := by
  have hperm : (inTime rs).Perm (inTime rs') :=
    (List.mergeSort_perm rs _).trans (h.trans (List.mergeSort_perm rs' _).symm)
  refine hperm.eq_of_pairwise (fun a b ha hb hab hba => ?_)
    (List.pairwise_mergeSort Reading.isBy_trans Reading.isBy_total rs)
    (List.pairwise_mergeSort Reading.isBy_trans Reading.isBy_total rs')
  have hinstant : a.timestamp.instant = b.timestamp.instant :=
    Int.le_antisymm (of_decide_eq_true hab) (of_decide_eq_true hba)
  exact List.inj_on_of_nodup_map hnodup (mem_inTime.mp ha) (h.mem_iff.mpr (mem_inTime.mp hb))
    hinstant

/-! ## Reductions -/

namespace Aggregation

theorem hasEnough_onUtc (a : Aggregation) (rs : List Reading) :
    a.hasEnough (rs.map Reading.onUtc) = a.hasEnough rs := by
  unfold hasEnough
  rw [List.isEmpty_map, List.length_map]

theorem numbers_onUtc (rs : List Reading) : numbers (rs.map Reading.onUtc) = numbers rs := by
  unfold numbers
  rw [List.map_map]
  rfl

theorem rateOfChange_onUtc (rs : List Reading) :
    rateOfChange (rs.map Reading.onUtc) = rateOfChange rs := by
  unfold rateOfChange
  rw [List.getLast?_map]
  cases rs with
  | nil => rfl
  | cons first rest =>
      cases rest with
      | nil => rfl
      | cons second rest =>
          cases (first :: second :: rest).getLast? with
          | none => rfl
          | some last =>
              rw [List.map_cons, List.map_cons]
              dsimp only [Option.map_some]
              rw [Reading.instant_onUtc, Reading.instant_onUtc, Reading.value_onUtc,
                Reading.value_onUtc]

/-- A reduction sees values and instants only. -/
theorem reduce_onUtc (a : Aggregation) (rs : List Reading) :
    a.reduce (rs.map Reading.onUtc) = a.reduce rs := by
  unfold reduce
  rw [hasEnough_onUtc, numbers_onUtc, rateOfChange_onUtc, List.getLast?_map]
  cases rs.getLast? with
  | none => rfl
  | some r => rfl

end Aggregation

/-! ## Windows on two clocks -/

namespace Condition

variable {c : Condition} {s t : Snapshot}

/-- Whether the calendar goes back, from the clock of a snapshot, to all that a condition looks
at. -/
structure GoesBack (c : Condition) (s : Snapshot) : Prop where
  window : s.Covers (c.aggregation.period * Span.microsPerMinute)
  baseline : ∀ percent written span, c.threshold = .percentChange percent written →
    baselineSpan written = .ok span → s.Covers span.micros

/-- Whether two snapshots are of one moment: on one clock, or on two clocks from both of which the
calendar goes back far enough. -/
def SameMoment (c : Condition) (s t : Snapshot) : Prop :=
  s.now = t.now ∨ s.now.instant = t.now.instant ∧ c.GoesBack s ∧ c.GoesBack t

theorem SameMoment.instant (h : c.SameMoment s t) : s.now.instant = t.now.instant := by
  rcases h with h | ⟨h, -, -⟩
  · rw [h]
  · exact h

/-- The start of the window can be found in both snapshots or in none. -/
theorem SameMoment.windowStart_bind (h : c.SameMoment s t) {α : Type} (x : Except Fault α) :
    (windowStart s.now c.aggregation.period >>= fun _ => x)
      = windowStart t.now c.aggregation.period >>= fun _ => x := by
  rcases h with h | ⟨-, hs, ht⟩
  · rw [h]
  · unfold windowStart
    cases hspan : Span.ofMinutes? c.aggregation.period with
    | none => rfl
    | some span =>
        have hmicros := Span.micros_of_ofMinutes? hspan
        obtain ⟨a, ha⟩ := Snapshot.Covers.exists_minus? (hmicros ▸ hs.window)
        obtain ⟨b, hb⟩ := Snapshot.Covers.exists_minus? (hmicros ▸ ht.window)
        show (orFault _ (s.now.minus? span) >>= _) = orFault _ (t.now.minus? span) >>= _
        rw [ha, hb]
        rfl

/-- Where both snapshots can go back, they go back to one instant. -/
theorem SameMoment.baseline_start (h : c.SameMoment s t) {percent : Number} {written : String}
    (hc : c.threshold = .percentChange percent written) {span : Span}
    (hspan : baselineSpan written = .ok span) :
    (s.now.minus? span = none ∧ t.now.minus? span = none) ∨
      ∃ a b, s.now.minus? span = some a ∧ t.now.minus? span = some b ∧ a.instant = b.instant := by
  rcases h with h | ⟨h, hs, ht⟩
  · rw [h]
    cases t.now.minus? span with
    | none => exact .inl ⟨rfl, rfl⟩
    | some a => exact .inr ⟨a, a, rfl, rfl, rfl⟩
  · obtain ⟨a, ha⟩ := (hs.baseline percent written span hc hspan).exists_minus?
    obtain ⟨b, hb⟩ := (ht.baseline percent written span hc hspan).exists_minus?
    refine .inr ⟨a, b, ha, hb, ?_⟩
    rw [(Moment.minus?_eq_some ha).2, (Moment.minus?_eq_some hb).2, h]

end Condition

/-- What is recalled, on the universal clock. -/
theorem Snapshot.recalled_onUtc {s t : Snapshot} (hnow : s.now.instant = t.now.instant)
    (hhistory : s.history.map Reading.onUtc = t.history.map Reading.onUtc) (metric : Metric)
    {a b : Moment} (hab : a.instant = b.instant) :
    (s.recalled metric a).map (·.value) = (t.recalled metric b).map (·.value) := by
  have hvalues : ∀ (u : Snapshot) (m : Moment), (u.recalled metric m).map (·.value)
      = ((u.history.map Reading.onUtc).filter fun r =>
          metric.selects r && isBetween m u.now r.timestamp).map (·.value) := by
    intro u m
    rw [List.filter_map, List.map_map]
    unfold recalled
    have htest : (fun r => metric.selects r && isBetween m u.now r.timestamp)
        = (fun r : Reading => metric.selects r && isBetween m u.now r.timestamp) ∘ Reading.onUtc := by
      funext r
      show _ = (metric.selects r.onUtc && isBetween m u.now r.onUtc.timestamp)
      unfold isBetween
      rw [Reading.instant_onUtc, Metric.selects_onUtc]
    rw [← htest]
    rfl
  rw [hvalues, hvalues, hhistory]
  unfold isBetween
  rw [hab, hnow]

namespace Condition

variable {c : Condition} {s t : Snapshot}

/-- **Arrival.** Two snapshots of one moment and one history, in which no filter fails and the
counted readings are the same, however they came and on whatever clocks they are written, at
distinct instants: a condition is evaluated alike on them. -/
theorem evaluate_eq_of_counted (hnow : c.SameMoment s t)
    (hhistory : s.history.map Reading.onUtc = t.history.map Reading.onUtc)
    (hs : c.Judged s) (ht : c.Judged t)
    (hcounted : ((c.counted s).map Reading.onUtc).Perm ((c.counted t).map Reading.onUtc))
    (hnodup : ((c.counted s).map fun r => r.timestamp.instant).Nodup) :
    c.evaluate s = c.evaluate t := by
  have hordered : (inTime (c.counted s)).map Reading.onUtc
      = (inTime (c.counted t)).map Reading.onUtc := by
    rw [← inTime_map_onUtc, ← inTime_map_onUtc]
    refine inTime_eq_of_perm hcounted ?_
    rw [List.map_map]
    exact (List.map_congr_left fun (r : Reading) _ => r.instant_onUtc) ▸ hnodup
  have hcompare : ∀ x, c.compare x s = c.compare x t := by
    refine compare_congr fun percent written hc => baseline_congr fun span hspan => ?_
    refine (hnow.baseline_start hc hspan).imp_right ?_
    rintro ⟨a, b, ha, hb, hab⟩
    exact ⟨a, b, ha, hb, Snapshot.recalled_onUtc hnow.instant hhistory c.metric hab⟩
  have hconclude : c.conclude (inTime (c.counted s)) s = c.conclude (inTime (c.counted t)) t := by
    refine conclude_congr ?_ (fun _ => ?_) hcompare
    · rw [← Aggregation.hasEnough_onUtc, hordered, Aggregation.hasEnough_onUtc]
    · rw [← Aggregation.reduce_onUtc, hordered, Aggregation.reduce_onUtc]
  rw [evaluate_of_judged hs, evaluate_of_judged ht, hconclude]
  exact hnow.windowStart_bind _

end Condition

/-! ## A hall that is read on two clocks -/

namespace Sample

/-- A moment on a clock some hours to the east. -/
def eastward (hours : Int) (m : Moment) : Moment :=
  let micros := hours * Span.microsPerHour
  ⟨m.instant + micros, some ⟨micros, .relative⟩⟩

theorem instant_eastward (hours : Int) (m : Moment) : (eastward hours m).instant = m.instant :=
  Int.add_sub_cancel _ _

/-- A reading on a clock some hours to the east. -/
def readEast (hours : Int) (r : Reading) : Reading :=
  { r with timestamp := eastward hours r.timestamp }

theorem onUtc_readEast (hours : Int) (r : Reading) : (readEast hours r).onUtc = r.onUtc := by
  show { r with timestamp := Moment.atUtc (eastward hours r.timestamp).instant } = r.onUtc
  rw [instant_eastward]
  rfl

/-- The hall half an hour after noon. -/
def noon : Snapshot :=
  hall [inHall 22 18.0, inHall 29 17.5] [inHall (-20) 20.0, inHall 10 21.0]

/-- The same hall on a clock two hours to the east: the readings came the other way round, with one
of the yard between them. -/
def noonEast : Snapshot :=
  { noon with
    now := eastward 2 noon.now
    readings := [readEast 2 (inHall 29 17.5), { inHall 24 9.0 with sensorId := "yard" },
      readEast 2 (inHall 22 18.0)]
    history := noon.history.map (readEast 1) }

/-- The first morning of the calendar, five hours after midnight. -/
def dawn : Snapshot :=
  { hall [{ inHall 0 3.0 with timestamp := .atUtc (4 * Span.microsPerHour) }] [] with
    now := .atUtc (5 * Span.microsPerHour) }

/-- The same morning on a clock five hours to the east. -/
def dawnEast : Snapshot :=
  { dawn with now := eastward 5 dawn.now }

/-- The hall is cold when its mean over eight hours is below five degrees. -/
def coldNight : Condition :=
  { cold with aggregation := ⟨.average, 480, 1⟩ }

end Sample

namespace Condition

open Sample

set_option maxRecDepth 100000 in
theorem counted_noonEast :
    cooling.counted noonEast = [readEast 2 (inHall 29 17.5), readEast 2 (inHall 22 18.0)] := by
  let test : Reading → Bool := fun r =>
    cooling.isInWindow noonEast.now r && (judge cooling.filters r).toOption == some true
  have hlate : test (readEast 2 (inHall 29 17.5)) = true := by decide +kernel
  have hyard : ¬ test { inHall 24 9.0 with sensorId := "yard" } = true := by decide +kernel
  have hearly : test (readEast 2 (inHall 22 18.0)) = true := by decide +kernel
  show List.filter test [_, _, _] = _
  rw [List.filter_cons_of_pos hlate, List.filter_cons_of_neg hyard,
    List.filter_cons_of_pos hearly, List.filter_nil]

set_option maxRecDepth 100000 in
/-- The hall at noon on two clocks. -/
theorem evaluate_eq_noon :
    cooling.SameMoment noon noonEast ∧
      noon.history.map Reading.onUtc = noonEast.history.map Reading.onUtc ∧
      cooling.Judged noon ∧ cooling.Judged noonEast ∧
      ((cooling.counted noon).map Reading.onUtc).Perm
        ((cooling.counted noonEast).map Reading.onUtc) ∧
      ((cooling.counted noon).map fun r => r.timestamp.instant).Nodup ∧
      ∃ k, cooling.evaluate noon = .ok k ∧ cooling.evaluate noonEast = .ok k ∧ k.met = true := by
  have hback : ∀ s : Snapshot, s = noon ∨ s = noonEast → cooling.GoesBack s := by
    intro s hs
    have hspan : ∃ span, baselineSpan "1h" = .ok span ∧ (noon.Covers span.micros ∧
        noonEast.Covers span.micros) := by
      decide +kernel
    refine ⟨by rcases hs with rfl | rfl <;> decide +kernel, ?_⟩
    intro percent written span hc hw
    cases hc
    obtain ⟨span', hspan, hnoon, heast⟩ := hspan
    cases hspan.symm.trans hw
    rcases hs with rfl | rfl
    · exact hnoon
    · exact heast
  have hmoment : cooling.SameMoment noon noonEast :=
    .inr ⟨(instant_eastward 2 noon.now).symm, hback noon (.inl rfl), hback noonEast (.inr rfl)⟩
  have hhistory : noon.history.map Reading.onUtc = noonEast.history.map Reading.onUtc := by
    show _ = (noon.history.map (readEast 1)).map Reading.onUtc
    rw [List.map_map]
    exact List.map_congr_left fun r _ => (onUtc_readEast 1 r).symm
  have hs : cooling.Judged noon := by
    unfold Judged noon hall
    simp only [List.forall_mem_cons, List.not_mem_nil, false_implies, implies_true, and_true]
    exact ⟨fun _ => ⟨true, rfl⟩, fun _ => ⟨true, rfl⟩⟩
  have ht : cooling.Judged noonEast := by
    unfold Judged noonEast
    simp only [List.forall_mem_cons, List.not_mem_nil, false_implies, implies_true, and_true]
    exact ⟨fun _ => ⟨true, rfl⟩, fun _ => ⟨true, rfl⟩, fun _ => ⟨true, rfl⟩⟩
  have hnoon : cooling.counted noon = noon.readings :=
    List.filter_eq_self.mpr (by decide +kernel)
  have hperm : ((cooling.counted noon).map Reading.onUtc).Perm
      ((cooling.counted noonEast).map Reading.onUtc) := by
    rw [hnoon, counted_noonEast]
    show [(inHall 22 18.0).onUtc, (inHall 29 17.5).onUtc].Perm
      [(readEast 2 (inHall 29 17.5)).onUtc, (readEast 2 (inHall 22 18.0)).onUtc]
    rw [onUtc_readEast, onUtc_readEast]
    exact List.Perm.swap _ _ _
  have hnodup : ((cooling.counted noon).map fun r => r.timestamp.instant).Nodup := by
    rw [hnoon]
    decide +kernel
  have hresult : ∃ k, (windowStart noon.now cooling.aggregation.period >>= fun _ =>
      cooling.conclude noon.readings noon) = .ok k ∧ k.met = true := by
    decide +kernel
  obtain ⟨k, hk, hmet⟩ := hresult
  have heval : cooling.evaluate noon = .ok k := by
    rw [evaluate_of_judged hs, hnoon, show inTime noon.readings = noon.readings from
      List.mergeSort_of_pairwise (by decide +kernel)]
    exact hk
  exact ⟨hmoment, hhistory, hs, ht, hperm, hnodup, k, heval,
    (evaluate_eq_of_counted hmoment hhistory hs ht hperm hnodup).symm.trans heval, hmet⟩

set_option maxRecDepth 100000 in
/-- On the first morning of the calendar the window begins before it on the one clock and within it
on the other. -/
theorem evaluate_ne_dawn :
    dawn.now.instant = dawnEast.now.instant ∧ dawn.history = dawnEast.history ∧
      coldNight.Judged dawn ∧ coldNight.Judged dawnEast ∧
      coldNight.counted dawn = coldNight.counted dawnEast ∧
      ((coldNight.counted dawn).map fun r => r.timestamp.instant).Nodup ∧
      coldNight.evaluate dawn = .error .outOfBounds ∧
      ∃ k, coldNight.evaluate dawnEast = .ok k ∧ k.met = true := by
  refine ⟨(instant_eastward 5 dawn.now).symm, rfl, fun _ _ _ => ⟨true, rfl⟩,
    fun _ _ _ => ⟨true, rfl⟩, ?_, ?_, ?_, ?_⟩
  · unfold counted isInWindow
    rw [show dawnEast.now.instant = dawn.now.instant from instant_eastward 5 dawn.now]
    rfl
  · decide +kernel
  · have hstart : dawn.now.minus? ⟨480 * Span.microsPerMinute⟩ = none := by decide +kernel
    rw [evaluate_of_judged fun _ _ _ => ⟨true, rfl⟩]
    show (orFault .outOfBounds (dawn.now.minus? ⟨480 * Span.microsPerMinute⟩) >>= _) = _
    rw [hstart]
    rfl
  · decide +kernel

end Condition

end BuildingAlerts
