/-
How far a triggering can be trusted.

The trust in a triggering is meant to lie between zero and the most there is. How far a met
condition lies past its threshold adds to it as a share of the threshold, and this share is no
number when the threshold is not finite or the value is no number. One such condition among those
that are met leaves the trust without a number; without one, the trust lies in its range.
-/
import BuildingAlerts.Proofs.Condition.Dropouts
import BuildingAlerts.Proofs.Decimal.Sizes
import BuildingAlerts.Rule.Judgement

set_option autoImplicit false

namespace BuildingAlerts

open Doubles

/-! ## Results that can be weighed -/

namespace Number

/-- Neither infinite nor without a value. -/
def IsFinite : Number → Prop
  | .whole _ => True
  | .real x => x.isFinite = true

/-- Not a number. -/
def IsNaN : Number → Prop
  | .whole _ => False
  | .real x => x.isNaN = true

instance : DecidablePred IsFinite
  | .whole _ => .isTrue trivial
  | .real x => inferInstanceAs (Decidable (x.isFinite = true))

instance : DecidablePred IsNaN
  | .whole _ => .isFalse id
  | .real x => inferInstanceAs (Decidable (x.isNaN = true))

theorem sub?_real (a : Float) (b : Number) :
    Number.sub? (.real a) b = b.toFloat?.map fun x => .real (a - x) := by
  cases b <;> rfl

theorem div?_real (a : Float) (b : Number) :
    Number.div? (.real a) b = b.toFloat?.map fun x => .real (a / x) := by
  cases b <;> rfl

theorem lt_real (a b : Float) : (Number.real a).lt (.real b) = decide (a < b) := by
  unfold lt order?
  dsimp only
  by_cases h : a < b
  · rw [if_pos h, decide_eq_true h]
    rfl
  · rw [if_neg h, decide_eq_false h]
    split
    · rfl
    · split <;> rfl

theorem greatest_real (a b : Float) :
    (Number.real a).greatest (.real b) = .real (if a < b then b else a) := by
  unfold greatest
  by_cases h : a < b
  · rw [lt_real, decide_eq_true h, if_pos rfl, if_pos h]
  · rw [lt_real, decide_eq_false h, if_neg Bool.false_ne_true, if_neg h]

theorem least_real (a b : Float) :
    (Number.real a).least (.real b) = .real (if b < a then b else a) := by
  unfold least
  by_cases h : b < a
  · rw [lt_real, decide_eq_true h, if_pos rfl, if_pos h]
  · rw [lt_real, decide_eq_false h, if_neg Bool.false_ne_true, if_neg h]

/-- A whole number above zero is at least one. -/
theorem greatest_whole_one {n : Nat} (h : 0 < n) :
    (Number.whole n).greatest (.real 1.0) = .whole n := by
  have hshape : Decimal.shape 1.0 = .finite ⟨false, 4503599627370496, -52⟩ := by
    rfl
  have hscale : Decimal.scaleByTwo 4503599627370496 1 (-52) = (4503599627370496, 4503599627370496) := by
    decide +kernel
  have hcompare : compareWhole n ⟨false, 4503599627370496, -52⟩ ≠ .lt := by
    unfold compareWhole
    rw [hscale]
    dsimp only
    rw [if_neg Bool.false_ne_true, Ne, Int.compare_eq_lt]
    omega
  have hlt : (Number.whole n).lt (.real 1.0) = false := by
    unfold lt order?
    dsimp only
    rw [hshape]
    exact beq_eq_false_iff_ne.mpr fun h => hcompare (Option.some.inj h)
  unfold greatest
  rw [hlt, if_neg Bool.false_ne_true]

end Number

namespace ConditionResult

variable {r : ConditionResult}

/-- Whether the distance of the value from the threshold can be told as a share. -/
structure IsWeighable (r : ConditionResult) : Prop where
  threshold : r.threshold.IsFinite
  actual : ¬ r.actual.IsNaN

instance (r : ConditionResult) : Decidable r.IsWeighable :=
  decidable_of_iff (r.threshold.IsFinite ∧ ¬ r.actual.IsNaN)
    ⟨fun h => ⟨h.1, h.2⟩, fun h => ⟨h.threshold, h.actual⟩⟩

/-- The deviation of a result is the difference of its two doubles. -/
structure IsMeasured (r : ConditionResult) (a x : Float) : Prop where
  actual : r.actual = .real a
  threshold : r.threshold.toFloat? = some x
  deviation : r.deviation = .real (a - x)

theorem isMeasured_of_sub? {id method : String} {met : Bool} {a : Float} {limit d : Number}
    (h : Number.sub? (.real a) limit = some d) :
    ∃ x, IsMeasured ⟨id, met, .real a, limit, d, method⟩ a x := by
  rw [Number.sub?_real, Option.map_eq_some_iff] at h
  obtain ⟨x, hx, rfl⟩ := h
  exact ⟨x, rfl, hx, rfl⟩

theorem exists_isMeasured {c : Condition} {s : Snapshot} (h : c.evaluate s = .ok r) :
    ∃ a x, r.IsMeasured a x := by
  obtain ⟨rs, -, h⟩ := bind_eq_ok_iff.mp h
  dsimp only at h
  split at h
  · obtain ⟨d, hd, h⟩ := bind_eq_ok_iff.mp h
    obtain rfl := Except.ok.inj h
    exact ⟨0.0, isMeasured_of_sub? (orFault_eq_ok_iff.mp hd)⟩
  · obtain ⟨met, -, h⟩ := bind_eq_ok_iff.mp h
    obtain ⟨d, hd, h⟩ := bind_eq_ok_iff.mp h
    obtain rfl := Except.ok.inj h
    exact ⟨_, isMeasured_of_sub? (orFault_eq_ok_iff.mp hd)⟩

end ConditionResult

/-! ## The scale of a deviation -/

namespace Confidence

/-- What a deviation from a threshold is measured in. -/
def scale (x : Float) : Float :=
  if x.abs < 1.0 then 1.0 else x.abs

theorem isPositive_one : IsPositive 1.0 :=
  isPositive_iff.mpr (by decide +kernel)

theorem isPositive_scale {x : Float} (h : x.isFinite = true) : IsPositive (scale x) := by
  unfold scale
  split
  · exact isPositive_one
  · next hlt => exact isPositive_abs h hlt

theorem not_isFinite_scale {x : Float} (h : x.isFinite = false) : (scale x).isFinite = false := by
  unfold scale
  rw [if_neg (not_abs_lt h isPositive_one)]
  exact not_isFinite_abs h

/-- The scale of a threshold: finite and above zero, or not finite, as the threshold is. -/
theorem exists_scale {t : Number} {x : Float} (h : t.toFloat? = some x) :
    ∃ y, (Number.greatest t.abs (.real 1.0)).toFloat? = some y ∧
      ((t.IsFinite ∧ x.isFinite = true ∧ IsPositive y) ∨
        (¬ t.IsFinite ∧ x.isFinite = false ∧ y.isFinite = false)) := by
  cases t with
  | real t =>
      obtain rfl := Option.some.inj h
      refine ⟨scale t, ?_, ?_⟩
      · exact congrArg Number.toFloat? (Number.greatest_real t.abs 1.0)
      · cases hfinite : t.isFinite with
        | true => exact .inl ⟨hfinite, rfl, isPositive_scale hfinite⟩
        | false => exact .inr ⟨Bool.eq_false_iff.mp hfinite, rfl, not_isFinite_scale hfinite⟩
  | whole n =>
      have hx : x.isFinite = true := by
        rw [isFinite_eq]
        rcases value_of_ofInt? h with ⟨-, hzero⟩ | ⟨-, m, e, hm, hfinite⟩
        · rw [hzero]; rfl
        · rw [hfinite]; rfl
      by_cases hn : n = 0
      · subst hn
        exact ⟨1.0, by decide +kernel, .inl ⟨trivial, hx, isPositive_one⟩⟩
      · obtain ⟨y, hy⟩ := exists_ofInt?_natAbs h
        refine ⟨y, ?_, .inl ⟨trivial, hx, ?_⟩⟩
        · exact (congrArg Number.toFloat? (Number.greatest_whole_one (Int.natAbs_pos.mpr hn))).trans hy
        · obtain ⟨hzero, -⟩ | ⟨-, m, e, hm, hvalue⟩ := value_of_ofInt? hy
          · omega
          · rw [if_neg (by omega)] at hvalue
            exact ⟨m, e, hm, hvalue⟩

/-! ## The share of a deviation -/

/-- A capped size is a size, a number if it was, and then not above the cap. -/
theorem isSize_smaller {x y : Float} (hx : IsSize x) (hy : IsPositive y) :
    IsSize (smaller x y) ∧ ((smaller x y).isNaN = true ↔ x.isNaN = true)
      ∧ (x.isNaN = false → smaller x y ≤ y) := by
  have hnan := hy.isNaN
  unfold smaller
  split
  · next hlt =>
    rw [hnan, isNaN_of_lt hlt]
    exact ⟨.inl hy.zero_le, Iff.rfl, fun _ => le_refl hnan⟩
  · next hlt => exact ⟨hx, Iff.rfl, fun hx => le_of_not_lt hx hnan hlt⟩

/-- A result that was measured has a share, a size that is a number exactly when the result can be
weighed. -/
theorem exists_overshoot {r : ConditionResult} {a x : Float} (h : r.IsMeasured a x) :
    ∃ o, overshoot r = .ok o ∧ IsSize o ∧ (o.isNaN = true ↔ ¬ r.IsWeighable) := by
  obtain ⟨y, hy, hscale⟩ := exists_scale h.threshold
  have htwo : IsPositive 2.0 := isPositive_iff.mpr (by decide +kernel)
  have hshare : overshoot r = .ok (smaller ((a - x).abs / y) 2.0) := by
    have hratio : Number.div? r.deviation.abs (Number.greatest r.threshold.abs (.real 1.0))
        = some (.real ((a - x).abs / y)) := by
      rw [h.deviation]
      exact (Number.div?_real _ _).trans (congrArg (Option.map _) hy)
    refine bind_eq_ok_iff.mpr ⟨_, orFault_eq_ok_iff.mpr hratio, orFault_eq_ok_iff.mpr ?_⟩
    exact congrArg Number.toFloat? (Number.least_real _ _)
  have hactual : r.actual.IsNaN ↔ a.isNaN = true := by
    rw [h.actual]
    exact Iff.rfl
  obtain ⟨habs, hnan⟩ := isSize_abs (a - x)
  refine ⟨_, hshare, ?_⟩
  rcases hscale with ⟨ht, hx, hpos⟩ | ⟨ht, hx, hy⟩
  · obtain ⟨hsize, hdiv⟩ := habs.div hpos
    obtain ⟨hcapped, hiff, -⟩ := isSize_smaller hsize htwo
    refine ⟨hcapped, hiff.trans (hdiv.trans (hnan.trans ((isNaN_sub_iff hx).trans ?_)))⟩
    rw [← hactual]
    exact ⟨fun ha hr => hr.actual ha, fun hr => Decidable.byContradiction fun ha => hr ⟨ht, ha⟩⟩
  · have hdiv := isNaN_div_of_not_isFinite (not_isFinite_abs (not_isFinite_sub a hx)) hy
    obtain ⟨hcapped, hiff, -⟩ := isSize_smaller (.inr hdiv) htwo
    exact ⟨hcapped, iff_of_true (hiff.mpr hdiv) fun hr => ht hr.threshold⟩

/-- The shares of results that were measured are sizes, and all numbers if all results can be
weighed. -/
theorem exists_overshoots {met : List ConditionResult} (h : ∀ r ∈ met, ∃ a x, r.IsMeasured a x) :
    ∃ os, met.mapM overshoot = .ok os ∧ os.length = met.length ∧ (∀ o ∈ os, IsSize o) ∧
      ((∃ o ∈ os, o.isNaN = true) ↔ ∃ r ∈ met, ¬ r.IsWeighable) := by
  induction met with
  | nil => exact ⟨[], rfl, rfl, by simp, by simp⟩
  | cons r met ih =>
      obtain ⟨⟨a, x, hr⟩, hmet⟩ := List.forall_mem_cons.mp h
      obtain ⟨o, ho, hsize, hnan⟩ := exists_overshoot hr
      obtain ⟨os, hos, hlen, hsizes, hnans⟩ := ih hmet
      refine ⟨o :: os, ?_, congrArg (· + 1) hlen, List.forall_mem_cons.mpr ⟨hsize, hsizes⟩, ?_⟩
      · rw [List.mapM_cons]
        exact bind_eq_ok_iff.mpr ⟨o, ho, bind_eq_ok_iff.mpr ⟨os, hos, rfl⟩⟩
      · simp only [List.mem_cons, or_and_right, exists_or, exists_eq_left, hnan, hnans]

/-! ## The range of trust -/

/-- In the range that trust is meant to have. -/
def InRange (x : Float) : Prop :=
  0.0 ≤ x ∧ x ≤ most

instance (x : Float) : Decidable (InRange x) :=
  inferInstanceAs (Decidable (_ ∧ _))

/-- What is capped at the most is in range, or no number. -/
theorem inRange_smaller_iff {x : Float} (h : IsSize x) :
    InRange (smaller x most) ↔ x.isNaN = false := by
  have hmost : IsPositive most := isPositive_iff.mpr (by decide +kernel)
  obtain ⟨hsize, hnan, hle⟩ := isSize_smaller h hmost
  cases hx : x.isNaN with
  | true =>
      refine iff_of_false (fun hrange => ?_) nofun
      have hzero := isNaN_of_zero_le hrange.1
      rw [hnan.mpr hx] at hzero
      cases hzero
  | false =>
      have hnumber : (smaller x most).isNaN = false :=
        Bool.eq_false_iff.mpr fun h => Bool.eq_false_iff.mp hx (hnan.mp h)
      exact iff_of_true ⟨hsize.zero_le hnumber, hle hx⟩ rfl

theorem zero_le_share {n k : Nat} (hn : 0 < n) (hlen : n < 2 ^ 1023) (hk : k ≤ n) :
    0.0 ≤ base + metWeight * Float.ofNat k / Float.ofNat n := by
  have hbase : 0.0 ≤ base := by decide +kernel
  have hweight : 0.0 ≤ metWeight := by decide +kernel
  refine zero_le_add hbase (zero_le_div ?_ (isPositive_ofNat hn hlen))
  rcases Nat.eq_zero_or_pos k with rfl | hpos
  · decide +kernel
  · exact zero_le_mul hweight (isPositive_ofNat hpos (Nat.lt_of_le_of_lt hk hlen))

/-- The trust is what is capped at the most, of a size that is no number exactly when a result
that is met cannot be weighed. -/
theorem exists_of {results : List ConditionResult} (hne : results ≠ [])
    (hlen : results.length < 2 ^ 1023) (h : ∀ r ∈ results, ∃ a x, r.IsMeasured a x) :
    ∃ x, Confidence.of results = .ok (smaller x most) ∧ IsSize x
      ∧ (x.isNaN = true ↔ ∃ r ∈ metOf results, ¬ r.IsWeighable) := by
  have hmet : (metOf results).length ≤ results.length := List.length_filter_le ..
  have hshare := zero_le_share (List.length_pos_iff.mpr hne) hlen hmet
  have hresults : results.isEmpty = false := by simpa using hne
  unfold Confidence.of
  dsimp only
  rw [hresults, if_neg Bool.false_ne_true]
  by_cases hnone : metOf results = []
  · refine ⟨_, if_pos (List.isEmpty_iff.mpr hnone), .inl hshare, ?_⟩
    rw [hnone, isNaN_of_zero_le (hnone ▸ hshare)]
    simp
  · have hmeasured : ∀ r ∈ metOf results, ∃ a x, r.IsMeasured a x :=
      fun r hr => h r (List.mem_filter.mp hr).1
    obtain ⟨os, hos, hoslen, hsizes, hnans⟩ := exists_overshoots hmeasured
    have hosne : os ≠ [] := by
      rintro rfl
      exact hnone (List.length_eq_zero_iff.mp hoslen.symm)
    obtain ⟨hmean, hmeannan⟩ := sums_mean hsizes hosne
      (Nat.lt_of_le_of_lt (hoslen ▸ hmet) hlen)
    have hweight : IsPositive overshootWeight := isPositive_iff.mpr (by decide +kernel)
    have hcap : IsPositive overshootCap := isPositive_iff.mpr (by decide +kernel)
    obtain ⟨hbonus, hbonusnan⟩ := hmean.mul hweight
    obtain ⟨hcapped, hcappednan, -⟩ := isSize_smaller hbonus hcap
    obtain ⟨hsum, hsumnan⟩ := IsSize.add (.inl hshare) hcapped
    refine ⟨_, (if_neg (mt List.isEmpty_iff.mp hnone)).trans (bind_eq_ok_iff.mpr ⟨os, hos, rfl⟩), hsum, ?_⟩
    rw [hsumnan, isNaN_of_zero_le hshare, hcappednan, hbonusnan, hmeannan, hnans]
    exact or_iff_right Bool.false_ne_true

theorem exists_inRange_iff {results : List ConditionResult} (hne : results ≠ [])
    (hlen : results.length < 2 ^ 1023) (h : ∀ r ∈ results, ∃ a x, r.IsMeasured a x) :
    ∃ x, Confidence.of results = .ok x
      ∧ (InRange x ↔ ∀ r ∈ results, r.met = true → r.IsWeighable)
      ∧ (x.isNaN = true ↔ ∃ r ∈ results, r.met = true ∧ ¬ r.IsWeighable) := by
  obtain ⟨x, hx, hsize, hnan⟩ := exists_of hne hlen h
  have hmost : IsPositive most := isPositive_iff.mpr (by decide +kernel)
  have hiff : x.isNaN = true ↔ ∃ r ∈ results, r.met = true ∧ ¬ r.IsWeighable := by
    rw [hnan]
    simp only [metOf, List.mem_filter, and_assoc]
  refine ⟨_, hx, ?_, (isSize_smaller hsize hmost).2.1.trans hiff⟩
  rw [inRange_smaller_iff hsize, ← Bool.not_eq_true, hiff]
  constructor
  · exact fun hno r hr hmet => Decidable.byContradiction fun hweigh => hno ⟨r, hr, hmet, hweigh⟩
  · exact fun hall ⟨r, hr, hmet, hweigh⟩ => hweigh (hall r hr hmet)

/-- The trust in results of conditions lies in its range exactly if each result that is met has a
finite threshold and a value that is a number, and is no number otherwise. -/
theorem inRange_iff {results : List ConditionResult} (hne : results ≠ [])
    (hlen : results.length < 2 ^ 1023)
    (h : ∀ r ∈ results, ∃ (c : Condition) (s : Snapshot), c.evaluate s = .ok r) :
    ∃ x, Confidence.of results = .ok x
      ∧ (InRange x ↔ ∀ r ∈ results, r.met = true → r.IsWeighable)
      ∧ (x.isNaN = true ↔ ∃ r ∈ results, r.met = true ∧ ¬ r.IsWeighable) :=
  exists_inRange_iff hne hlen fun r hr =>
    let ⟨_, _, hr⟩ := h r hr
    ConditionResult.exists_isMeasured hr

end Confidence

/-! ## What no number meets -/

namespace Number

variable {a b : Number}

theorem order?_real_of_isNaN {x y : Float} (h : x.isNaN = true ∨ y.isNaN = true) :
    (Number.real x).order? (.real y) = none := by
  have hcompare := compare_of_isNaN h
  have hcompare' := compare_of_isNaN h.symm
  unfold order?
  dsimp only
  rw [if_neg (mt lt_iff.mp (by rw [hcompare]; exact nofun)),
    if_neg (mt lt_iff.mp (by rw [hcompare']; exact nofun)),
    if_neg (mt beq_iff.mp (by rw [hcompare]; exact nofun))]

/-- What is no number stands in no order to any number. -/
theorem order?_of_isNaN (h : a.IsNaN ∨ b.IsNaN) : a.order? b = none := by
  cases a with
  | real x =>
      cases b with
      | real y => exact order?_real_of_isNaN h
      | whole n =>
          unfold order?
          dsimp only
          rw [shape_of_isNaN (h.resolve_right id)]
  | whole n =>
      cases b with
      | real y =>
          unfold order?
          dsimp only
          rw [shape_of_isNaN (h.resolve_left id)]
      | whole m => exact (h.elim id id).elim

theorem lt_of_isNaN (h : a.IsNaN ∨ b.IsNaN) : a.lt b = false := by
  unfold lt
  rw [order?_of_isNaN h]
  rfl

theorem le_of_isNaN (h : a.IsNaN ∨ b.IsNaN) : a.le b = false := by
  unfold le
  rw [order?_of_isNaN h]

theorem IsNaN.abs (h : a.IsNaN) : a.abs.IsNaN :=
  match a, h with
  | .real x, h => (isSize_abs x).2.mpr h

/-- The distance of what is no number from a number is none. -/
theorem IsNaN.sub? {d : Number} (h : a.IsNaN) (hd : a.sub? b = some d) : d.IsNaN := by
  match a, h with
  | .real x, h =>
    rw [sub?_real, Option.map_eq_some_iff] at hd
    obtain ⟨y, -, rfl⟩ := hd
    exact isNaN_sub_left h y

end Number

/-- What is no number has not changed from any baseline. -/
theorem not_changesBeyond_of_isNaN {x base : Float} {percent : Number} {b : Bool}
    (hx : x.isNaN = true) (h : changesBeyond (.real x) (.real base) percent = .ok b) : b = false := by
  unfold changesBeyond at h
  split at h
  · exact (Except.ok.inj h).symm
  · have hshare : ((x - base) / base).abs.isNaN = true :=
      (isSize_abs _).2.mpr (isNaN_div_left (isNaN_sub_left hx base) base)
    have hchange : (Number.real (((x - base) / base).abs * 100.0)).IsNaN := isNaN_mul_left hshare _
    exact (Except.ok.inj h).symm.trans (Number.lt_of_isNaN (.inr hchange))

/-- No operator but one is met by what is no number: only outside of a band it always is. -/
theorem Comparison.not_holds_of_isNaN {op : Comparison} {a : Number} {t : Threshold} {b : Bool}
    (ha : a.IsNaN) (hop : op ≠ .outsideRange) (h : op.holds a t = .ok b) : b = false := by
  have hdistance {d : Number} (hd : orFault .outOfBounds (a.sub? t.value) = .ok d) : d.abs.IsNaN :=
    (ha.sub? (orFault_eq_ok_iff.mp hd)).abs
  cases op with
  | greaterThan => exact (Except.ok.inj h).symm.trans (Number.lt_of_isNaN (.inr ha))
  | lessThan => exact (Except.ok.inj h).symm.trans (Number.lt_of_isNaN (.inl ha))
  | greaterThanOrEqual => exact (Except.ok.inj h).symm.trans (Number.le_of_isNaN (.inr ha))
  | lessThanOrEqual => exact (Except.ok.inj h).symm.trans (Number.le_of_isNaN (.inl ha))
  | equals =>
      obtain ⟨d, hd, h⟩ := bind_eq_ok_iff.mp h
      exact (Except.ok.inj h).symm.trans (Number.lt_of_isNaN (.inl (hdistance hd)))
  | notEquals =>
      obtain ⟨d, hd, h⟩ := bind_eq_ok_iff.mp h
      exact (Except.ok.inj h).symm.trans (Number.le_of_isNaN (.inr (hdistance hd)))
  | between =>
      change isWithin t a = .ok b at h
      unfold isWithin at h
      split at h
      · rw [Number.le_of_isNaN (.inr ha), Bool.false_and] at h
        exact (Except.ok.inj h).symm
      · cases h
  | outsideRange => exact absurd rfl hop
  | rateOfChange => exact (Except.ok.inj h).symm.trans (Number.lt_of_isNaN (.inr ha.abs))
  | percentageChange => cases h

namespace Condition

variable {c : Condition} {s : Snapshot} {r : ConditionResult}

/-- A condition that is met has a number as its value, unless it asks for what lies outside of a
band. -/
theorem isNumber_of_met (h : c.evaluate s = .ok r) (hmet : r.met = true)
    (hop : c.operator ≠ .outsideRange) : ¬ r.actual.IsNaN := by
  obtain ⟨rs, -, h⟩ := bind_eq_ok_iff.mp h
  dsimp only at h
  split at h
  · obtain ⟨d, -, h⟩ := bind_eq_ok_iff.mp h
    obtain rfl := Except.ok.inj h
    cases hmet
  · obtain ⟨met, hcompare, h⟩ := bind_eq_ok_iff.mp h
    obtain ⟨d, -, h⟩ := bind_eq_ok_iff.mp h
    obtain rfl := Except.ok.inj h
    obtain rfl : met = true := hmet
    intro hnan
    unfold compare at hcompare
    split at hcompare
    · obtain ⟨base, -, hcompare⟩ := bind_eq_ok_iff.mp hcompare
      exact Bool.noConfusion (not_changesBeyond_of_isNaN hnan hcompare)
    · exact Bool.noConfusion (Comparison.not_holds_of_isNaN hnan hop hcompare)

end Condition

/-- Without an infinite threshold and without a condition that asks for what lies outside of a band,
trust lies in its range. -/
theorem Confidence.inRange_of_isFinite {results : List ConditionResult} (hne : results ≠ [])
    (hlen : results.length < 2 ^ 1023)
    (h : ∀ r ∈ results, r.threshold.IsFinite ∧
      ∃ (c : Condition) (s : Snapshot), c.evaluate s = .ok r ∧ c.operator ≠ .outsideRange) :
    ∃ x, Confidence.of results = .ok x ∧ InRange x := by
  obtain ⟨x, hx, hrange, -⟩ := exists_inRange_iff hne hlen fun r hr =>
    let ⟨_, _, _, hr, _⟩ := h r hr
    ConditionResult.exists_isMeasured hr
  refine ⟨x, hx, hrange.mpr fun r hr hmet => ?_⟩
  obtain ⟨hfinite, c, s, heval, hop⟩ := h r hr
  exact ⟨hfinite, Condition.isNumber_of_met heval hmet hop⟩

/-! ## Trust after a dropout -/

namespace Sample

/-- Nobody can stay in the hall while its latest value is not between fifteen and thirty degrees. -/
def unfit : Condition where
  id := "unfit"
  metric := ⟨.temperature, some "hall", "C", "Hall"⟩
  operator := .outsideRange
  threshold := .range (.real 15.0) (.real 30.0)
  aggregation := ⟨.latest, 10, 1⟩
  filters := []
  fits := rfl

/-- The hall once its sensor has nothing to say any more. -/
def silent : Snapshot :=
  hall [inHall 27 20.0, inHall 29 noNumber] []

end Sample

namespace Condition

open Sample

set_option maxRecDepth 100000 in
theorem select_silent : unfit.select silent = .ok silent.readings := by
  have hcounted : unfit.counted silent = silent.readings :=
    List.filter_eq_self.mpr (by decide +kernel)
  obtain ⟨start, hstart, -⟩ : ∃ start,
      windowStart silent.now unfit.aggregation.period = .ok start ∧ True := by
    decide +kernel
  rw [select_eq fun r _ _ => ⟨true, rfl⟩, hstart, hcounted]
  exact congrArg Except.ok (List.mergeSort_of_pairwise (by decide +kernel))

theorem evaluate_silent : unfit.evaluate silent = unfit.conclude silent.readings silent := by
  rw [evaluate_eq_bind, select_silent]
  rfl

end Condition

namespace Confidence

open Sample

theorem inRange_iff_silent : ∃ r, unfit.evaluate silent = .ok r ∧ [r] ≠ [] ∧
    [r].length < 2 ^ 1023 ∧ ∃ x, Confidence.of [r] = .ok x
      ∧ (InRange x ↔ ∀ r' ∈ [r], r'.met = true → r'.IsWeighable)
      ∧ (x.isNaN = true ↔ ∃ r' ∈ [r], r'.met = true ∧ ¬ r'.IsWeighable) := by
  have hresult : ∃ r, unfit.conclude silent.readings silent = .ok r ∧ True := by
    decide +kernel
  obtain ⟨r, hr, -⟩ := hresult
  have hr : unfit.evaluate silent = .ok r := Condition.evaluate_silent.trans hr
  have hne : [r] ≠ [] := List.cons_ne_nil r []
  have hpow (k : Nat) (hk : k ≠ 0) : 1 < 2 ^ k := Nat.one_lt_two_pow hk
  have hlen : [r].length < 2 ^ 1023 := hpow 1023 (by decide)
  exact ⟨r, hr, hne, hlen, inRange_iff hne hlen fun r' hr' =>
    ⟨unfit, silent, (List.mem_singleton.mp hr') ▸ hr⟩⟩

set_option maxRecDepth 100000 in
/-- What is no number lies in no band, and the trust in this is no number either. -/
theorem not_inRange_silent : ∃ r, unfit.evaluate silent = .ok r ∧
    ∃ x, Confidence.of [r] = .ok x ∧ ¬ InRange x := by
  rw [Condition.evaluate_silent]
  decide +kernel

end Confidence

end BuildingAlerts
