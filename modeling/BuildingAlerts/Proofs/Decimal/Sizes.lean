/-
Doubles at or above zero.

A size is a double that is at least zero, infinity included, or no number at all. Sizes stay sizes
when they are added, and when they are multiplied or divided by a finite double above zero, and the
outcome is no number exactly when something that went in was none. So a sum of sizes tells whether
one of them is no number, however the additions are arranged.
-/
import BuildingAlerts.Metric.Summation
import BuildingAlerts.Proofs.Decimal.Values

set_option autoImplicit false

namespace BuildingAlerts.Doubles

open Float.Model Float.Model.UnpackedFloat

variable {x y : Float} {u v : UnpackedFloat}

/-! ## Comparison -/

theorem lt_iff : x < y ↔ UnpackedFloat.compare (value x) (value y) = some .lt := by
  have h : x < y ↔ (UnpackedFloat.compare (value x) (value y) == some .lt) = true :=
    decide_eq_true_iff
  rw [h, beq_iff_eq]

theorem le_iff : x ≤ y ↔ (UnpackedFloat.compare (value x) (value y)).any (·.isLE) = true :=
  decide_eq_true_iff

theorem isNaN_iff : x.isNaN = true ↔ value x = .notANumber := by
  rw [isNaN_eq, UnpackedFloat.isNaN_iff]

theorem beq_iff : (x == y) = true ↔ UnpackedFloat.compare (value x) (value y) = some .eq := by
  have h : (x == y) = (UnpackedFloat.compare (value x) (value y) == some .eq) := rfl
  rw [h, beq_iff_eq]

/-- All doubles that are no number have the same bits. -/
theorem shape_of_isNaN (h : x.isNaN = true) : Decimal.shape x = .nan := by
  rw [isNaN_iff] at h
  have hbits : x.toModel.toBits.toBitVec = packedNaN Format.binary64 := by
    have hunpack : unpack Format.binary64 x.toModel.toBits.toBitVec = .notANumber := h
    unfold UnpackedFloat.unpack at hunpack
    dsimp only at hunpack
    split at hunpack
    · next hones =>
      split at hunpack
      · cases hunpack
      · next hmantissa => exact x.toModel.valid.eq_packedNaN hones hmantissa
    · split at hunpack
      · split at hunpack <;> cases hunpack
      · cases hunpack
  have hnat : x.toBits.toNat = 0x7FF8000000000000 :=
    congrArg BitVec.toNat hbits
  unfold Decimal.shape
  rw [hnat]
  rfl

theorem compare_swap (u v : UnpackedFloat) :
    UnpackedFloat.compare v u = (UnpackedFloat.compare u v).map Ordering.swap := by
  match u, v with
  | .notANumber, v => cases v <;> rfl
  | .infinity .positive, v => cases v <;> first | rfl | (rename_i t; cases t <;> rfl)
  | .infinity .negative, v => cases v <;> first | rfl | (rename_i t; cases t <;> rfl)
  | .zero _, .notANumber | .zero _, .zero _ => rfl
  | .zero _, .infinity t | .zero _, .finite t _ _ _ => cases t <;> rfl
  | .finite s _ _ _, .notANumber | .finite s _ _ _, .zero _ => cases s <;> rfl
  | .finite s _ _ _, .infinity t => cases s <;> cases t <;> rfl
  | .finite .positive _ _ _, .finite .negative _ _ _
  | .finite .negative _ _ _, .finite .positive _ _ _ => rfl
  | .finite .positive m e _, .finite .positive n f _
  | .finite .negative m e _, .finite .negative n f _ =>
      simp [UnpackedFloat.compare, Ordering.swap_then, Int.compare_swap, Nat.compare_swap]

theorem isSome_compare (hu : u ≠ .notANumber) (hv : v ≠ .notANumber) :
    (UnpackedFloat.compare u v).isSome = true := by
  match u, v with
  | .notANumber, _ => exact absurd rfl hu
  | _, .notANumber => exact absurd rfl hv
  | .infinity s, .infinity _ | .infinity s, .zero _ | .infinity s, .finite _ _ _ _ =>
      cases s <;> rfl
  | .zero _, .zero _ => rfl
  | .zero _, .infinity t | .zero _, .finite t _ _ _ => cases t <;> rfl
  | .finite s _ _ _, .zero _ => cases s <;> rfl
  | .finite s _ _ _, .infinity t | .finite s _ _ _, .finite t _ _ _ =>
      cases s <;> cases t <;> rfl

/-- Two numbers are in order one way or the other. -/
theorem le_of_not_lt (hx : x.isNaN = false) (hy : y.isNaN = false) (h : ¬ y < x) : x ≤ y := by
  have hsome := isSome_compare (mt isNaN_iff.mpr (Bool.eq_false_iff.mp hy))
    (mt isNaN_iff.mpr (Bool.eq_false_iff.mp hx))
  obtain ⟨o, ho⟩ := Option.isSome_iff_exists.mp hsome
  rw [lt_iff, ho] at h
  rw [le_iff, compare_swap, ho]
  cases o with
  | lt => exact absurd rfl h
  | eq => rfl
  | gt => rfl

/-- Nothing compares with what is no number. -/
theorem compare_of_isNaN (h : x.isNaN = true ∨ y.isNaN = true) :
    UnpackedFloat.compare (value x) (value y) = none := by
  rcases h with h | h
  · rw [isNaN_iff.mp h]
    cases value y <;> rfl
  · rw [isNaN_iff.mp h]
    cases value x <;> rfl

/-! ## Sizes -/

/-- At or above zero. -/
def AtLeastZero : UnpackedFloat → Prop
  | .infinity s | .finite s _ _ _ => s = .positive
  | .zero _ => True
  | .notANumber => False

theorem zero_le_iff : 0.0 ≤ x ↔ AtLeastZero (value x) := by
  have hzero : value 0.0 = .zero .positive := rfl
  rw [le_iff, hzero]
  match value x with
  | .notANumber => simp [UnpackedFloat.compare, AtLeastZero]
  | .zero _ => simp [UnpackedFloat.compare, AtLeastZero]
  | .infinity .positive | .finite .positive _ _ _ =>
    simp [UnpackedFloat.compare, AtLeastZero, Ordering.isLE]
  | .infinity .negative | .finite .negative _ _ _ =>
    simp [UnpackedFloat.compare, AtLeastZero, Ordering.isLE]

/-- A double at or above zero, or none that is a number. -/
def IsSize (x : Float) : Prop :=
  0.0 ≤ x ∨ x.isNaN = true

theorem isNaN_of_zero_le (h : 0.0 ≤ x) : x.isNaN = false := by
  refine Bool.eq_false_iff.mpr fun hnan => ?_
  rw [zero_le_iff, isNaN_iff.mp hnan] at h
  exact h

theorem IsSize.zero_le (h : IsSize x) (hx : x.isNaN = false) : 0.0 ≤ x :=
  h.resolve_right (Bool.eq_false_iff.mp hx)

theorem isPositive_iff : IsPositive x ↔ 0.0 < x ∧ x.isFinite = true := by
  have hzero : value 0.0 = .zero .positive := rfl
  unfold IsPositive
  rw [lt_iff, isFinite_eq, hzero]
  match value x with
  | .notANumber | .zero _ | .infinity _ => simp [UnpackedFloat.compare, UnpackedFloat.isFinite]
  | .finite .positive m e h => simpa [UnpackedFloat.compare, UnpackedFloat.isFinite] using h
  | .finite .negative m e h => simp [UnpackedFloat.compare, UnpackedFloat.isFinite]

theorem IsPositive.isNaN (h : IsPositive x) : x.isNaN = false := by
  obtain ⟨m, e, hm, hx⟩ := h
  rw [isNaN_eq, hx]
  rfl

theorem IsPositive.zero_le (h : IsPositive x) : 0.0 ≤ x := by
  obtain ⟨m, e, hm, hx⟩ := h
  rw [zero_le_iff, hx]
  rfl

theorem isNaN_of_lt (h : x < y) : y.isNaN = false := by
  refine Bool.eq_false_iff.mpr fun hnan => ?_
  rw [lt_iff, compare_of_isNaN (.inr hnan)] at h
  cases h

theorem le_refl (h : x.isNaN = false) : x ≤ x :=
  le_of_not_lt h h fun hlt => by
    rw [lt_iff] at hlt
    have hswap := compare_swap (value x) (value x)
    rw [hlt] at hswap
    cases hswap

/-! ## What arithmetic makes of sizes -/

theorem FiniteOf.atLeastZero (h : FiniteOf .positive u) : AtLeastZero u :=
  match u, h with
  | .zero _, _ => trivial
  | .finite _ _ _ _, h => h

theorem AtLeastZero.kept (h : AtLeastZero u) : AtLeastZero (kept u) := by
  match u, h with
  | .infinity s, h => rw [kept_infinity]; exact h
  | .zero s, _ => rw [kept_zero]; trivial
  | .finite s m e hm, h =>
    obtain rfl : s = .positive := h
    rcases kept_finite .positive hm with ⟨-, hinfinite⟩ | hfinite
    · rw [hinfinite]; rfl
    · exact hfinite.atLeastZero

theorem finiteOf_roundWithAccuracy (f : Format) (s : Sign) (m : Nat) (e : Int) (a : Accuracy) :
    FiniteOf s (roundWithAccuracy f s m e a) := by
  unfold roundWithAccuracy
  dsimp only
  split <;> rfl

theorem finiteOf_normalize (f : Format) {m : Int} (h : 0 ≤ m) (e : Int) :
    FiniteOf .positive (normalize f m e .positive) := by
  unfold UnpackedFloat.normalize
  split
  · next hlt =>
    rw [Int.compare_eq_lt] at hlt
    omega
  · rfl
  · exact finiteOf_roundWithAccuracy ..

theorem AtLeastZero.add (f : Format) (hu : AtLeastZero u) (hv : AtLeastZero v) :
    AtLeastZero (add f u v) := by
  match u, v, hu, hv with
  | .infinity _, .infinity _, rfl, rfl => rfl
  | .infinity _, .zero _, hu, _ | .infinity _, .finite _ _ _ _, hu, _ => exact hu
  | .zero _, .infinity _, _, hv | .finite _ _ _ _, .infinity _, _, hv => exact hv
  | .zero s, .zero t, _, _ => cases s <;> cases t <;> trivial
  | .zero _, .finite _ _ _ _, _, hv => exact hv
  | .finite _ _ _ _, .zero _, hu, _ => exact hu
  | .finite _ m e _, .finite _ n f' _, rfl, rfl =>
    exact (finiteOf_normalize f (Int.add_nonneg (Int.natCast_nonneg _) (Int.natCast_nonneg _))
      _).atLeastZero

theorem AtLeastZero.mul (f : Format) (hu : AtLeastZero u) (m : Nat) (e : Int) (hm : 0 < m) :
    AtLeastZero (mul f u (.finite .positive m e hm)) := by
  match u, hu with
  | .infinity _, rfl => rfl
  | .zero _, _ => trivial
  | .finite _ _ _ _, rfl => exact (finiteOf_roundWithAccuracy ..).atLeastZero

theorem AtLeastZero.div (f : Format) (hu : AtLeastZero u) (m : Nat) (e : Int) (hm : 0 < m) :
    AtLeastZero (div f u (.finite .positive m e hm)) := by
  match u, hu with
  | .infinity _, rfl => rfl
  | .zero _, _ => trivial
  | .finite _ _ _ _, rfl => exact (finiteOf_roundWithAccuracy ..).atLeastZero

theorem zero_le_add (hx : 0.0 ≤ x) (hy : 0.0 ≤ y) : 0.0 ≤ x + y := by
  rw [zero_le_iff] at hx hy ⊢
  exact (hx.add _ hy).kept

theorem zero_le_mul (hx : 0.0 ≤ x) (hy : IsPositive y) : 0.0 ≤ x * y := by
  obtain ⟨m, e, hm, hy⟩ := hy
  rw [zero_le_iff] at hx ⊢
  rw [value_mul, hy]
  exact (hx.mul _ m e hm).kept

theorem zero_le_div (hx : 0.0 ≤ x) (hy : IsPositive y) : 0.0 ≤ x / y := by
  obtain ⟨m, e, hm, hy⟩ := hy
  rw [zero_le_iff] at hx ⊢
  rw [value_div, hy]
  exact (hx.div _ m e hm).kept

/-! ## What is no number stays none -/

theorem isNaN_add_left (hx : x.isNaN = true) (y : Float) : (x + y).isNaN = true := by
  rw [isNaN_iff] at hx ⊢
  have hnone : add Format.binary64 .notANumber (value y) = .notANumber := rfl
  rw [value_add, hx, hnone, kept_notANumber]

theorem isNaN_add_right (x : Float) (hy : y.isNaN = true) : (x + y).isNaN = true := by
  rw [isNaN_iff] at hy ⊢
  have hnone : add Format.binary64 (value x) .notANumber = .notANumber := by
    cases value x <;> rfl
  rw [value_add, hy, hnone, kept_notANumber]

theorem isNaN_sub_left (hx : x.isNaN = true) (y : Float) : (x - y).isNaN = true := by
  rw [isNaN_iff] at hx ⊢
  have hnone : sub Format.binary64 .notANumber (value y) = .notANumber := rfl
  rw [value_sub, hx, hnone, kept_notANumber]

theorem isNaN_mul_left (hx : x.isNaN = true) (y : Float) : (x * y).isNaN = true := by
  rw [isNaN_iff] at hx ⊢
  have hnone : mul Format.binary64 .notANumber (value y) = .notANumber := rfl
  rw [value_mul, hx, hnone, kept_notANumber]

theorem isNaN_div_left (hx : x.isNaN = true) (y : Float) : (x / y).isNaN = true := by
  rw [isNaN_iff] at hx ⊢
  have hnone : div Format.binary64 .notANumber (value y) = .notANumber := rfl
  rw [value_div, hx, hnone, kept_notANumber]

theorem isNaN_div_right (x : Float) (hy : y.isNaN = true) : (x / y).isNaN = true := by
  rw [isNaN_iff] at hy ⊢
  have hnone : div Format.binary64 (value x) .notANumber = .notANumber := by
    cases value x <;> rfl
  rw [value_div, hy, hnone, kept_notANumber]

/-! ## Sizes under arithmetic -/

theorem IsSize.of_imp {z : Float} (hx : IsSize x) (hle : 0.0 ≤ x → 0.0 ≤ z)
    (hnan : x.isNaN = true → z.isNaN = true) : IsSize z ∧ (z.isNaN = true ↔ x.isNaN = true) := by
  rcases hx with hx | hx
  · have hz := hle hx
    exact ⟨.inl hz, by rw [isNaN_of_zero_le hz, isNaN_of_zero_le hx]⟩
  · exact ⟨.inr (hnan hx), iff_of_true (hnan hx) hx⟩

theorem IsSize.mul (hx : IsSize x) (hy : IsPositive y) :
    IsSize (x * y) ∧ ((x * y).isNaN = true ↔ x.isNaN = true) :=
  hx.of_imp (zero_le_mul · hy) (isNaN_mul_left · y)

theorem IsSize.div (hx : IsSize x) (hy : IsPositive y) :
    IsSize (x / y) ∧ ((x / y).isNaN = true ↔ x.isNaN = true) :=
  hx.of_imp (zero_le_div · hy) (isNaN_div_left · y)

theorem IsSize.add (hx : IsSize x) (hy : IsSize y) :
    IsSize (x + y) ∧ ((x + y).isNaN = true ↔ x.isNaN = true ∨ y.isNaN = true) := by
  rcases hx with hx | hx
  · have hsum := hy.of_imp (zero_le_add hx ·) (isNaN_add_right x ·)
    refine ⟨hsum.1, hsum.2.trans ?_⟩
    rw [isNaN_of_zero_le hx]
    exact (or_iff_right Bool.false_ne_true).symm
  · have hsum := isNaN_add_left hx y
    exact ⟨.inr hsum, iff_of_true hsum (.inl hx)⟩

/-! ## Distances -/

theorem kept_eq_notANumber_iff : kept u = .notANumber ↔ u = .notANumber := by
  refine ⟨fun h => ?_, fun h => h ▸ kept_notANumber⟩
  match u with
  | .notANumber => rfl
  | .infinity s => rw [kept_infinity] at h; cases h
  | .zero s => rw [kept_zero] at h; cases h
  | .finite s m e hm =>
    rcases kept_finite s hm with ⟨-, hinfinite⟩ | hfinite
    · rw [hinfinite] at h; cases h
    · rw [h] at hfinite; exact hfinite.elim

theorem normalize_ne_notANumber (f : Format) (m e : Int) (s : Sign) :
    normalize f m e s ≠ .notANumber := by
  have hround (t : Sign) (n : Nat) : round f t n e ≠ .notANumber := fun h => by
    have hfinite : FiniteOf t (round f t n e) := finiteOf_roundWithAccuracy ..
    rw [h] at hfinite
    exact hfinite
  unfold UnpackedFloat.normalize
  split
  · exact hround _ _
  · exact nofun
  · exact hround _ _

/-- The distance to a finite double is a number if the other end is. -/
theorem isNaN_sub_iff (hy : y.isFinite = true) : (x - y).isNaN = true ↔ x.isNaN = true := by
  rw [isFinite_eq] at hy
  rw [isNaN_iff, isNaN_iff, value_sub, kept_eq_notANumber_iff]
  match value x, value y, hy with
  | .notANumber, _, _ => exact iff_of_true rfl rfl
  | .infinity _, .zero _, _ | .infinity _, .finite _ _ _ _, _ => exact iff_of_false nofun nofun
  | .zero s, .zero t, _ => cases s <;> cases t <;> exact iff_of_false nofun nofun
  | .zero _, .finite _ _ _ _, _ | .finite _ _ _ _, .zero _, _ => exact iff_of_false nofun nofun
  | .finite _ _ _ _, .finite _ _ _ _, _ =>
    exact iff_of_false (fun h => normalize_ne_notANumber _ _ _ _ h) nofun

theorem isSize_abs (x : Float) : IsSize x.abs ∧ (x.abs.isNaN = true ↔ x.isNaN = true) := by
  have hnan : x.abs.isNaN = true ↔ x.isNaN = true := by
    rw [isNaN_iff, isNaN_iff, value_abs, kept_eq_notANumber_iff]
    cases value x <;> simp [UnpackedFloat.abs]
  refine ⟨?_, hnan⟩
  by_cases hx : x.isNaN = true
  · exact .inr (hnan.mpr hx)
  · refine .inl (zero_le_iff.mpr ?_)
    rw [isNaN_iff] at hx
    rw [value_abs]
    refine AtLeastZero.kept ?_
    match value x, hx with
    | .notANumber, hx => exact absurd rfl hx
    | .infinity _, _ | .finite _ _ _ _, _ => exact rfl
    | .zero _, _ => trivial

/-- A finite double whose distance from zero is at least one. -/
theorem isPositive_abs (hx : x.isFinite = true) (h : ¬ x.abs < 1.0) : IsPositive x.abs := by
  rw [lt_iff] at h
  rw [isFinite_eq] at hx
  have hfinite : FiniteOf .positive (value x.abs) := by
    rw [value_abs]
    cases hvalue : value x with
    | notANumber => rw [hvalue] at hx; cases hx
    | infinity s => rw [hvalue] at hx; cases hx
    | zero s => exact (kept_zero .positive).symm ▸ rfl
    | finite s m e hm =>
        refine (kept_finite .positive hm).resolve_left fun hlarge => ?_
        have hmost := exponent_le hvalue
        omega
  unfold IsPositive
  match value x.abs, hfinite, h with
  | .zero _, _, h => exact absurd rfl h
  | .finite _ m e hm, rfl, _ => exact ⟨m, e, hm, rfl⟩

/-! ## Doubles that are not finite -/

theorem not_isFinite_iff : x.isFinite = false ↔
    value x = .notANumber ∨ ∃ s, value x = .infinity s := by
  rw [isFinite_eq]
  cases value x <;> simp [UnpackedFloat.isFinite]

theorem not_isFinite_sub (x : Float) (hy : y.isFinite = false) : (x - y).isFinite = false := by
  rw [not_isFinite_iff] at hy ⊢
  rw [value_sub]
  rcases hy with hy | ⟨t, hy⟩
  · rw [hy, kept_eq_notANumber_iff]
    exact .inl (by cases value x <;> rfl)
  · rw [hy]
    match value x with
    | .notANumber => exact .inl kept_notANumber
    | .infinity s =>
      by_cases hs : (s == -t) = true
      · have hsub : sub Format.binary64 (.infinity s) (.infinity t) = .infinity s := if_pos hs
        exact .inr ⟨s, by rw [hsub, kept_infinity]⟩
      · have hsub : sub Format.binary64 (.infinity s) (.infinity t) = .notANumber := if_neg hs
        exact .inl (by rw [hsub, kept_notANumber])
    | .zero _ | .finite _ _ _ _ => exact .inr ⟨-t, kept_infinity (-t)⟩

theorem value_abs_of_not_isFinite (hx : x.isFinite = false) :
    value x.abs = .notANumber ∨ value x.abs = .infinity .positive := by
  rw [not_isFinite_iff] at hx
  rw [value_abs]
  rcases hx with hx | ⟨s, hx⟩
  · exact .inl (by rw [hx]; exact kept_notANumber)
  · exact .inr (by rw [hx]; exact kept_infinity .positive)

theorem not_isFinite_abs (hx : x.isFinite = false) : x.abs.isFinite = false :=
  not_isFinite_iff.mpr ((value_abs_of_not_isFinite hx).imp_right fun h => ⟨_, h⟩)

theorem not_abs_lt (hx : x.isFinite = false) (hy : IsPositive y) : ¬ x.abs < y := by
  obtain ⟨m, e, hm, hy⟩ := hy
  rw [lt_iff, hy]
  rcases value_abs_of_not_isFinite hx with h | h
  · rw [h]
    exact nofun
  · rw [h]
    exact fun h => nomatch Option.some.inj h

theorem isNaN_div_of_not_isFinite (hx : x.isFinite = false) (hy : y.isFinite = false) :
    (x / y).isNaN = true := by
  rw [not_isFinite_iff] at hx hy
  rcases hx with hx | ⟨s, hx⟩
  · exact isNaN_div_left (isNaN_iff.mpr hx) y
  · rcases hy with hy | ⟨t, hy⟩
    · exact isNaN_div_right x (isNaN_iff.mpr hy)
    · rw [isNaN_iff, value_div, hx, hy]
      exact kept_notANumber

/-! ## Sums of sizes -/

/-- A size that is no number exactly when a member of a list is none. -/
def Sums (s : Float) (xs : List Float) : Prop :=
  IsSize s ∧ (s.isNaN = true ↔ ∃ x ∈ xs, x.isNaN = true)

namespace Sums

variable {s t : Float} {xs ys : List Float}

theorem single (h : IsSize x) : Sums x [x] :=
  ⟨h, by simp⟩

theorem zero : Sums 0.0 [] := by
  have hzero : (0.0 : Float) ≤ 0.0 := by decide +kernel
  refine ⟨.inl hzero, ?_⟩
  rw [isNaN_of_zero_le hzero]
  simp

theorem add (hs : Sums s xs) (ht : Sums t ys) : Sums (s + t) (xs ++ ys) := by
  obtain ⟨hsize, hnan⟩ := hs.1.add ht.1
  refine ⟨hsize, hnan.trans ?_⟩
  rw [hs.2, ht.2]
  simp only [List.mem_append, or_and_right, exists_or]

end Sums

open Summation

/-- The eight running sums, from first to last. -/
def members (r : Columns) : List Float :=
  [r.a, r.b, r.c, r.d, r.e, r.f, r.g, r.h]

variable {xs ys : List Float}

theorem sums_join {r : Columns} (h : ∀ x ∈ members r, IsSize x) : Sums r.join (members r) := by
  simp only [members, List.forall_mem_cons] at h
  obtain ⟨ha, hb, hc, hd, he, hf, hg, hh, -⟩ := h
  exact (((Sums.single ha).add (.single hb)).add ((Sums.single hc).add (.single hd))).add
    (((Sums.single he).add (.single hf)).add ((Sums.single hg).add (.single hh)))

theorem sums_inOrder {start : Float} (hstart : Sums start ys) (h : ∀ x ∈ xs, IsSize x) :
    Sums (inOrder start xs) (ys ++ xs) := by
  induction xs generalizing start ys with
  | nil => rwa [List.append_nil]
  | cons x xs ih =>
      obtain ⟨hx, hxs⟩ := List.forall_mem_cons.mp h
      have hrest := ih (hstart.add (.single hx)) hxs
      rwa [List.append_assoc] at hrest

/-- Two rows added place by place. -/
theorem sizes_zipWith_add {cs row : List Float} (hlen : cs.length = row.length)
    (hcs : ∀ x ∈ cs, IsSize x) (hrow : ∀ x ∈ row, IsSize x) :
    (∀ x ∈ List.zipWith (· + ·) cs row, IsSize x) ∧
      ((∃ x ∈ List.zipWith (· + ·) cs row, x.isNaN = true) ↔ ∃ x ∈ cs ++ row, x.isNaN = true) := by
  induction cs generalizing row with
  | nil =>
      obtain rfl := List.length_eq_zero_iff.mp hlen.symm
      simp
  | cons c cs ih =>
      obtain ⟨x, row, rfl⟩ := List.exists_cons_of_length_eq_add_one hlen.symm
      obtain ⟨hc, hcs⟩ := List.forall_mem_cons.mp hcs
      obtain ⟨hx, hrow⟩ := List.forall_mem_cons.mp hrow
      obtain ⟨hsizes, hnan⟩ := ih (Nat.succ.inj hlen) hcs hrow
      obtain ⟨hsize, hsum⟩ := hc.add hx
      refine ⟨List.forall_mem_cons.mpr ⟨hsize, hsizes⟩, ?_⟩
      simp only [List.mem_append, or_and_right, exists_or] at hnan
      simp only [List.zipWith_cons_cons, List.mem_append, List.mem_cons, or_and_right, exists_or,
        exists_eq_left, hsum, hnan]
      exact or_or_or_comm

theorem sums_byRows {r : Columns} (hr : ∀ x ∈ members r, IsSize x) (h : ∀ x ∈ xs, IsSize x) :
    Sums (byRows r xs) (members r ++ xs) := by
  induction r, xs using byRows.induct with
  | case1 r x0 x1 x2 x3 x4 x5 x6 x7 rest ih =>
      have hsplit : x0 :: x1 :: x2 :: x3 :: x4 :: x5 :: x6 :: x7 :: rest
          = [x0, x1, x2, x3, x4, x5, x6, x7] ++ rest := rfl
      rw [hsplit, List.forall_mem_append] at h
      have hlen : (members r).length = [x0, x1, x2, x3, x4, x5, x6, x7].length := rfl
      obtain ⟨hsizes, hnan⟩ := sizes_zipWith_add hlen hr h.1
      obtain ⟨hsize, hsum⟩ := ih hsizes h.2
      refine ⟨hsize, hsum.trans ?_⟩
      have hmembers : members ⟨r.a + x0, r.b + x1, r.c + x2, r.d + x3, r.e + x4, r.f + x5,
          r.g + x6, r.h + x7⟩ = List.zipWith (· + ·) (members r) [x0, x1, x2, x3, x4, x5, x6, x7] :=
        rfl
      have hjoin (ys : List Float) : (∃ x ∈ ys ++ rest, x.isNaN = true) ↔
          (∃ x ∈ ys, x.isNaN = true) ∨ ∃ x ∈ rest, x.isNaN = true := by
        simp only [List.mem_append, or_and_right, exists_or]
      rw [hmembers, hsplit, ← List.append_assoc, hjoin, hjoin, hnan]
  | case2 r xs hshort =>
      rw [byRows.eq_2 r xs hshort]
      exact sums_inOrder (sums_join hr) h

theorem sums_ofRun (h : ∀ x ∈ xs, IsSize x) : Sums (ofRun xs) xs := by
  unfold ofRun
  split
  · exact sums_byRows (fun x hx => h x (List.mem_append_left _ hx))
      fun x hx => h x (List.mem_append_right [_, _, _, _, _, _, _, _] hx)
  · exact sums_inOrder .zero h

theorem sums_byHalves (fuel : Nat) (h : ∀ x ∈ xs, IsSize x) : Sums (byHalves fuel xs) xs := by
  induction fuel generalizing xs with
  | zero => exact sums_ofRun h
  | succ fuel ih =>
      unfold byHalves
      dsimp only
      split
      · exact sums_ofRun h
      · have hcut (n : Nat) : Sums (byHalves fuel (xs.take n) + byHalves fuel (xs.drop n))
            (xs.take n ++ xs.drop n) :=
          (ih fun x hx => h x (List.mem_of_mem_take hx)).add
            (ih fun x hx => h x (List.mem_of_mem_drop hx))
        have hsum := hcut (xs.length / 2 - xs.length / 2 % 8)
        rwa [List.take_append_drop] at hsum

/-- The sum of sizes is a size, and a number if all of them are. -/
theorem sums_sum (h : ∀ x ∈ xs, IsSize x) : Sums (sum xs) xs :=
  Sums.zero.add (sums_byHalves xs.length h)

theorem sums_mean (h : ∀ x ∈ xs, IsSize x) (hne : xs ≠ []) (hlen : xs.length < 2 ^ 1023) :
    Sums (mean xs) xs := by
  obtain ⟨hsize, hnan⟩ := sums_sum h
  obtain ⟨hmean, hiff⟩ := hsize.div (isPositive_ofNat (List.length_pos_iff.mpr hne) hlen)
  exact ⟨hmean, hiff.trans hnan⟩

end BuildingAlerts.Doubles
