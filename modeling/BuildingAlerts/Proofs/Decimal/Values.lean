/-
What a double stands for.

Arithmetic on doubles reads what its operands stand for, computes, rounds the result to 53 binary
digits and keeps it as a double again. Two things are told here about what is kept. A result of a
sign stays one of this sign, and a result with 53 binary digits and an exponent in range stays as
it is. From these come the doubles of whole numbers: below the range of doubles they are finite
and have the sign of the number.
-/
import BuildingAlerts.Decimal.Binary
import Mathlib

set_option autoImplicit false

namespace BuildingAlerts.Doubles

open Float.Model Float.Model.UnpackedFloat

/-- What a double stands for. -/
def value (x : Float) : UnpackedFloat :=
  x.toModel.unpack

/-- What a result stands for once it is kept as a double. -/
def kept (u : UnpackedFloat) : UnpackedFloat :=
  (Float.Model.pack u).unpack

theorem value_add (x y : Float) :
    value (x + y) = kept (add Format.binary64 (value x) (value y)) := rfl

theorem value_sub (x y : Float) :
    value (x - y) = kept (sub Format.binary64 (value x) (value y)) := rfl

theorem value_mul (x y : Float) :
    value (x * y) = kept (mul Format.binary64 (value x) (value y)) := rfl

theorem value_div (x y : Float) :
    value (x / y) = kept (div Format.binary64 (value x) (value y)) := rfl

theorem value_abs (x : Float) : value x.abs = kept (UnpackedFloat.abs (value x)) := rfl

theorem value_ofBits (b : UInt64) :
    value (Float.ofBits b) = kept (unpack Format.binary64 b.toBitVec) := rfl

theorem isNaN_eq (x : Float) : x.isNaN = (value x).isNaN := rfl

theorem isInf_eq (x : Float) : x.isInf = (value x).isInf := rfl

theorem isFinite_eq (x : Float) : x.isFinite = (value x).isFinite := rfl

/-! ## What is kept -/

theorem kept_notANumber : kept .notANumber = .notANumber := rfl

theorem kept_infinity (s : Sign) : kept (.infinity s) = .infinity s := by
  cases s <;> rfl

theorem kept_zero (s : Sign) : kept (.zero s) = .zero s := by
  cases s <;> rfl

theorem toNat_implicit (m : BitVec 52) : (1#1 ++ m).toNat = 2 ^ 52 + m.toNat := by
  rw [BitVec.toNat_append, ← Nat.shiftLeft_add_eq_or_of_lt m.isLt]
  rfl

theorem unpack_normal (s : Sign) {x : BitVec 11} (m : BitVec 52) (hzero : x ≠ 0#11)
    (hones : x ≠ -1#11) : unpack Format.binary64 (packComponents Format.binary64 s x m)
      = .finite s (2 ^ 52 + m.toNat) ((x.toNat : Int) - 1075) (by omega) := by
  unfold UnpackedFloat.unpack
  simp only [unpackMantissa_packComponents, unpackExponent_packComponents,
    unpackSign_packComponents, Sign.ofBitVec_toBitVec]
  rw [if_neg hones, if_neg hzero]
  simp only [toNat_implicit]
  rfl

/-- A finite result, zero included, of a sign. -/
def FiniteOf (s : Sign) : UnpackedFloat → Prop
  | .zero t | .finite t _ _ _ => t = s
  | _ => False

theorem finiteOf_unpack (s : Sign) {x : BitVec 11} (m : BitVec 52) (hones : x ≠ -1#11) :
    FiniteOf s (unpack Format.binary64 (packComponents Format.binary64 s x m)) := by
  unfold UnpackedFloat.unpack
  simp only [unpackMantissa_packComponents, unpackExponent_packComponents,
    unpackSign_packComponents, Sign.ofBitVec_toBitVec]
  rw [if_neg hones]
  split
  · split <;> rfl
  · rfl

/-- A finite result is kept with its sign, unless it is too large. -/
theorem kept_finite (s : Sign) {m : Nat} {e : Int} (h : 0 < m) :
    (971 < e ∧ kept (.finite s m e h) = .infinity s) ∨ FiniteOf s (kept (.finite s m e h)) := by
  have hkept : kept (.finite s m e h)
      = unpack Format.binary64 (UnpackedFloat.pack Format.binary64 (.finite s m e h)) := rfl
  have hbias : (e + Format.binary64.exponentBias + (52 : Nat)).toNat = (e + 1075).toNat :=
    congrArg Int.toNat (by change e + 1023 + 52 = e + 1075; omega)
  rw [hkept]
  unfold UnpackedFloat.pack
  dsimp only
  rw [hbias]
  split
  · exact .inl ⟨by omega, kept_infinity s⟩
  · refine .inr ?_
    split
    · refine finiteOf_unpack s _ fun heq => ?_
      have hval := congrArg BitVec.toNat heq
      rw [BitVec.toNat_ofNat] at hval
      have hval : (e + 1075).toNat % 2 ^ 11 = 2047 := hval
      omega
    · exact finiteOf_unpack s _ (by decide)

/-- The exponents of doubles are bounded. -/
theorem exponent_le {x : Float} {s : Sign} {m : Nat} {e : Int} {h : 0 < m}
    (hx : value x = .finite s m e h) : e ≤ 971 := by
  have hunpack : value x = unpack Format.binary64 x.toModel.toBits.toBitVec := rfl
  rw [hunpack] at hx
  generalize (x.toModel.toBits.toBitVec : BitVec 64) = b at hx
  unfold UnpackedFloat.unpack at hx
  dsimp only at hx
  split at hx
  · split at hx <;> cases hx
  · next hones =>
    have hfield : (@unpackExponent Format.binary64 b).toNat ≠ 2047 := fun heq =>
      hones (BitVec.eq_of_toNat_eq heq)
    have hlt : (@unpackExponent Format.binary64 b).toNat < 2048 := BitVec.isLt _
    have hbias : Format.binary64.exponentBias = 1023 := rfl
    rw [hbias] at hx
    split at hx
    · next hzero =>
      split at hx
      · cases hx
      · obtain ⟨-, -, rfl⟩ := UnpackedFloat.finite.inj hx
        have hnone : (@unpackExponent Format.binary64 b).toNat = 0 := congrArg BitVec.toNat hzero
        rw [hnone]
        decide
    · obtain ⟨-, -, rfl⟩ := UnpackedFloat.finite.inj hx
      generalize (@unpackExponent Format.binary64 b).toNat = field at hfield hlt ⊢
      omega

theorem kept_normal (s : Sign) {m : Nat} {e : Int} (h : 0 < m) (hlow : 2 ^ 52 ≤ m)
    (hhigh : m < 2 ^ 53) (hleast : -1074 ≤ e) (hmost : e ≤ 971) :
    kept (.finite s m e h) = .finite s m e h := by
  have hlog : m.log2 + 1 = Format.binary64.mantissaBits := by
    have hne : m ≠ 0 := Nat.ne_of_gt h
    have := (Nat.le_log2 hne).mpr hlow
    have := (Nat.log2_lt hne).mpr hhigh
    change m.log2 + 1 = 53
    omega
  have hbias : (e + Format.binary64.exponentBias + (52 : Nat)).toNat = (e + 1075).toNat :=
    congrArg Int.toNat (by change e + 1023 + 52 = e + 1075; omega)
  have hpack : UnpackedFloat.pack Format.binary64 (.finite s m e h)
      = packComponents Format.binary64 s (BitVec.ofNat 11 (e + 1075).toNat) (BitVec.ofNat 52 m) := by
    unfold UnpackedFloat.pack
    dsimp only
    rw [hbias, if_neg (by omega), if_pos hlog]
  have hval : (BitVec.ofNat 11 (e + 1075).toNat).toNat = (e + 1075).toNat := by
    rw [BitVec.toNat_ofNat, Nat.mod_eq_of_lt (by omega)]
  have hfrac : 2 ^ 52 + (BitVec.ofNat 52 m).toNat = m := by
    rw [BitVec.toNat_ofNat]
    omega
  have hzero : BitVec.ofNat 11 (e + 1075).toNat ≠ 0#11 := fun heq => by
    have := congrArg BitVec.toNat heq
    rw [hval] at this
    have : (e + 1075).toNat = 0 := this
    omega
  have hones : BitVec.ofNat 11 (e + 1075).toNat ≠ -1#11 := fun heq => by
    have := congrArg BitVec.toNat heq
    rw [hval] at this
    have : (e + 1075).toNat = 2047 := this
    omega
  change unpack Format.binary64 (UnpackedFloat.pack Format.binary64 (.finite s m e h)) = _
  rw [hpack, unpack_normal s _ hzero hones]
  simp only [hfrac, hval]
  congr 1
  omega

/-! ## Rounding -/

theorem mantissa_shiftRight (k : Nat) (em : ExtendedMantissa) :
    (em >>> k).mantissa = em.mantissa / 2 ^ k := by
  induction k with
  | zero => exact (Nat.div_one _).symm
  | succ k ih =>
      have hstep : (em >>> (k + 1)).mantissa = (em >>> k).mantissa / 2 := rfl
      rw [hstep, ih, Nat.div_div_eq_div_mul, Nat.pow_succ]

theorem mantissa_ofMantissaAndAccuracy (m : Nat) (a : Accuracy) :
    (ExtendedMantissa.ofMantissaAndAccuracy m a).mantissa = m := by
  match a with
  | .exact | .inexact .lt | .inexact .eq | .inexact .gt => rfl

theorem targetExponent_eq (t : Int) :
    Format.binary64.targetExponent t = max (t - 53) (-1074) := rfl

theorem shiftToTargetExponent_eq (m : Nat) (e : Int) (a : Accuracy) {k : Nat}
    (h : k = (max (m.log2 + 1 + e - 53) (-1074) - e).toNat) :
    (shiftToTargetExponent Format.binary64 m e a).1.mantissa = m / 2 ^ k
      ∧ (shiftToTargetExponent Format.binary64 m e a).2 = e + k := by
  subst h
  refine ⟨?_, rfl⟩
  unfold shiftToTargetExponent shiftToExponent
  dsimp only
  rw [mantissa_shiftRight, mantissa_ofMantissaAndAccuracy]
  rfl

theorem roundedMantissa_bounds (em : ExtendedMantissa) :
    em.mantissa ≤ em.roundedMantissa ∧ em.roundedMantissa ≤ em.mantissa + 1 := by
  obtain ⟨m, r, s⟩ := em
  cases r <;> cases s <;>
    simp only [ExtendedMantissa.roundedMantissa, ExtendedMantissa.accuracy,
      Accuracy.roundToNearestEven] <;> omega

/-- A number of at least 53 binary digits, cut to 53 of them. -/
theorem cut_bounds {m : Nat} (h : 52 ≤ m.log2) :
    2 ^ 52 ≤ m / 2 ^ (m.log2 - 52) ∧ m / 2 ^ (m.log2 - 52) < 2 ^ 53 := by
  have hm : m ≠ 0 := by rintro rfl; simp at h
  constructor
  · rw [Nat.le_div_iff_mul_le (Nat.two_pow_pos _), ← Nat.pow_add, Nat.add_sub_cancel' h]
    exact Nat.log2_self_le hm
  · rw [Nat.div_lt_iff_lt_mul (Nat.two_pow_pos _), ← Nat.pow_add]
    have hexp : 53 + (m.log2 - 52) = m.log2 + 1 := by omega
    rw [hexp]
    exact Nat.lt_log2_self

theorem roundWithAccuracy_normal {m : Nat} {e : Int} (hm : 52 ≤ m.log2)
    (hlow : -1022 ≤ m.log2 + e) (s : Sign) (a : Accuracy) :
    ∃ m' e' h, roundWithAccuracy Format.binary64 s m e a = .finite s m' e' h
      ∧ 2 ^ 52 ≤ m' ∧ m' < 2 ^ 53 ∧ m.log2 + e ≤ e' + 52 ∧ e' + 51 ≤ m.log2 + e := by
  obtain ⟨hcut, hexp⟩ := shiftToTargetExponent_eq m e a (k := m.log2 - 52) (by omega)
  obtain ⟨hleast, hmost⟩ := cut_bounds hm
  obtain ⟨hdown, hup⟩ := roundedMantissa_bounds (shiftToTargetExponent Format.binary64 m e a).1
  rw [hcut] at hdown hup
  unfold roundWithAccuracy
  generalize shiftToTargetExponent Format.binary64 m e a = first at *
  obtain ⟨em, e₁⟩ := first
  dsimp only at *
  generalize em.roundedMantissa = r at *
  have hr : r ≠ 0 := by omega
  have hlog : 52 ≤ r.log2 := (Nat.le_log2 hr).mpr (by omega)
  have hlog' : r.log2 < 54 := (Nat.log2_lt hr).mpr (by omega)
  obtain ⟨hcut', hexp'⟩ := shiftToTargetExponent_eq r e₁ .exact (k := r.log2 - 52) (by omega)
  have hbounds := cut_bounds hlog
  rw [← hcut'] at hbounds
  generalize shiftToTargetExponent Format.binary64 r e₁ .exact = second at *
  rw [dif_neg (by omega)]
  exact ⟨_, _, _, rfl, hbounds.1, hbounds.2, by omega, by omega⟩

theorem log2_shiftLeft {n : Nat} (h : n ≠ 0) (k : Nat) : (n <<< k).log2 = n.log2 + k := by
  have hpos : 0 < 2 ^ k := Nat.two_pow_pos k
  have hne : n <<< k ≠ 0 := by
    rw [Nat.shiftLeft_eq]
    exact Nat.mul_ne_zero h (Nat.ne_of_gt hpos)
  refine (Nat.log2_eq_iff hne).mpr ⟨?_, ?_⟩
  · rw [Nat.shiftLeft_eq, Nat.pow_add]
    exact Nat.mul_le_mul_right _ (Nat.log2_self_le h)
  · rw [Nat.shiftLeft_eq, Nat.add_right_comm, Nat.pow_add]
    exact Nat.mul_lt_mul_of_pos_right Nat.lt_log2_self hpos

theorem round_normal {m : Nat} {e : Int} (hpos : 0 < m) (hlow : -1022 ≤ m.log2 + e) (s : Sign) :
    ∃ m' e' h, round Format.binary64 s m e = .finite s m' e' h
      ∧ 2 ^ 52 ≤ m' ∧ m' < 2 ^ 53 ∧ m.log2 + e ≤ e' + 52 ∧ e' + 51 ≤ m.log2 + e := by
  have htarget : Format.binary64.targetExponent (totalExponent m e) = (m.log2 : Int) + e - 52 := by
    rw [targetExponent_eq]
    unfold totalExponent
    omega
  have hshift : (e - ((m.log2 : Int) + e - 52)).toNat = 52 - m.log2 := by omega
  have hround : round Format.binary64 s m e = roundWithAccuracy Format.binary64 s
      (m <<< (52 - m.log2)) (e - ((52 - m.log2 : Nat) : Int)) .exact := by
    unfold UnpackedFloat.round decreaseExponent
    dsimp only
    rw [htarget, hshift]
  have hlog := log2_shiftLeft (Nat.ne_of_gt hpos) (52 - m.log2)
  obtain ⟨m', e', h, heq, hleast, hmost, hdown, hup⟩ := roundWithAccuracy_normal
    (m := m <<< (52 - m.log2)) (e := e - ((52 - m.log2 : Nat) : Int)) (by omega) (by omega) s .exact
  exact ⟨m', e', h, hround.trans heq, hleast, hmost, by omega, by omega⟩

theorem normalize_of_pos (f : Format) {m : Nat} (h : 0 < m) (e : Int) (s : Sign) :
    normalize f m e s = round f .positive m e := by
  have hcompare : compare (m : Int) 0 = .gt := by
    rw [Int.compare_eq_gt]
    omega
  unfold UnpackedFloat.normalize
  rw [hcompare]
  rfl

/-! ## Whole numbers as doubles -/

/-- A double above zero that is not infinite. -/
def IsPositive (x : Float) : Prop :=
  ∃ m e h, value x = .finite .positive m e h

/-- A whole number whose double is exact. -/
theorem value_toFloat {n : Nat} (hpos : 0 < n) (h : n < 2 ^ 53) :
    ∃ m e hm, value n.toUInt64.toFloat = .finite .positive m e hm
      ∧ 2 ^ 52 ≤ m ∧ m < 2 ^ 53 ∧ -52 ≤ e ∧ e ≤ 1 := by
  have hlog : n.log2 < 53 := (Nat.log2_lt (Nat.ne_of_gt hpos)).mpr h
  have hto : value n.toUInt64.toFloat
      = kept (normalize Format.binary64 (n.toUInt64.toNat : Int) 0 .positive) := rfl
  have hn : n.toUInt64.toNat = n := by
    rw [Nat.toUInt64, UInt64.toNat_ofNat', Nat.mod_eq_of_lt (by omega)]
  obtain ⟨m, e, hm, hround, hlow, hhigh, hleast, hmost⟩ :=
    round_normal (e := 0) hpos (by omega) .positive
  rw [hn, normalize_of_pos _ hpos, hround,
    kept_normal _ hm hlow hhigh (by omega) (by omega)] at hto
  exact ⟨m, e, hm, hto, hlow, hhigh, by omega, by omega⟩

/-- Numbers below the range of doubles have a double. -/
theorem isPositive_ofNat {n : Nat} (hpos : 0 < n) (h : n < 2 ^ 1023) :
    IsPositive (Float.ofNat n) := by
  have hne := Nat.ne_of_gt hpos
  by_cases hsmall : n < 2 ^ 53
  · have hof : Float.ofNat n = n.toUInt64.toFloat * Float.ofBits 0x3FF0000000000000 :=
      dif_pos ⟨hsmall, by decide⟩
    have hone : value (Float.ofBits 0x3FF0000000000000)
        = .finite .positive (1 <<< 52) (-52) (by decide) := rfl
    obtain ⟨m, e, hm, hn, hlow, hhigh, hleast, hmost⟩ := value_toFloat hpos hsmall
    have hlog : m.log2 = 52 := (Nat.log2_eq_iff (by omega)).mpr ⟨hlow, hhigh⟩
    have hlogmul : (m * 1 <<< 52).log2 = m.log2 + 52 := by
      rw [Nat.shiftLeft_eq, Nat.one_mul, ← Nat.shiftLeft_eq, log2_shiftLeft (by omega)]
    obtain ⟨m', e', hm', hround, hlow', hhigh', hleast', hmost'⟩ := roundWithAccuracy_normal
      (m := m * 1 <<< 52) (e := e + -52) (by omega) (by omega) .positive .exact
    refine ⟨m', e', hm', ?_⟩
    rw [hof, value_mul, hn, hone]
    exact (congrArg kept hround).trans (kept_normal _ hm' hlow' hhigh' (by omega) (by omega))
  · have hof : Float.ofNat n = .ofModel (Float.Model.ofScientific n 0) :=
      dif_neg fun hfast => hsmall hfast.1
    have hbelow {k : Nat} (h : n < 2 ^ k) : n.log2 < k := (Nat.log2_lt hne).mpr h
    have hlog : n.log2 < 1023 := hbelow h
    have hlarge : 53 ≤ n.log2 := (Nat.le_log2 hne).mpr (Nat.le_of_not_lt hsmall)
    have hlogmul : (n <<< 53 * 10 ^ (0 : Int).toNat).log2 = n.log2 + 53 := by
      rw [Int.toNat_zero, Nat.pow_zero, Nat.mul_one, log2_shiftLeft hne]
    obtain ⟨m', e', hm', hround, hlow', hhigh', hleast', hmost'⟩ := roundWithAccuracy_normal
      (m := n <<< 53 * 10 ^ (0 : Int).toNat) (e := -53 + 0) (by omega) (by omega) .positive .exact
    refine ⟨m', e', hm', ?_⟩
    have hscientific : UnpackedFloat.ofScientific Format.binary64 n 0
        = .finite .positive m' e' hm' := by
      unfold UnpackedFloat.ofScientific
      rw [dif_neg hne, if_neg (by decide), if_neg (by change ¬ (0 : Int) < -(2 ^ 11 + n.log2); omega),
        if_pos (Int.le_refl 0)]
      exact hround
    rw [hof]
    exact (congrArg kept hscientific).trans
      (kept_normal _ hm' hlow' hhigh' (by omega) (by omega))

section Whole

open Decimal

theorem two_pow_le_scaleByTwo {num : Nat} {k : Int} (hpos : 0 < num) (h : k + 52 ≤ num.log2) :
    2 ^ 52 ≤ (scaleByTwo num 1 (-k)).1 / (scaleByTwo num 1 (-k)).2 := by
  have hlog := Nat.log2_self_le (Nat.ne_of_gt hpos)
  unfold scaleByTwo twoTo
  split
  · dsimp only
    rw [Nat.div_one]
    calc 2 ^ 52 ≤ 2 ^ (num.log2 + (-k).toNat) := Nat.pow_le_pow_right (by decide) (by omega)
      _ = 2 ^ num.log2 * 2 ^ (-k).toNat := Nat.pow_add ..
      _ ≤ num * 2 ^ (-k).toNat := Nat.mul_le_mul_right _ hlog
  · dsimp only
    rw [Nat.one_mul]
    refine (Nat.le_div_iff_mul_le (Nat.two_pow_pos _)).mpr ?_
    calc 2 ^ 52 * 2 ^ (- -k).toNat = 2 ^ (52 + (- -k).toNat) := (Nat.pow_add ..).symm
      _ ≤ 2 ^ num.log2 := Nat.pow_le_pow_right (by decide) (by omega)
      _ ≤ num := hlog

theorem div_le_roundDiv (num den : Nat) : num / den ≤ roundDiv num den := by
  unfold roundDiv
  dsimp only
  split
  · exact Nat.le_succ _
  · split
    · exact Nat.le_succ _
    · exact Nat.le_refl _

/-- The bits of a whole number without its sign are those of a double with a leading one, or of
infinity. -/
theorem exists_bits (num : Nat) : ∃ bits,
    (∀ negative, ofRatio negative num 1
      = Float.ofBits (UInt64.ofNat ((if negative then twoTo 63 else 0) + bits)))
    ∧ (num = 0 → bits = 0) ∧ (0 < num → 2 ^ 52 ≤ bits) ∧ bits ≤ 2047 * 2 ^ 52 := by
  refine ⟨_, fun negative => rfl, fun h => ?_, fun h => ?_, ?_⟩
  · rw [h]; rfl
  · have hcount : bitCount num = num.log2 + 1 := if_neg (by simpa using Nat.ne_of_gt h)
    have hone : bitCount 1 = 1 := by decide
    rw [if_neg (by simpa using Nat.ne_of_gt h)]
    extract_lets guess wide first last exact q b
    have hguess : guess = (num.log2 : Int) - 53 := by
      unfold guess
      rw [hcount, hone]
      omega
    have hfirst : guess ≤ first ∧ first ≤ guess + 1 := by
      unfold first
      split <;> omega
    have hlast : last = first := if_neg (by omega)
    have hq : 2 ^ 52 ≤ q :=
      Nat.le_trans (two_pow_le_scaleByTwo h (by omega)) (div_le_roundDiv _ _)
    have htwo : twoTo 52 = 2 ^ 52 := rfl
    have hb : 2 ^ 52 ≤ b := by
      unfold b
      rw [htwo]
      have hplace : 1 ≤ (last + 1075).toNat := by omega
      omega
    rw [htwo, if_neg (Nat.not_lt.mpr hq)]
    split
    · decide
    · exact hb
  · split
    · exact Nat.zero_le _
    · extract_lets guess wide first last exact q b
      have htwo : twoTo 52 = 2 ^ 52 := rfl
      rw [htwo]
      split
      · omega
      · split <;> omega

theorem toNat_packComponents (s : Sign) (e : BitVec 11) (m : BitVec 52) :
    (packComponents Format.binary64 s e m).toNat
      = s.toBitVec.toNat * 2 ^ 63 + e.toNat * 2 ^ 52 + m.toNat := by
  have happend : (packComponents Format.binary64 s e m).toNat
      = (s.toBitVec.toNat <<< 11 ||| e.toNat) <<< 52 ||| m.toNat := by
    unfold packComponents
    rw [BitVec.toNat_append, BitVec.toNat_append]
  rw [happend, ← Nat.shiftLeft_add_eq_or_of_lt m.isLt, ← Nat.shiftLeft_add_eq_or_of_lt e.isLt,
    Nat.shiftLeft_eq, Nat.shiftLeft_eq]
  omega

/-- The bits of a double with a leading one, or of infinity, are read as what they are. -/
theorem value_bits (negative : Bool) {bits : Nat} (hlow : 2 ^ 52 ≤ bits)
    (hhigh : bits ≤ 2047 * 2 ^ 52) {x : Float}
    (hx : x = Float.ofBits (UInt64.ofNat ((if negative then twoTo 63 else 0) + bits))) :
    (bits = 2047 * 2 ^ 52 ∧ ∃ s, value x = .infinity s)
      ∨ (bits ≠ 2047 * 2 ^ 52
        ∧ ∃ m e h, value x = .finite (if negative then .negative else .positive) m e h) := by
  generalize hs : (if negative then Sign.negative else .positive) = s
  have hcomponents : (UInt64.ofNat ((if negative then twoTo 63 else 0) + bits)).toBitVec
      = packComponents Format.binary64 s (BitVec.ofNat 11 (bits / 2 ^ 52))
        (BitVec.ofNat 52 (bits % 2 ^ 52)) := by
    apply BitVec.eq_of_toNat_eq
    have hsign : (if negative then twoTo 63 else 0) = s.toBitVec.toNat * 2 ^ 63 := by
      subst hs
      cases negative <;> rfl
    have hbit : s.toBitVec.toNat < 2 := s.toBitVec.isLt
    rw [toNat_packComponents, BitVec.toNat_ofNat, BitVec.toNat_ofNat, hsign,
      UInt64.toNat_toBitVec, UInt64.toNat_ofNat']
    omega
  have hvalue : value x = kept (unpack Format.binary64 (packComponents Format.binary64 s
      (BitVec.ofNat 11 (bits / 2 ^ 52)) (BitVec.ofNat 52 (bits % 2 ^ 52)))) := by
    rw [← hcomponents, hx, value_ofBits]
  by_cases hinfinite : bits = 2047 * 2 ^ 52
  · refine .inl ⟨hinfinite, s, ?_⟩
    have hexp : bits / 2 ^ 52 = 2047 := by omega
    have hfrac : bits % 2 ^ 52 = 0 := by omega
    have hones : unpack Format.binary64 (packComponents Format.binary64 s
        (BitVec.ofNat 11 2047) (BitVec.ofNat 52 0)) = .infinity s := kept_infinity s
    rw [hvalue, hexp, hfrac, hones, kept_infinity]
  · refine .inr ⟨hinfinite, ?_⟩
    have hval : (BitVec.ofNat 11 (bits / 2 ^ 52)).toNat = bits / 2 ^ 52 := by
      rw [BitVec.toNat_ofNat, Nat.mod_eq_of_lt (by omega)]
    have hzero : BitVec.ofNat 11 (bits / 2 ^ 52) ≠ 0#11 := fun heq => by
      have := hval.symm.trans (congrArg BitVec.toNat heq)
      have : bits / 2 ^ 52 = 0 := this
      omega
    have hones : BitVec.ofNat 11 (bits / 2 ^ 52) ≠ -1#11 := fun heq => by
      have := hval.symm.trans (congrArg BitVec.toNat heq)
      have : bits / 2 ^ 52 = 2047 := this
      omega
    have hfrac := (BitVec.ofNat 52 (bits % 2 ^ 52)).isLt
    rw [unpack_normal s _ hzero hones,
      kept_normal s _ (by omega) (by omega) (by omega) (by omega)] at hvalue
    exact ⟨_, _, _, hvalue⟩

/-- Whether the double of a whole number is infinite does not hang on the sign. -/
theorem isInf_ofRatio (negative : Bool) (num : Nat) :
    (ofRatio negative num 1).isInf = (ofRatio false num 1).isInf := by
  obtain ⟨bits, hof, hnone, hlow, hhigh⟩ := exists_bits num
  rcases Nat.eq_zero_or_pos num with rfl | hpos
  · cases negative <;> rfl
  · rw [isInf_eq, isInf_eq]
    rcases value_bits negative (hlow hpos) hhigh (hof negative) with
        ⟨hbits, s, hs⟩ | ⟨hbits, m, e, h, hfinite⟩
      <;> rcases value_bits false (hlow hpos) hhigh (hof false) with
        ⟨hbits', t, ht⟩ | ⟨hbits', m', e', h', hfinite'⟩
    · rw [hs, ht]
      rfl
    · exact absurd hbits hbits'
    · exact absurd hbits' hbits
    · rw [hfinite, hfinite']
      rfl

theorem ofInt?_eq_some_iff {n : Int} {x : Float} : ofInt? n = some x ↔
    (ofRatio false n.natAbs 1).isInf = false ∧ x = ofRatio (decide (n < 0)) n.natAbs 1 := by
  unfold ofInt?
  dsimp only
  rw [isInf_ofRatio]
  cases (ofRatio false n.natAbs 1).isInf with
  | true => simp
  | false => simp [eq_comm]

/-- A whole number that has a double has a finite one, of its own sign. -/
theorem value_of_ofInt? {n : Int} {x : Float} (h : ofInt? n = some x) :
    (n = 0 ∧ value x = .zero .positive)
      ∨ (n ≠ 0 ∧ ∃ m e hm,
        value x = .finite (if n < 0 then .negative else .positive) m e hm) := by
  obtain ⟨hfinite, rfl⟩ := ofInt?_eq_some_iff.mp h
  obtain ⟨bits, hof, hnone, hlow, hhigh⟩ := exists_bits n.natAbs
  by_cases hn : n = 0
  · subst hn
    exact .inl ⟨rfl, rfl⟩
  · refine .inr ⟨hn, ?_⟩
    rcases value_bits (decide (n < 0)) (hlow (by omega)) hhigh (hof _) with
      ⟨-, s, hinfinite⟩ | ⟨-, m, e, hm, hvalue⟩
    · rw [← isInf_ofRatio (decide (n < 0)), isInf_eq, hinfinite] at hfinite
      cases hfinite
    · exact ⟨m, e, hm, by simpa using hvalue⟩

/-- The distance from zero of a number has a double if the number has. -/
theorem exists_ofInt?_natAbs {n : Int} {x : Float} (h : ofInt? n = some x) :
    ∃ y, ofInt? n.natAbs = some y :=
  ⟨_, ofInt?_eq_some_iff.mpr ⟨(ofInt?_eq_some_iff.mp h).1, rfl⟩⟩

end Whole

end BuildingAlerts.Doubles
