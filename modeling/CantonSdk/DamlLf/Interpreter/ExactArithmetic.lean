import CantonSdk.DamlLf.Interpreter.ExactDecimal
import Mathlib.Algebra.Order.Field.Power

/-!
# What exact decimals denote

Each operation on significands and scales computes on the rationals they denote: sums, differences and products
exactly, quotients and changes of scale rounded half to even, with an error where 38 digits do not suffice.
-/

set_option linter.all false

namespace CantonSdk.DamlLf.Interpreter

open CantonSdk.Base

def ExactDecimal.toRat (value : ExactDecimal) : ℚ := value.significand / 10 ^ value.scale

/-- There is no zero at the end of the fraction. -/
def ExactDecimal.IsNormal (value : ExactDecimal) : Prop := value.scale = 0 ∨ value.significand.tmod 10 ≠ 0

theorem ten_pow_pos (n : Nat) : (0 : ℚ) < 10 ^ n := pow_pos (by norm_num) n

theorem cast_pow10 (n : Nat) : ((pow10 n : Int) : ℚ) = 10 ^ n := by
  rw [pow10, Int.cast_pow, Int.cast_ofNat]

theorem pow10_pos (n : Nat) : 0 < pow10 n := pow_pos (by decide) n

/-! ## Normal forms -/

theorem toRat_normalizeDigits (significand : Int) (scale : Nat) :
    (normalizeDigits significand scale).toRat = significand / 10 ^ scale := by
  induction scale generalizing significand with
  | zero => rfl
  | succ scale ih =>
      rw [normalizeDigits]
      split
      · rename_i hzero
        have hsplit : significand = 10 * significand.tdiv 10 := by
          have hdivision := Int.mul_tdiv_add_tmod significand 10
          omega
        have hcast : (significand : ℚ) = 10 * (significand.tdiv 10 : Int) := by exact_mod_cast hsplit
        rw [ih, hcast, pow_succ', mul_div_mul_left _ _ (by norm_num)]
      · rfl

theorem toRat_normalize (value : ExactDecimal) : (normalizeExactDecimal value).toRat = value.toRat :=
  toRat_normalizeDigits _ _

theorem isNormal_normalizeDigits (significand : Int) (scale : Nat) : (normalizeDigits significand scale).IsNormal := by
  induction scale generalizing significand with
  | zero => exact Or.inl rfl
  | succ scale ih =>
      rw [normalizeDigits]
      split
      · exact ih _
      · exact Or.inr ‹_›

theorem isNormal_normalize (value : ExactDecimal) : (normalizeExactDecimal value).IsNormal :=
  isNormal_normalizeDigits _ _

theorem normalize_of_isNormal {value : ExactDecimal} (h : value.IsNormal) : normalizeExactDecimal value = value := by
  obtain ⟨significand, scale⟩ := value
  rw [normalizeExactDecimal]
  cases scale with
  | zero => rfl
  | succ scale =>
      have hlast : significand.tmod 10 ≠ 0 := h.resolve_left (Nat.succ_ne_zero scale)
      rw [normalizeDigits, if_neg hlast]

/-- A normal form has no more digits behind the point than its number needs. -/
theorem ExactDecimal.IsNormal.scale_le {value : ExactDecimal} (h : value.IsNormal) {scale : Nat} {scaled : Int}
    (hscaled : value.toRat * 10 ^ scale = scaled) : value.scale ≤ scale := by
  by_contra hlarge
  obtain ⟨extra, hextra⟩ : ∃ extra, value.scale = scale + (extra + 1) := ⟨value.scale - scale - 1, by omega⟩
  have hpow := (ten_pow_pos scale).ne'
  have hexact : (value.significand : ℚ) = ((scaled * 10 ^ (extra + 1) : Int) : ℚ) := by
    rw [ExactDecimal.toRat, hextra, pow_add, div_mul_eq_mul_div, div_eq_iff (mul_pos (ten_pow_pos _) (ten_pow_pos _)).ne'] at hscaled
    push_cast
    have hcancel : (value.significand : ℚ) * 10 ^ scale = scaled * 10 ^ (extra + 1) * 10 ^ scale := by
      rw [hscaled]
      ring
    exact mul_right_cancel₀ hpow hcancel
  have hsignificand : value.significand = scaled * 10 ^ (extra + 1) := by exact_mod_cast hexact
  rcases h with hzero | hlast
  · omega
  · refine hlast (Int.tmod_eq_zero_of_dvd ?_)
    rw [hsignificand, pow_succ, ← mul_assoc]
    exact dvd_mul_left _ _

/-! ## Sums, differences and products -/

/-- A significand brought to a larger scale. -/
theorem toRat_scaled (value : ExactDecimal) {scale : Nat} (h : value.scale ≤ scale) :
    ((value.significand * pow10 (scale - value.scale) : Int) : ℚ) = value.toRat * 10 ^ scale := by
  have hsplit : (10 : ℚ) ^ scale = 10 ^ value.scale * 10 ^ (scale - value.scale) := by
    rw [← pow_add, Nat.add_sub_cancel' h]
  have hpow := (ten_pow_pos value.scale).ne'
  rw [Int.cast_mul, cast_pow10, ExactDecimal.toRat, hsplit, ← mul_assoc, div_mul_cancel₀ _ hpow]

theorem toRat_add (left right : ExactDecimal) :
    (addExactDecimals left right).toRat = left.toRat + right.toRat := by
  have hleft := toRat_scaled left (le_max_left left.scale right.scale)
  have hright := toRat_scaled right (le_max_right left.scale right.scale)
  rw [addExactDecimals]
  rw [toRat_normalize, ExactDecimal.toRat, Int.cast_add, hleft, hright, ← add_mul,
    mul_div_cancel_right₀ _ (ten_pow_pos _).ne']

theorem toRat_subtract (left right : ExactDecimal) :
    (subtractExactDecimals left right).toRat = left.toRat - right.toRat := by
  have hleft := toRat_scaled left (le_max_left left.scale right.scale)
  have hright := toRat_scaled right (le_max_right left.scale right.scale)
  rw [subtractExactDecimals]
  rw [toRat_normalize, ExactDecimal.toRat, Int.cast_sub, hleft, hright, ← sub_mul,
    mul_div_cancel_right₀ _ (ten_pow_pos _).ne']

theorem toRat_multiply (left right : ExactDecimal) :
    (multiplyExactDecimals left right).toRat = left.toRat * right.toRat := by
  rw [multiplyExactDecimals, toRat_normalize, ExactDecimal.toRat, ExactDecimal.toRat, ExactDecimal.toRat,
    Int.cast_mul, pow_add, mul_div_mul_comm]

/-- Decimals are compared as the numbers they denote. -/
theorem compareExactDecimals_eq (left right : ExactDecimal) :
    compareExactDecimals left right
      = if left.toRat < right.toRat then .lt else if right.toRat < left.toRat then .gt else .eq := by
  have hleft := toRat_scaled left (le_max_left left.scale right.scale)
  have hright := toRat_scaled right (le_max_right left.scale right.scale)
  have hpow := ten_pow_pos (max left.scale right.scale)
  have hiff : ∀ first second : Int, ∀ value other : ℚ, (first : ℚ) = value * 10 ^ max left.scale right.scale →
      (second : ℚ) = other * 10 ^ max left.scale right.scale → (first < second ↔ value < other) := by
    intro first second value other hfirst hsecond
    rw [← Int.cast_lt (R := ℚ), hfirst, hsecond, mul_lt_mul_iff_left₀ hpow]
  rw [compareExactDecimals]
  simp only [gt_iff_lt, hiff _ _ _ _ hleft hright, hiff _ _ _ _ hright hleft]

theorem truncateExactDecimalToInt64_eq (value : ExactDecimal) :
    truncateExactDecimalToInt64 value = value.significand.tdiv (pow10 value.scale) := by
  rw [truncateExactDecimalToInt64]
  split
  · rename_i hzero
    rw [hzero, pow10, pow_zero, Int.tdiv_one]
  · rfl

/-! ## Rounding -/

/-- A number at a scale: so many digits behind the point, or so many zeros before it. -/
def roundAt (scale : Int) (exact : ℚ) : ℚ := halfEven (exact * 10 ^ scale) / 10 ^ scale

/-- The number has 38 digits at most when it is written at the scale. -/
def FitsNumeric (scale : Int) (exact : ℚ) : Prop := |exact| * 10 ^ max scale 0 < 10 ^ 38

instance (scale : Int) (exact : ℚ) : Decidable (FitsNumeric scale exact) :=
  inferInstanceAs (Decidable (|exact| * 10 ^ max scale 0 < 10 ^ 38))

theorem ten_zpow_pos (n : Int) : (0 : ℚ) < 10 ^ n := zpow_pos (by norm_num) n

theorem zpow_max_zero (scale : Int) : (10 : ℚ) ^ max scale 0 = 10 ^ (max scale 0).toNat := by
  rw [← zpow_natCast, Int.toNat_of_nonneg (le_max_right _ _)]

/-- The bound is checked on the number at the scale, where that is an integer. -/
theorem assertNumericBoundsOrThrow_eq {value : ExactDecimal} {targetScale scaled : Int}
    (hscaled : value.toRat * 10 ^ max targetScale 0 = scaled) :
    assertNumericBoundsOrThrow value targetScale
      = if FitsNumeric targetScale value.toRat then .ok (normalizeExactDecimal value) else .error overflow := by
  have hnormal : (normalizeExactDecimal value).toRat * 10 ^ (max targetScale 0).toNat = scaled := by
    rw [toRat_normalize, ← zpow_max_zero, hscaled]
  have hscale := (isNormal_normalize value).scale_le hnormal
  have hdigits : (if targetScale ≥ 0 ∧ targetScale ≥ (normalizeExactDecimal value).scale then
      (normalizeExactDecimal value).significand * pow10 (targetScale.toNat - (normalizeExactDecimal value).scale)
      else (normalizeExactDecimal value).significand) = scaled := by
    split
    · rename_i hlarge
      have hmax : (max targetScale 0).toNat = targetScale.toNat := by omega
      rw [hmax] at hnormal hscale
      have hcast := toRat_scaled _ hscale
      rw [hnormal] at hcast
      exact_mod_cast hcast
    · rename_i hsmall
      have hmax : (max targetScale 0).toNat = 0 := by omega
      rw [hmax] at hnormal hscale
      rw [ExactDecimal.toRat, Nat.le_zero.mp hscale, pow_zero, div_one, mul_one] at hnormal
      exact_mod_cast hnormal
  have hfits : FitsNumeric targetScale value.toRat ↔ scaled.natAbs < 10 ^ 38 := by
    have hpower := ten_zpow_pos (max targetScale 0)
    rw [FitsNumeric, ← abs_of_pos hpower, ← abs_mul, hscaled, ← Nat.cast_lt (α := ℚ), Nat.cast_natAbs]
    norm_num
  rw [assertNumericBoundsOrThrow]
  rw [hdigits]
  by_cases hlarge : scaled.natAbs < 10 ^ 38
  · rw [if_pos (hfits.mpr hlarge), if_neg]
    rw [not_lt, Nat.length_toDigits_le_iff (by decide) (by decide)]
    exact hlarge
  · rw [if_neg (fun h => hlarge (hfits.mp h)), if_pos]
    by_contra hshort
    rw [not_lt, Nat.length_toDigits_le_iff (by decide) (by decide)] at hshort
    exact hlarge hshort

theorem toRat_createExactDecimal (significand scale : Int) :
    (createExactDecimalFromScaledSignificand significand scale).toRat = significand / 10 ^ scale := by
  rw [createExactDecimalFromScaledSignificand]
  split
  · rename_i hscale
    rw [toRat_normalize, ExactDecimal.toRat, ← zpow_natCast, Int.toNat_of_nonneg hscale]
  · rename_i hscale
    rw [toRat_normalize, ExactDecimal.toRat, Int.cast_mul, cast_pow10, pow_zero, div_one, ← zpow_natCast,
      Int.toNat_of_nonneg (by omega), zpow_neg, div_eq_mul_inv]

/-- A number of so many digits is an integer at its scale. -/
theorem div_mul_zpow_max (significand scale : Int) :
    ∃ scaled : Int, (significand : ℚ) / 10 ^ scale * 10 ^ max scale 0 = scaled := by
  rcases le_total scale 0 with hscale | hscale
  · refine ⟨significand * 10 ^ (-scale).toNat, ?_⟩
    rw [max_eq_right hscale, zpow_zero, mul_one, div_eq_mul_inv, ← zpow_neg]
    push_cast
    rw [← zpow_natCast, Int.toNat_of_nonneg (by omega)]
  · refine ⟨significand, ?_⟩
    rw [max_eq_left hscale, div_mul_cancel₀ _ (ten_zpow_pos scale).ne']

theorem assertNumericBounds_created (significand scale : Int) :
    assertNumericBoundsOrThrow (createExactDecimalFromScaledSignificand significand scale) scale
      = if FitsNumeric scale (significand / 10 ^ scale) then
          .ok (normalizeExactDecimal (createExactDecimalFromScaledSignificand significand scale))
        else .error overflow := by
  obtain ⟨scaled, hscaled⟩ := div_mul_zpow_max significand scale
  rw [← toRat_createExactDecimal] at hscaled
  rw [assertNumericBoundsOrThrow_eq hscaled, toRat_createExactDecimal]

/-- A quotient that is not zero has the sign that the remainder and the divisor give it. -/
theorem tdiv_pos_iff {dividend divisor : Int} (hremainder : dividend.tmod divisor ≠ 0)
    (hquotient : dividend.tdiv divisor ≠ 0) :
    0 < dividend.tdiv divisor ↔ (dividend.tmod divisor < 0 ↔ divisor < 0) := by
  rcases Int.le_total 0 dividend with hdividend | hdividend
  · have hmod := Int.tmod_nonneg divisor hdividend
    rcases Int.le_total 0 divisor with hdivisor | hdivisor
    · have hdiv := Int.tdiv_nonneg hdividend hdivisor
      omega
    · have hdiv := Int.tdiv_nonpos_of_nonneg_of_nonpos hdividend hdivisor
      have hzero : divisor ≠ 0 := by
        rintro rfl
        exact hquotient (Int.tdiv_zero dividend)
      omega
  · have hmod : dividend.tmod divisor ≤ 0 := by
      have hneg := Int.tmod_nonneg divisor (Int.neg_nonneg_of_nonpos hdividend)
      rw [Int.neg_tmod] at hneg
      omega
    have hzero : divisor ≠ 0 := by
      rintro rfl
      exact hquotient (Int.tdiv_zero dividend)
    rcases Int.le_total 0 divisor with hdivisor | hdivisor
    · have hdiv := Int.tdiv_nonneg (Int.neg_nonneg_of_nonpos hdividend) hdivisor
      rw [Int.neg_tdiv] at hdiv
      omega
    · have hdiv := Int.tdiv_nonneg (Int.neg_nonneg_of_nonpos hdividend) (Int.neg_nonneg_of_nonpos hdivisor)
      rw [Int.neg_tdiv, Int.tdiv_neg, Int.neg_neg] at hdiv
      omega

/-- The quotient of a division is corrected by one away from zero. -/
theorem isHalfEven_roundHalfEvenQuotient {dividend divisor : Int} (hdivisor : divisor ≠ 0)
    (hremainder : dividend.tmod divisor ≠ 0) :
    IsHalfEven ((dividend : ℚ) / divisor)
      (roundHalfEvenQuotient (dividend.tdiv divisor) (dividend.tmod divisor) divisor) := by
  have hsign := tdiv_pos_iff hremainder
  have hrounded := @isHalfEven_of_truncated dividend divisor
    (if dividend.tmod divisor < 0 ↔ divisor < 0 then 1 else -1) hdivisor rfl
  convert hrounded using 1
  generalize dividend.tdiv divisor = quotient at *
  generalize dividend.tmod divisor = remainder at *
  have hparity : quotient.tmod 2 = 0 ↔ quotient % 2 = 0 := by
    rw [← Int.dvd_iff_tmod_eq_zero, Int.dvd_iff_emod_eq_zero]
  have hremainders : (if remainder < 0 then -remainder else remainder) = remainder.natAbs := by omega
  have hdivisors : (if divisor < 0 then -divisor else divisor) = divisor.natAbs := by omega
  rw [roundHalfEvenQuotient, hremainders, hdivisors]
  simp only [ne_eq, decide_eq_decide, hparity]
  split_ifs <;> omega

/-! ## Results at a scale -/

/-- The outcome is the number, or an overflow where the number does not fit. -/
def IsBounded (scale : Int) (number : ℚ) (outcome : Except HostError ExactDecimal) : Prop :=
  (FitsNumeric scale number → ∃ value, outcome = .ok value ∧ value.toRat = number) ∧
    (¬ FitsNumeric scale number → outcome = .error overflow)

theorem isBounded_assert {value : ExactDecimal} {scale scaled : Int} {number : ℚ} (hnumber : value.toRat = number)
    (hscaled : number * 10 ^ max scale 0 = scaled) :
    IsBounded scale number (assertNumericBoundsOrThrow value scale) := by
  subst hnumber
  rw [assertNumericBoundsOrThrow_eq hscaled]
  constructor
  · intro hfits
    exact ⟨_, if_pos hfits, toRat_normalize value⟩
  · intro hfits
    exact if_neg hfits

theorem isBounded_created {rounded scale : Int} {number : ℚ} (hnumber : number = rounded / 10 ^ scale) :
    IsBounded scale number
      (assertNumericBoundsOrThrow (createExactDecimalFromScaledSignificand rounded scale) scale) := by
  obtain ⟨scaled, hscaled⟩ := div_mul_zpow_max rounded scale
  subst hnumber
  exact isBounded_assert (toRat_createExactDecimal rounded scale) hscaled

/-- A number that is an integer at a scale is rounded to itself there. -/
theorem roundAt_of_exact {scale scaled : Int} {exact : ℚ} (h : exact * 10 ^ scale = scaled) :
    roundAt scale exact = exact := by
  rw [roundAt, h, halfEven_intCast, ← h, mul_div_cancel_right₀ _ (ten_zpow_pos scale).ne']

section Quantize

variable (value : ExactDecimal) {targetScale : Int}

/-- A decimal at a scale that is not smaller than its own. -/
theorem toRat_mul_of_le (h : targetScale ≥ value.scale) :
    value.toRat * 10 ^ targetScale = (value.significand * pow10 (targetScale.toNat - value.scale) : Int) := by
  rw [toRat_scaled value (by omega), ← zpow_natCast, Int.toNat_of_nonneg (by omega)]

/-- A decimal at a smaller scale is the quotient that is rounded. -/
theorem toRat_mul_of_lt (h : targetScale < value.scale) :
    value.toRat * 10 ^ targetScale = (value.significand : ℚ) / pow10 (value.scale - targetScale).toNat := by
  have hpow : (10 : ℚ) ^ value.scale = 10 ^ (value.scale - targetScale).toNat * 10 ^ targetScale := by
    rw [← zpow_natCast, ← zpow_natCast, Int.toNat_of_nonneg (by omega), ← zpow_add₀ (by norm_num)]
    congr 1
    omega
  rw [ExactDecimal.toRat, cast_pow10, hpow, div_mul_eq_mul_div, mul_div_mul_right _ _ (ten_zpow_pos targetScale).ne']

theorem quantize_of_le (h : targetScale ≥ value.scale) (roundingMode : RoundingMode) :
    IsBounded targetScale value.toRat (quantizeExactDecimal value targetScale roundingMode) := by
  have hmax : max targetScale 0 = targetScale := by omega
  have hscaled := toRat_mul_of_le value h
  have hnumber : (normalizeExactDecimal
      ⟨value.significand * pow10 (targetScale.toNat - value.scale), targetScale.toNat⟩).toRat = value.toRat := by
    rw [toRat_normalize, ExactDecimal.toRat, ← hscaled, ← zpow_natCast, Int.toNat_of_nonneg (by omega),
      mul_div_cancel_right₀ _ (ten_zpow_pos targetScale).ne']
  rw [quantizeExactDecimal, if_pos h]
  exact isBounded_assert hnumber (by rw [hmax, hscaled])

/-- A quotient without a remainder. -/
theorem exact_of_tmod {dividend divisor : Int} (hdivisor : divisor ≠ 0) (hremainder : dividend.tmod divisor = 0) :
    (dividend : ℚ) / divisor = (dividend.tdiv divisor : Int) := by
  have hsplit : dividend = dividend.tdiv divisor * divisor := (Int.tdiv_mul_cancel (Int.dvd_of_tmod_eq_zero hremainder)).symm
  rw [div_eq_iff (Int.cast_ne_zero.mpr hdivisor)]
  exact_mod_cast hsplit

/-- A quotient with a remainder is no integer. -/
theorem not_exact_of_tmod {dividend divisor scaled : Int} (hdivisor : divisor ≠ 0)
    (hremainder : dividend.tmod divisor ≠ 0) : (dividend : ℚ) / divisor ≠ scaled := by
  intro hexact
  rw [div_eq_iff (Int.cast_ne_zero.mpr hdivisor)] at hexact
  have hproduct : dividend = scaled * divisor := by exact_mod_cast hexact
  rw [hproduct] at hremainder
  exact hremainder (Int.mul_tmod_left scaled divisor)

theorem quantize_halfEven (targetScale : Int) :
    IsBounded targetScale (roundAt targetScale value.toRat) (quantizeExactDecimal value targetScale .halfEven) := by
  by_cases h : targetScale ≥ value.scale
  · rw [roundAt_of_exact (toRat_mul_of_le value h)]
    exact quantize_of_le value h .halfEven
  · have hquotient := toRat_mul_of_lt value (not_le.mp h)
    have hdivisor := (pow10_pos (value.scale - targetScale).toNat).ne'
    rw [quantizeExactDecimal, if_neg h]
    dsimp only
    split
    · rename_i hremainder
      refine isBounded_created ?_
      rw [roundAt, hquotient, exact_of_tmod hdivisor hremainder, halfEven_intCast]
    · rename_i hremainder
      rw [if_neg (by decide)]
      refine isBounded_created ?_
      rw [roundAt, hquotient, (isHalfEven_roundHalfEvenQuotient hdivisor hremainder).eq]

def inexact : HostError := .validation "daml lf builtin CAST_NUMERIC requires an exact representation"

theorem quantize_unnecessary (targetScale : Int) :
    (∀ scaled : Int, value.toRat * 10 ^ targetScale = scaled →
      IsBounded targetScale value.toRat (quantizeExactDecimal value targetScale .unnecessary)) ∧
    ((∀ scaled : Int, value.toRat * 10 ^ targetScale ≠ scaled) →
      quantizeExactDecimal value targetScale .unnecessary = .error inexact) := by
  by_cases h : targetScale ≥ value.scale
  · refine ⟨fun _ _ => quantize_of_le value h .unnecessary, ?_⟩
    intro hinexact
    exact absurd (toRat_mul_of_le value h) (hinexact _)
  · have hquotient := toRat_mul_of_lt value (not_le.mp h)
    have hdivisor := (pow10_pos (value.scale - targetScale).toNat).ne'
    rw [quantizeExactDecimal, if_neg h]
    dsimp only
    split
    · rename_i hremainder
      have hexact := hquotient.trans (exact_of_tmod hdivisor hremainder)
      refine ⟨fun _ _ => ?_, fun hinexact => absurd hexact (hinexact _)⟩
      refine isBounded_created ?_
      rw [← hexact, mul_div_cancel_right₀ _ (ten_zpow_pos targetScale).ne']
    · rename_i hremainder
      rw [if_pos rfl]
      refine ⟨?_, fun _ => rfl⟩
      intro scaled hexact
      exact absurd (hquotient.symm.trans hexact) (not_exact_of_tmod hdivisor hremainder)

end Quantize

def divisionByZero : HostError := .validation "daml lf builtin DIV_NUMERIC cannot divide by zero"

theorem toRat_eq_zero (value : ExactDecimal) : value.toRat = 0 ↔ value.significand = 0 := by
  rw [ExactDecimal.toRat, div_eq_zero_iff, Int.cast_eq_zero, or_iff_left (ten_pow_pos value.scale).ne']

/-- The quotient that is rounded is the quotient of the numbers at the scale. -/
theorem quotient_eq (left right : ExactDecimal) (targetScale : Nat) :
    (((if (targetScale + right.scale - left.scale : Int) ≥ 0 then
        left.significand * pow10 (max (targetScale + right.scale - left.scale : Int) 0).toNat
      else left.significand) : Int) : ℚ)
      / ((if (targetScale + right.scale - left.scale : Int) ≥ 0 then right.significand
        else right.significand * pow10 (-(targetScale + right.scale - left.scale : Int)).toNat : Int) : ℚ)
      = left.toRat / right.toRat * 10 ^ (targetScale : Int) := by
  have hleft := (ten_pow_pos left.scale).ne'
  have hright := (ten_pow_pos right.scale).ne'
  have hexact : left.toRat / right.toRat * 10 ^ (targetScale : Int)
      = left.significand * 10 ^ (targetScale + right.scale) / (right.significand * 10 ^ left.scale) := by
    rw [ExactDecimal.toRat, ExactDecimal.toRat, zpow_natCast, pow_add, div_div_div_eq]
    ring
  rw [hexact]
  split
  · rename_i hexponent
    have hpow : (10 : ℚ) ^ (targetScale + right.scale)
        = 10 ^ (max (targetScale + right.scale - left.scale : Int) 0).toNat * 10 ^ left.scale := by
      rw [← pow_add]
      congr 1
      omega
    rw [Int.cast_mul, cast_pow10, hpow, ← mul_assoc, mul_div_mul_right _ _ hleft]
  · rename_i hexponent
    have hpow : (10 : ℚ) ^ left.scale
        = 10 ^ (-(targetScale + right.scale - left.scale : Int)).toNat * 10 ^ (targetScale + right.scale) := by
      rw [← pow_add]
      congr 1
      omega
    rw [Int.cast_mul, cast_pow10, hpow, ← mul_assoc, mul_div_mul_right _ _ (ten_pow_pos _).ne']

theorem divide_eq_bounded (left right : ExactDecimal) (targetScale : Nat) (hright : right.toRat ≠ 0) :
    IsBounded targetScale (roundAt targetScale (left.toRat / right.toRat))
      (divideExactDecimals left right targetScale) := by
  have hsignificand : right.significand ≠ 0 := fun hzero => hright ((toRat_eq_zero right).mpr hzero)
  have hquotient := quotient_eq left right targetScale
  have hdivisor : (if (targetScale + right.scale - left.scale : Int) ≥ 0 then right.significand
      else right.significand * pow10 (-(targetScale + right.scale - left.scale : Int)).toNat) ≠ 0 := by
    split
    · exact hsignificand
    · exact mul_ne_zero hsignificand (pow10_pos _).ne'
  rw [divideExactDecimals, if_neg hsignificand]
  dsimp only
  generalize (if (targetScale + right.scale - left.scale : Int) ≥ 0 then
    left.significand * pow10 (max (targetScale + right.scale - left.scale : Int) 0).toNat
    else left.significand) = dividend at *
  generalize (if (targetScale + right.scale - left.scale : Int) ≥ 0 then right.significand
    else right.significand * pow10 (-(targetScale + right.scale - left.scale : Int)).toNat) = divisor at *
  rw [quantizeQuotientToScale]
  split
  · rename_i hremainder
    refine isBounded_created ?_
    rw [roundAt, ← hquotient, exact_of_tmod hdivisor hremainder, halfEven_intCast]
  · rename_i hremainder
    rw [if_neg (by decide)]
    refine isBounded_created ?_
    rw [roundAt, ← hquotient, (isHalfEven_roundHalfEvenQuotient hdivisor hremainder).eq]

end CantonSdk.DamlLf.Interpreter
