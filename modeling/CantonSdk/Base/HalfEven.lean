import Mathlib.Algebra.Order.Floor.Div
import Mathlib.Algebra.Order.Floor.Ring
import Mathlib.Data.Rat.Floor
import Mathlib.Tactic.FieldSimp
import Mathlib.Tactic.Linarith
import Mathlib.Tactic.Ring

/-!
# Rounding to the nearest integer, ties to even

What it means that an integer is the rounding of a rational, that there is exactly one, and how it is found from
the quotient and the remainder of a division that truncates.
-/

set_option linter.all false

namespace CantonSdk.Base

/-- The integer is nearest to the value, and even if another one is as near. -/
def IsHalfEven (value : ℚ) (rounded : ℤ) : Prop :=
  2 * |value - rounded| ≤ 1 ∧ (2 * |value - rounded| = 1 → rounded % 2 = 0)

/-- The integer nearest to a rational, the even one of two. -/
def halfEven (value : ℚ) : ℤ :=
  let below := ⌊value⌋
  if 2 * (value - below) < 1 ∨ 2 * (value - below) = 1 ∧ below % 2 = 0 then below else below + 1

theorem isHalfEven_halfEven (value : ℚ) : IsHalfEven value (halfEven value) := by
  have hfloor := Int.floor_le value
  have hceil := Int.lt_floor_add_one value
  unfold halfEven IsHalfEven
  dsimp only
  split
  · rename_i hbelow
    rw [abs_of_nonneg (by linarith)]
    rcases hbelow with hlt | ⟨heq, heven⟩
    · exact ⟨hlt.le, fun htie => absurd htie hlt.ne⟩
    · exact ⟨heq.le, fun _ => heven⟩
  · rename_i habove
    rw [not_or, not_lt, not_and] at habove
    rw [Int.cast_add, Int.cast_one, abs_of_neg (by linarith)]
    refine ⟨by linarith [habove.1], ?_⟩
    intro htie
    have hodd := habove.2 (by linarith)
    omega

/-- Two roundings of one value are one apart at most, and then both are even. -/
theorem IsHalfEven.unique {value : ℚ} {first second : ℤ} (hfirst : IsHalfEven value first)
    (hsecond : IsHalfEven value second) : first = second := by
  obtain ⟨hfirst, hfirstTie⟩ := hfirst
  obtain ⟨hsecond, hsecondTie⟩ := hsecond
  obtain ⟨hfirstLow, hfirstHigh⟩ := abs_le.mp (show |value - first| ≤ 1 / 2 by linarith)
  obtain ⟨hsecondLow, hsecondHigh⟩ := abs_le.mp (show |value - second| ≤ 1 / 2 by linarith)
  have hapart : first ≤ second + 1 ∧ second ≤ first + 1 := by
    constructor
    · have hle : (first : ℚ) ≤ second + 1 := by linarith
      exact_mod_cast hle
    · have hle : (second : ℚ) ≤ first + 1 := by linarith
      exact_mod_cast hle
  rcases lt_trichotomy first second with hlt | heq | hlt
  · obtain rfl : second = first + 1 := by omega
    push_cast at hsecondLow hsecondHigh hsecondTie
    have hfirstEven := hfirstTie (by rw [abs_of_nonneg (by linarith)]; linarith)
    have hsecondEven := hsecondTie (by rw [abs_of_nonpos (by linarith)]; linarith)
    omega
  · exact heq
  · obtain rfl : first = second + 1 := by omega
    push_cast at hfirstLow hfirstHigh hfirstTie
    have hsecondEven := hsecondTie (by rw [abs_of_nonneg (by linarith)]; linarith)
    have hfirstEven := hfirstTie (by rw [abs_of_nonpos (by linarith)]; linarith)
    omega

theorem IsHalfEven.eq {value : ℚ} {rounded : ℤ} (h : IsHalfEven value rounded) : halfEven value = rounded :=
  (isHalfEven_halfEven value).unique h

theorem halfEven_intCast (n : ℤ) : halfEven n = n := by
  apply IsHalfEven.eq
  rw [IsHalfEven, sub_self, abs_zero, mul_zero]
  exact ⟨zero_le_one, fun h => absurd h zero_ne_one⟩

/-- The rounding of a quotient, told without fractions. -/
theorem isHalfEven_div_iff {dividend divisor rounded : ℤ} (hdivisor : divisor ≠ 0) :
    IsHalfEven ((dividend : ℚ) / divisor) rounded ↔
      2 * (dividend - divisor * rounded).natAbs ≤ divisor.natAbs ∧
        (2 * (dividend - divisor * rounded).natAbs = divisor.natAbs → rounded % 2 = 0) := by
  have hcast : (divisor : ℚ) ≠ 0 := Int.cast_ne_zero.mpr hdivisor
  have hpositive : (0 : ℚ) < divisor.natAbs := by exact_mod_cast Int.natAbs_pos.mpr hdivisor
  have hdistance : |(dividend : ℚ) / divisor - rounded|
      = ((dividend - divisor * rounded).natAbs : ℚ) / divisor.natAbs := by
    rw [Nat.cast_natAbs, Nat.cast_natAbs]
    push_cast
    rw [← abs_div]
    congr 1
    field_simp
  rw [IsHalfEven, hdistance, ← mul_div_assoc, div_le_one hpositive, div_eq_one_iff_eq hpositive.ne']
  norm_cast

/-- What a division that truncates leaves is rounded away from zero when the remainder is more than half of the
divisor, or half of it and the quotient is odd. -/
theorem isHalfEven_of_truncated {dividend divisor direction : ℤ} (hdivisor : divisor ≠ 0)
    (hdirection : direction = if dividend.tmod divisor < 0 ↔ divisor < 0 then 1 else -1) :
    IsHalfEven ((dividend : ℚ) / divisor)
      (if 2 * (dividend.tmod divisor).natAbs < divisor.natAbs
          ∨ 2 * (dividend.tmod divisor).natAbs = divisor.natAbs ∧ dividend.tdiv divisor % 2 = 0 then
        dividend.tdiv divisor
      else dividend.tdiv divisor + direction) := by
  have hsplit : dividend = divisor * dividend.tdiv divisor + dividend.tmod divisor :=
    (Int.mul_tdiv_add_tmod dividend divisor).symm
  have hless : (dividend.tmod divisor).natAbs < divisor.natAbs := by
    rw [Int.natAbs_tmod]
    exact Nat.mod_lt _ (Int.natAbs_pos.mpr hdivisor)
  rw [isHalfEven_div_iff hdivisor]
  generalize dividend.tdiv divisor = quotient at *
  generalize dividend.tmod divisor = remainder at *
  split
  · rename_i hnear
    rw [show dividend - divisor * quotient = remainder by omega]
    omega
  · rename_i hfar
    have hstep : dividend - divisor * (quotient + direction) = remainder - divisor * direction := by
      rw [mul_add]
      omega
    rw [hstep]
    by_cases hsigns : remainder < 0 ↔ divisor < 0
    · rw [if_pos hsigns] at hdirection
      rw [hdirection, mul_one]
      omega
    · rw [if_neg hsigns] at hdirection
      rw [hdirection, mul_neg, mul_one]
      omega

end CantonSdk.Base
