import CantonSdk.DamlLf.Interpreter.BuiltinDispatch
import CantonSdk.DamlLf.Interpreter.ExactText

/-!
# Numeric built-in functions

Products, quotients, changes of scale and roundings return the text of the exact result, rounded half to even at
the scale, or throw where the result has more than 38 digits there.
-/

set_option linter.all false

namespace CantonSdk.DamlLf.Interpreter

open CantonSdk.Base

variable {κ : Type}

/-- The value is decimal text, or an integer, that denotes the number. -/
def Denotes (value : RuntimeValue κ) (number : ℚ) : Prop :=
  ∃ decimal, readExactDecimal value = .ok decimal ∧ decimal.toRat = number

/-- A numeric is returned, and its text denotes the number. -/
def ReturnsNumeric (number : ℚ) (outcome : Except HostError (RuntimeValue κ)) : Prop :=
  ∃ text, outcome = .ok (.numeric text) ∧ isDecimal text.toList = true ∧ numericValue text = number

/-- The number is returned if it has 38 digits at most at the scale. -/
def ReturnsBounded (scale : Int) (number : ℚ) (outcome : Except HostError (RuntimeValue κ)) : Prop :=
  (FitsNumeric scale number → ReturnsNumeric number outcome) ∧
    (¬ FitsNumeric scale number → outcome = .error overflow)

theorem written_of_error {result : Except HostError ExactDecimal} {error : HostError} (h : result = .error error) :
    (result.bind fun value => .ok (.numeric (formatExactDecimal value)) : Except HostError (RuntimeValue κ))
      = .error error := by
  rw [h]
  rfl

theorem ReturnsBounded.of_isBounded {scale : Int} {number : ℚ} {result : Except HostError ExactDecimal}
    (h : IsBounded scale number result) :
    ReturnsBounded scale number (result.bind fun value => .ok (.numeric (formatExactDecimal value)) :
      Except HostError (RuntimeValue κ)) := by
  constructor
  · intro hfits
    obtain ⟨value, hvalue, hnumber⟩ := h.1 hfits
    obtain ⟨hdecimal, _, hdenotes⟩ := formatExactDecimal_spec value
    exact ⟨_, by rw [hvalue]; rfl, hdecimal, hdenotes.trans hnumber⟩
  · intro hfits
    exact written_of_error (h.2 hfits)

-- how the host writes a function value, with the frame that it belongs to
variable (functionText : κ → String) {applied argumentValues rest : List (RuntimeValue κ)}

section Scaled

variable {scale : Nat} {witness : RuntimeValue κ} (hscale : readNumericScaleWitnessOrThrow witness = .ok scale)

include hscale

section Operands

variable {left right : RuntimeValue κ} {x y : ℚ} (hleft : Denotes left x) (hright : Denotes right y)
  (harguments : (applied ++ argumentValues).filter isNumericCompatible = witness :: left :: right :: rest)

include hleft hright harguments

theorem apply_mulNumeric :
    ReturnsBounded scale (roundAt scale (x * y)) (applyOrThrow functionText .mulNumeric applied argumentValues) := by
  obtain ⟨leftDecimal, hreadLeft, rfl⟩ := hleft
  obtain ⟨rightDecimal, hreadRight, rfl⟩ := hright
  have hbounded := quantize_halfEven (multiplyExactDecimals leftDecimal rightDecimal) scale
  rw [toRat_multiply] at hbounded
  have hreturns := ReturnsBounded.of_isBounded (κ := κ) hbounded
  simp only [applyOrThrow, harguments, hscale, hreadLeft, hreadRight]
  exact hreturns

theorem apply_divNumeric (hnonzero : y ≠ 0) :
    ReturnsBounded scale (roundAt scale (x / y)) (applyOrThrow functionText .divNumeric applied argumentValues) := by
  obtain ⟨leftDecimal, hreadLeft, rfl⟩ := hleft
  obtain ⟨rightDecimal, hreadRight, rfl⟩ := hright
  have hreturns := ReturnsBounded.of_isBounded (κ := κ) (divide_eq_bounded leftDecimal rightDecimal scale hnonzero)
  simp only [applyOrThrow, harguments, hscale, hreadLeft, hreadRight]
  exact hreturns

theorem apply_divNumeric_zero (hzero : y = 0) :
    applyOrThrow functionText .divNumeric applied argumentValues = .error divisionByZero := by
  obtain ⟨leftDecimal, hreadLeft, rfl⟩ := hleft
  obtain ⟨rightDecimal, hreadRight, rfl⟩ := hright
  have hdivide : divideExactDecimals leftDecimal rightDecimal scale = .error divisionByZero := by
    rw [divideExactDecimals, if_pos ((toRat_eq_zero rightDecimal).mp hzero)]
    rfl
  simp only [applyOrThrow, harguments, hscale, hreadLeft, hreadRight]
  exact written_of_error hdivide

end Operands

section Operand

variable {operand : RuntimeValue κ}
  (harguments : (applied ++ argumentValues).filter isNumericCompatible = witness :: operand :: rest)

include harguments

theorem apply_castNumeric {x : ℚ} (hoperand : Denotes operand x) :
    (∀ scaled : Int, x * 10 ^ (scale : Int) = scaled →
      ReturnsBounded scale x (applyOrThrow functionText .castNumeric applied argumentValues)) ∧
    ((∀ scaled : Int, x * 10 ^ (scale : Int) ≠ scaled) →
      applyOrThrow functionText .castNumeric applied argumentValues = .error inexact) := by
  obtain ⟨decimal, hread, rfl⟩ := hoperand
  obtain ⟨hexact, hinexact⟩ := quantize_unnecessary decimal scale
  simp only [applyOrThrow, harguments, hscale, hread]
  constructor
  · intro scaled hscaled
    exact ReturnsBounded.of_isBounded (κ := κ) (hexact scaled hscaled)
  · intro hnone
    exact written_of_error (hinexact hnone)

theorem apply_int64ToNumeric {n : Int} (hoperand : readInt64 operand = .ok n) :
    ReturnsBounded scale n (applyOrThrow functionText .int64ToNumeric applied argumentValues) := by
  have hrat : (⟨n, 0⟩ : ExactDecimal).toRat = n := by rw [ExactDecimal.toRat, pow_zero, div_one]
  have hbounded := @quantize_of_le ⟨n, 0⟩ scale (Int.natCast_nonneg scale) .unnecessary
  rw [hrat] at hbounded
  have hreturns := ReturnsBounded.of_isBounded (κ := κ) hbounded
  simp only [applyOrThrow, harguments, hscale, hoperand]
  exact hreturns

end Operand

end Scaled

theorem apply_roundNumeric {position operand : RuntimeValue κ} {digit : Int} {x : ℚ}
    (hposition : readInt64 position = .ok digit) (hoperand : Denotes operand x)
    (harguments : applied ++ argumentValues = position :: operand :: rest) :
    ReturnsBounded digit (roundAt digit x) (applyOrThrow functionText .roundNumeric applied argumentValues) := by
  obtain ⟨decimal, hread, rfl⟩ := hoperand
  have hreturns := ReturnsBounded.of_isBounded (κ := κ) (quantize_halfEven decimal digit)
  simp only [applyOrThrow, harguments, hposition, hread]
  exact hreturns

/-- Numeric built-in functions return the exact result rounded half to even; they throw for a divisor that is zero,
for a cast that loses digits, and for a result with more than 38 digits at its scale. -/
theorem numeric_functions_exact :
    (∀ (scale : Nat) witness left right x y, readNumericScaleWitnessOrThrow witness = .ok scale →
      Denotes left x → Denotes right y →
      (applied ++ argumentValues).filter isNumericCompatible = witness :: left :: right :: rest →
      ReturnsBounded scale (roundAt scale (x * y)) (applyOrThrow functionText .mulNumeric applied argumentValues) ∧
      (y ≠ 0 → ReturnsBounded scale (roundAt scale (x / y))
        (applyOrThrow functionText .divNumeric applied argumentValues)) ∧
      (y = 0 → applyOrThrow functionText .divNumeric applied argumentValues = .error divisionByZero)) ∧
    (∀ (scale : Nat) witness operand x, readNumericScaleWitnessOrThrow witness = .ok scale → Denotes operand x →
      (applied ++ argumentValues).filter isNumericCompatible = witness :: operand :: rest →
      (∀ scaled : Int, x * 10 ^ (scale : Int) = scaled →
        ReturnsBounded scale x (applyOrThrow functionText .castNumeric applied argumentValues)) ∧
      ((∀ scaled : Int, x * 10 ^ (scale : Int) ≠ scaled) →
        applyOrThrow functionText .castNumeric applied argumentValues = .error inexact)) ∧
    (∀ (scale : Nat) witness operand (n : Int), readNumericScaleWitnessOrThrow witness = .ok scale →
      readInt64 operand = .ok n →
      (applied ++ argumentValues).filter isNumericCompatible = witness :: operand :: rest →
      ReturnsBounded scale n (applyOrThrow functionText .int64ToNumeric applied argumentValues)) ∧
    (∀ position operand digit x, readInt64 position = .ok digit → Denotes operand x →
      applied ++ argumentValues = position :: operand :: rest →
      ReturnsBounded digit (roundAt digit x) (applyOrThrow functionText .roundNumeric applied argumentValues)) := by
  refine ⟨?_, ?_, ?_, ?_⟩
  · intro scale witness left right x y hscale hleft hright harguments
    exact ⟨apply_mulNumeric functionText hscale hleft hright harguments,
      apply_divNumeric functionText hscale hleft hright harguments,
      apply_divNumeric_zero functionText hscale hleft hright harguments⟩
  · intro scale witness operand x hscale hoperand harguments
    exact apply_castNumeric functionText hscale harguments hoperand
  · intro scale witness operand n hscale hoperand harguments
    exact apply_int64ToNumeric functionText hscale harguments hoperand
  · intro position operand digit x hposition hoperand harguments
    exact apply_roundNumeric functionText hposition hoperand harguments

theorem numeric_functions_small :
    ReturnsBounded 1 (roundAt 1 ((-5 / 4) * 1)) (applyOrThrow (κ := Empty) Empty.elim .mulNumeric []
      [.numeric "0.0", .numeric "-1.25", .numeric "1"]) ∧
    ReturnsBounded 1 (-5 / 2) (applyOrThrow (κ := Empty) Empty.elim .castNumeric [] [.numeric "0.0", .numeric "-2.50"]) ∧
    ReturnsBounded 1 (7 : Int) (applyOrThrow (κ := Empty) Empty.elim .int64ToNumeric [] [.numeric "0.0", .int64 "7"]) ∧
    ReturnsBounded (-1) (roundAt (-1) 15) (applyOrThrow (κ := Empty) Empty.elim .roundNumeric []
      [.int64 "-1", .numeric "15"]) := by
  have hwitness : readNumericScaleWitnessOrThrow (κ := Empty) (.numeric "0.0") = .ok 1 := by decide +kernel
  have hleft : Denotes (κ := Empty) (.numeric "-1.25") (-5 / 4) :=
    ⟨⟨-125, 2⟩, by decide +kernel, by norm_num [ExactDecimal.toRat]⟩
  have hright : Denotes (κ := Empty) (.numeric "1") 1 := ⟨⟨1, 0⟩, by decide +kernel, by norm_num [ExactDecimal.toRat]⟩
  have hcast : Denotes (κ := Empty) (.numeric "-2.50") (-5 / 2) :=
    ⟨⟨-25, 1⟩, by decide +kernel, by norm_num [ExactDecimal.toRat]⟩
  have hround : Denotes (κ := Empty) (.numeric "15") 15 := ⟨⟨15, 0⟩, by decide +kernel, by norm_num [ExactDecimal.toRat]⟩
  have hseven : readInt64 (κ := Empty) (.int64 "7") = .ok 7 := by decide +kernel
  have hposition : readInt64 (κ := Empty) (.int64 "-1") = .ok (-1) := by decide +kernel
  refine ⟨?_, ?_, ?_, ?_⟩
  · exact ((@numeric_functions_exact Empty Empty.elim _ _ []).1 1 _ _ _ _ _ hwitness hleft hright rfl).1
  · exact ((@numeric_functions_exact Empty Empty.elim _ _ []).2.1 1 _ _ _ hwitness hcast rfl).1 (-25) (by norm_num)
  · exact (@numeric_functions_exact Empty Empty.elim _ _ []).2.2.1 1 _ _ _ hwitness hseven rfl
  · exact (@numeric_functions_exact Empty Empty.elim _ _ []).2.2.2 _ _ _ _ hposition hround rfl

/-- The largest numeric without digits behind the point cannot be rounded to tens: the result has 39 digits. -/
theorem roundNumeric_past_largest :
    roundAt (-1) 99999999999999999999999999999999999999 = 100000000000000000000000000000000000000 ∧
      applyOrThrow (κ := Empty) Empty.elim .roundNumeric []
        [.int64 "-1", .numeric "99999999999999999999999999999999999999"] = .error overflow := by
  have hposition : readInt64 (κ := Empty) (.int64 "-1") = .ok (-1) := by decide +kernel
  have hread : readExactDecimal (κ := Empty) (.numeric "99999999999999999999999999999999999999")
      = .ok ⟨99999999999999999999999999999999999999, 0⟩ := by decide +kernel
  have hquantize : quantizeExactDecimal ⟨99999999999999999999999999999999999999, 0⟩ (-1) .halfEven
      = .error overflow := by decide +kernel
  constructor
  · decide +kernel
  · simp only [applyOrThrow, List.nil_append, hposition, hread]
    exact written_of_error hquantize

end CantonSdk.DamlLf.Interpreter
