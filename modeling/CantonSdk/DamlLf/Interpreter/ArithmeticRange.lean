import CantonSdk.DamlLf.Interpreter.BuiltinDispatch
import CantonSdk.DamlLf.Interpreter.ExactText

/-!
# Arithmetic within its type

Sums and differences of integers and of numerics, and integers made from numerics, are computed without bounds and
are never checked against the bounds of their type.
-/

set_option linter.all false

namespace CantonSdk.DamlLf.Interpreter

open CantonSdk.Base

/-! ## Reading integers that were written -/

theorem foldl_eq_ofDigitChars {digits : List Char} (hdigits : digits.all Char.isDigit = true) (value : Nat) :
    digits.foldl (fun value c => value * 10 + digitValue c) value = Nat.ofDigitChars 10 digits value := by
  induction digits generalizing value with
  | nil => rfl
  | cons c rest ih =>
      rw [List.all_cons, Bool.and_eq_true] at hdigits
      rw [List.foldl_cons, ih hdigits.2, Nat.ofDigitChars_cons, digitValue, if_pos hdigits.1, Nat.mul_comm]

theorem isDigitOf_ten {c : Char} (h : c.isDigit = true) : isDigitOf 10 c = true := by
  have hless := toNat_sub_lt_of_isDigit h
  rw [isDigitOf, digitValue, if_pos h, h, decide_eq_true hless]
  rfl

/-- Text of digits names no radix. -/
theorem splitRadix_digits {digits : List Char} (hdigits : digits.all Char.isDigit = true) :
    splitRadix digits = (10, digits) := by
  unfold splitRadix
  split <;> first | rfl | (simp only [List.all_cons] at hdigits; exact absurd hdigits (by simp))

/-- Text of digits with a sign names no radix. -/
theorem bigIntOfText_signed {sign digits : List Char} (hsign : sign = [] ∨ sign = ['-']) (hne : digits ≠ [])
    (hdigits : digits.all Char.isDigit = true) :
    bigIntOfText (String.ofList (sign ++ digits))
      = .ok (if sign = ['-'] then -(Nat.ofDigitChars 10 digits 0 : Int) else Nat.ofDigitChars 10 digits 0) := by
  have htrim := (written_whole hsign hne hdigits).2.1
  have hall : digits.all (isDigitOf 10) = true := by
    rw [List.all_eq_true] at hdigits ⊢
    exact fun c hc => isDigitOf_ten (hdigits c hc)
  have hempty : digits.isEmpty = false := List.isEmpty_eq_false_iff.mpr hne
  have hnone : splitNumberSign 10 digits = (false, digits) := by
    unfold splitNumberSign
    split
    · exact absurd hdigits (by simp)
    · exact absurd hdigits (by simp)
    · rfl
  rw [bigIntOfText, String.toList_ofList, htrim]
  rcases hsign with rfl | rfl
  · rw [List.nil_append, hempty, splitRadix_digits hdigits]
    dsimp only
    rw [hnone, hempty, hall]
    simp [foldl_eq_ofDigitChars hdigits]
  · have hradix : splitRadix ('-' :: digits) = (10, '-' :: digits) := rfl
    rw [List.singleton_append, hradix]
    simp [splitNumberSign, hempty, hall, foldl_eq_ofDigitChars hdigits]

/-- The text of an integer is read as the integer. -/
theorem bigIntOfText_toString (n : Int) : bigIntOfText (toString n) = .ok n := by
  have hne : ∀ m : Nat, Nat.toDigits 10 m ≠ [] := fun m => List.length_pos_iff.mp Nat.length_toDigits_pos
  cases n with
  | ofNat n =>
      rw [← String.ofList_toList (s := toString (Int.ofNat n)), toList_toString_ofNat]
      have h := bigIntOfText_signed (Or.inl rfl) (hne n) (toDigits_isDigit n)
      rw [List.nil_append, Nat.ofDigitChars_ten_toDigits] at h
      exact h
  | negSucc n =>
      rw [← String.ofList_toList (s := toString (Int.negSucc n)), toList_toString_negSucc]
      have h := bigIntOfText_signed (Or.inr rfl) (hne (n + 1)) (toDigits_isDigit (n + 1))
      rw [List.singleton_append, Nat.ofDigitChars_ten_toDigits, if_pos rfl] at h
      exact h

/-! ## Bounds -/

def InInt64 (n : Int) : Prop := -9223372036854775808 ≤ n ∧ n ≤ 9223372036854775807

instance (n : Int) : Decidable (InInt64 n) := inferInstanceAs (Decidable (_ ∧ _))

/-- Text of a number with no more digits than the scale behind the point, and 38 digits at most at the scale. -/
def IsNumericAt (scale : Nat) (text : String) (number : ℚ) : Prop :=
  ∃ decimal, parseExactDecimal text = .ok decimal ∧ decimal.toRat = number ∧ decimal.scale ≤ scale
    ∧ FitsNumeric scale number

variable {κ : Type}

/-- An integer that comes out is in its range. -/
def StaysInt64 (outcome : Except HostError (RuntimeValue κ)) : Prop :=
  ∀ text, outcome = .ok (.int64 text) → ∃ n, bigIntOfText text = .ok n ∧ InInt64 n

/-- A numeric that comes out has 38 digits at most at the scale. -/
def StaysNumeric (scale : Nat) (outcome : Except HostError (RuntimeValue κ)) : Prop :=
  ∀ text, outcome = .ok (.numeric text) →
    ∃ decimal, parseExactDecimal text = .ok decimal ∧ FitsNumeric scale decimal.toRat

theorem staysInt64_iff (n : Int) :
    StaysInt64 (κ := κ) (.ok (.int64 (toString n))) ↔ InInt64 n := by
  constructor
  · intro h
    obtain ⟨m, hread, hrange⟩ := h _ rfl
    rw [bigIntOfText_toString] at hread
    obtain rfl := Except.ok.inj hread
    exact hrange
  · intro hrange text htext
    cases htext
    exact ⟨n, bigIntOfText_toString n, hrange⟩

theorem staysNumeric_iff (scale : Nat) (value : ExactDecimal) :
    StaysNumeric (κ := κ) scale (.ok (.numeric (formatExactDecimal value))) ↔ FitsNumeric scale value.toRat := by
  obtain ⟨decimal, hparse, hrat⟩ := parse_formatExactDecimal value
  constructor
  · intro h
    obtain ⟨read, hread, hfits⟩ := h _ rfl
    rw [hparse] at hread
    obtain rfl := Except.ok.inj hread
    rwa [hrat] at hfits
  · intro hfits text htext
    cases htext
    exact ⟨decimal, hparse, by rwa [hrat]⟩

/-- A quotient towards zero is between bounds on both sides of zero when the dividend is less than one divisor away. -/
theorem tdiv_between {dividend divisor low high : Int} (hdivisor : 0 < divisor) (hlow : low ≤ 0) (hhigh : 0 < high) :
    (low ≤ dividend.tdiv divisor ∧ dividend.tdiv divisor < high)
      ↔ (low - 1) * divisor < dividend ∧ dividend < high * divisor := by
  rcases Int.le_total 0 dividend with hdividend | hdividend
  · have hnonneg := Int.tdiv_nonneg hdividend hdivisor.le
    have hbelow : (low - 1) * divisor < 0 := Int.mul_neg_of_neg_of_pos (by omega) hdivisor
    rw [Int.tdiv_eq_ediv_of_nonneg hdividend] at hnonneg ⊢
    rw [Int.ediv_lt_iff_lt_mul hdivisor]
    omega
  · have hneg : dividend.tdiv divisor = -(-dividend / divisor) := by
      rw [← Int.tdiv_eq_ediv_of_nonneg (Int.neg_nonneg_of_nonpos hdividend), Int.neg_tdiv, Int.neg_neg]
    have hnonneg := Int.ediv_nonneg (Int.neg_nonneg_of_nonpos hdividend) hdivisor.le
    have habove : 0 < high * divisor := Int.mul_pos hhigh hdivisor
    have hlower : -dividend / divisor < 1 - low ↔ -dividend < (1 - low) * divisor := Int.ediv_lt_iff_lt_mul hdivisor
    have hsides : (low - 1) * divisor = -((1 - low) * divisor) := by ring
    rw [hneg, hsides]
    omega

/-- An integer made from a decimal is in its range when the decimal is less than one away from it. -/
theorem inInt64_truncate_iff (value : ExactDecimal) :
    InInt64 (truncateExactDecimalToInt64 value)
      ↔ -9223372036854775809 < value.toRat ∧ value.toRat < 9223372036854775808 := by
  have hpow := pow10_pos value.scale
  have hcast : (0 : ℚ) < pow10 value.scale := by exact_mod_cast hpow
  have hbetween : (-9223372036854775808 ≤ value.significand.tdiv (pow10 value.scale)
        ∧ value.significand.tdiv (pow10 value.scale) < 9223372036854775808)
      ↔ (-9223372036854775808 - 1) * pow10 value.scale < value.significand
        ∧ value.significand < 9223372036854775808 * pow10 value.scale :=
    tdiv_between hpow (by decide) (by decide)
  have hrange : ∀ n : Int, InInt64 n ↔ -9223372036854775808 ≤ n ∧ n < 9223372036854775808 := by
    intro n
    rw [InInt64]
    omega
  rw [truncateExactDecimalToInt64_eq, ExactDecimal.toRat, ← cast_pow10, lt_div_iff₀ hcast, div_lt_iff₀ hcast, hrange,
    hbetween]
  norm_cast

/-! ## Operations -/

-- how the host writes a function value, with the frame that it belongs to
variable (functionText : κ → String) {applied argumentValues rest : List (RuntimeValue κ)}

section Int64

variable {left right : String} {a b : Int} (hleft : bigIntOfText left = .ok a) (hright : bigIntOfText right = .ok b)
  (harguments : (applied ++ argumentValues).filter (fun argument => !argument.isUnit) = .int64 left :: .int64 right :: rest)

include hleft hright harguments

theorem apply_addInt64 :
    applyOrThrow functionText .addInt64 applied argumentValues = .ok (.int64 (toString (a + b))) := by
  simp only [applyOrThrow, harguments, readInt64, hleft, hright]
  rfl

theorem apply_subInt64 :
    applyOrThrow functionText .subInt64 applied argumentValues = .ok (.int64 (toString (a - b))) := by
  simp only [applyOrThrow, harguments, readInt64, hleft, hright]
  rfl

end Int64

section Numeric

variable {left right : String} {a b : ExactDecimal} (hleft : parseExactDecimal left = .ok a)
  (hright : parseExactDecimal right = .ok b)
  (harguments : (applied ++ argumentValues).filter isNumericCompatible = rest ++ [.numeric left, .numeric right])

include hleft hright harguments

theorem apply_addNumeric :
    applyOrThrow functionText .addNumeric applied argumentValues
      = .ok (.numeric (formatExactDecimal (addExactDecimals a b))) := by
  simp only [applyOrThrow, harguments, List.reverse_append, List.reverse_cons, List.reverse_nil, List.nil_append,
    List.cons_append, readExactDecimal, hleft, hright]
  rfl

theorem apply_subNumeric :
    applyOrThrow functionText .subNumeric applied argumentValues
      = .ok (.numeric (formatExactDecimal (subtractExactDecimals a b))) := by
  simp only [applyOrThrow, harguments, List.reverse_append, List.reverse_cons, List.reverse_nil, List.nil_append,
    List.cons_append, readExactDecimal, hleft, hright]
  rfl

end Numeric

theorem apply_numericToInt64 {operand : String} {a : ExactDecimal} (hoperand : parseExactDecimal operand = .ok a)
    (harguments : (applied ++ argumentValues).filter isNumericCompatible = rest ++ [.numeric operand]) :
    applyOrThrow functionText .numericToInt64 applied argumentValues
      = .ok (.int64 (toString (truncateExactDecimalToInt64 a))) := by
  simp only [applyOrThrow, harguments, List.getLast?_append, List.getLast?_singleton, Option.some_or, readExactDecimal,
    hoperand]
  rfl

/-- Sums and differences stay in their type exactly when the number that comes out is in it, and integers made from
numerics exactly when the numeric is less than one away from their range: nothing else is checked. -/
theorem stays_in_type_iff :
    (∀ left right a b, bigIntOfText left = .ok a → bigIntOfText right = .ok b → InInt64 a → InInt64 b →
      (applied ++ argumentValues).filter (fun argument => !argument.isUnit) = .int64 left :: .int64 right :: rest →
      (StaysInt64 (applyOrThrow functionText .addInt64 applied argumentValues) ↔ InInt64 (a + b)) ∧
      (StaysInt64 (applyOrThrow functionText .subInt64 applied argumentValues) ↔ InInt64 (a - b))) ∧
    (∀ (scale : Nat) left right a b, scale ≤ 37 → IsNumericAt scale left a → IsNumericAt scale right b →
      (applied ++ argumentValues).filter isNumericCompatible = rest ++ [.numeric left, .numeric right] →
      (StaysNumeric scale (applyOrThrow functionText .addNumeric applied argumentValues)
        ↔ FitsNumeric scale (a + b)) ∧
      (StaysNumeric scale (applyOrThrow functionText .subNumeric applied argumentValues)
        ↔ FitsNumeric scale (a - b))) ∧
    (∀ (scale : Nat) operand a, scale ≤ 37 → IsNumericAt scale operand a →
      (applied ++ argumentValues).filter isNumericCompatible = rest ++ [.numeric operand] →
      (StaysInt64 (applyOrThrow functionText .numericToInt64 applied argumentValues)
        ↔ -9223372036854775809 < a ∧ a < 9223372036854775808)) := by
  refine ⟨?_, ?_, ?_⟩
  · intro left right a b hleft hright _ _ harguments
    rw [apply_addInt64 functionText hleft hright harguments, apply_subInt64 functionText hleft hright harguments]
    exact ⟨staysInt64_iff (a + b), staysInt64_iff (a - b)⟩
  · rintro scale left right _ _ - ⟨a, hleft, rfl, -, -⟩ ⟨b, hright, rfl, -, -⟩ harguments
    rw [apply_addNumeric functionText hleft hright harguments, apply_subNumeric functionText hleft hright harguments,
      staysNumeric_iff, staysNumeric_iff, toRat_add, toRat_subtract]
    exact ⟨Iff.rfl, Iff.rfl⟩
  · rintro scale operand _ - ⟨a, hoperand, rfl, -, -⟩ harguments
    rw [apply_numericToInt64 functionText hoperand harguments, staysInt64_iff, inInt64_truncate_iff]

/-- One more than the largest integer is returned. -/
theorem addInt64_past_largest :
    InInt64 9223372036854775807 ∧ InInt64 1 ∧
      ¬ StaysInt64 (applyOrThrow (κ := Empty) Empty.elim .addInt64 []
        [.int64 "9223372036854775807", .int64 "1"]) := by
  have hleft : bigIntOfText "9223372036854775807" = .ok 9223372036854775807 := by decide +kernel
  have hright : bigIntOfText "1" = .ok 1 := by decide +kernel
  refine ⟨by decide, by decide, ?_⟩
  rw [apply_addInt64 Empty.elim hleft hright rfl, staysInt64_iff]
  decide

theorem stays_in_type_small :
    StaysInt64 (applyOrThrow (κ := Empty) Empty.elim .addInt64 [] [.int64 "2", .int64 "-3"]) ∧
      StaysNumeric 2 (applyOrThrow (κ := Empty) Empty.elim .subNumeric [] [.numeric "1.50", .numeric "2"]) ∧
      StaysInt64 (applyOrThrow (κ := Empty) Empty.elim .numericToInt64 [] [.numeric "-1.50"]) := by
  have hinteger : bigIntOfText "2" = .ok 2 ∧ bigIntOfText "-3" = .ok (-3) := by decide +kernel
  have hfirst : IsNumericAt 2 "1.50" (3 / 2) :=
    ⟨⟨15, 1⟩, by decide +kernel, by norm_num [ExactDecimal.toRat], by decide, by decide +kernel⟩
  have hsecond : IsNumericAt 2 "2" 2 :=
    ⟨⟨2, 0⟩, by decide +kernel, by norm_num [ExactDecimal.toRat], by decide, by decide +kernel⟩
  have hthird : IsNumericAt 2 "-1.50" (-3 / 2) :=
    ⟨⟨-15, 1⟩, by decide +kernel, by norm_num [ExactDecimal.toRat], by decide, by decide +kernel⟩
  refine ⟨?_, ?_, ?_⟩
  · exact ((@stays_in_type_iff Empty Empty.elim _ _ []).1 "2" "-3" 2 (-3) hinteger.1 hinteger.2 (by decide) (by decide)
      rfl).1.mpr (by decide)
  · exact ((@stays_in_type_iff Empty Empty.elim _ _ []).2.1 2 "1.50" "2" _ _ (by decide) hfirst hsecond rfl).2.mpr
      (by decide +kernel)
  · exact ((@stays_in_type_iff Empty Empty.elim _ _ []).2.2 2 "-1.50" _ (by decide) hthird rfl).mpr (by norm_num)

end CantonSdk.DamlLf.Interpreter
