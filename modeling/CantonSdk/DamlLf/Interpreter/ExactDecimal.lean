import CantonSdk.Base.DecimalText
import CantonSdk.Base.HalfEven
import CantonSdk.Base.Text

/-!
# Exact decimals of the interpreter

A significand without bounds and the number of digits behind the point. Integers are divided as the host divides
them, towards zero.
-/

set_option linter.all false

namespace CantonSdk.DamlLf.Interpreter

open CantonSdk.Base

/-- What the interpreter and the host throw. -/
inductive HostError
  | validation (message : String)
  /-- Text that `BigInt` does not read. -/
  | syntaxError (message : String)
  deriving DecidableEq

/-- `IExactDecimalValue`. -/
structure ExactDecimal where
  significand : Int
  scale : Nat
  deriving DecidableEq

def pow10 (exponent : Nat) : Int := 10 ^ exponent

/-! ## Reading -/

/-- `digits.replace(/^0+(?=\d)/, "")`, of digits. -/
def dropLeadingZeros : List Char → List Char
  | '0' :: next :: rest => dropLeadingZeros (next :: rest)
  | digits => digits

/-- The pattern `^-?\d+(?:\.\d+)?$`. -/
def isDecimal (text : List Char) : Bool :=
  let parts := splitAtPoint (splitSign text).2
  !parts.1.isEmpty && parts.1.all Char.isDigit
    && parts.2.all fun fraction => !fraction.isEmpty && fraction.all Char.isDigit

def parseExactDecimal (value : String) : Except HostError ExactDecimal :=
  let trimmed := trim value.toList
  if !isDecimal trimmed then
    .error (.validation s!"daml lf builtin expected an exact decimal-compatible value, got '{value}'")
  else
    let negative := (splitSign trimmed).1
    let unsigned := splitAtPoint (splitSign trimmed).2
    let normalizedInteger := dropLeadingZeros unsigned.1
    let normalizedFraction := trimZeros (unsigned.2.getD [])
    let digits := dropLeadingZeros (normalizedInteger ++ normalizedFraction)
    let magnitude : Int := Nat.ofDigitChars 10 digits 0
    .ok ⟨if negative then -magnitude else magnitude, normalizedFraction.length⟩

/-! ## Arithmetic -/

/-- The loop of `normalizeExactDecimal`. -/
def normalizeDigits (significand : Int) : Nat → ExactDecimal
  | 0 => ⟨significand, 0⟩
  | scale + 1 =>
      if significand.tmod 10 = 0 then normalizeDigits (significand.tdiv 10) scale else ⟨significand, scale + 1⟩

def normalizeExactDecimal (value : ExactDecimal) : ExactDecimal := normalizeDigits value.significand value.scale

def addExactDecimals (left right : ExactDecimal) : ExactDecimal :=
  let scale := max left.scale right.scale
  normalizeExactDecimal
    ⟨left.significand * pow10 (scale - left.scale) + right.significand * pow10 (scale - right.scale), scale⟩

def subtractExactDecimals (left right : ExactDecimal) : ExactDecimal :=
  let scale := max left.scale right.scale
  normalizeExactDecimal
    ⟨left.significand * pow10 (scale - left.scale) - right.significand * pow10 (scale - right.scale), scale⟩

def multiplyExactDecimals (left right : ExactDecimal) : ExactDecimal :=
  normalizeExactDecimal ⟨left.significand * right.significand, left.scale + right.scale⟩

def compareExactDecimals (left right : ExactDecimal) : Ordering :=
  let scale := max left.scale right.scale
  let leftValue := left.significand * pow10 (scale - left.scale)
  let rightValue := right.significand * pow10 (scale - right.scale)
  if leftValue < rightValue then .lt else if leftValue > rightValue then .gt else .eq

def truncateExactDecimalToInt64 (value : ExactDecimal) : Int :=
  if value.scale = 0 then value.significand else value.significand.tdiv (pow10 value.scale)

/-! ## Rounding -/

inductive RoundingMode
  | halfEven
  | unnecessary
  deriving DecidableEq

def overflow : HostError := .validation "daml lf numeric overflow"

def assertNumericBoundsOrThrow (value : ExactDecimal) (targetScale : Int) : Except HostError ExactDecimal :=
  let normalized := normalizeExactDecimal value
  let scaledSignificand :=
    if targetScale ≥ 0 ∧ targetScale ≥ normalized.scale then
      normalized.significand * pow10 (targetScale.toNat - normalized.scale)
    else normalized.significand
  if (Nat.toDigits 10 scaledSignificand.natAbs).length > 38 then .error overflow else .ok normalized

def createExactDecimalFromScaledSignificand (significand : Int) (scale : Int) : ExactDecimal :=
  if scale ≥ 0 then normalizeExactDecimal ⟨significand, scale.toNat⟩
  else normalizeExactDecimal ⟨significand * pow10 (-scale).toNat, 0⟩

def roundHalfEvenQuotient (quotient remainder divisor : Int) : Int :=
  let absoluteRemainder := if remainder < 0 then -remainder else remainder
  let absoluteDivisor := if divisor < 0 then -divisor else divisor
  let doubledRemainder := absoluteRemainder * 2
  if doubledRemainder < absoluteDivisor then quotient
  else
    let shouldRoundAwayFromZero := doubledRemainder > absoluteDivisor ∨ quotient.tmod 2 ≠ 0
    if ¬ shouldRoundAwayFromZero then quotient
    else
      let direction :=
        if quotient ≠ 0 then (if quotient < 0 then -1 else 1)
        else if decide (remainder < 0) ≠ decide (divisor < 0) then -1 else 1
      quotient + direction

def quantizeExactDecimal (value : ExactDecimal) (targetScale : Int) (roundingMode : RoundingMode) :
    Except HostError ExactDecimal :=
  if targetScale ≥ value.scale then
    let scaledValue := normalizeExactDecimal
      ⟨value.significand * pow10 (targetScale.toNat - value.scale), targetScale.toNat⟩
    assertNumericBoundsOrThrow scaledValue targetScale
  else
    let divisor := pow10 (value.scale - targetScale).toNat
    let truncated := value.significand.tdiv divisor
    let remainder := value.significand.tmod divisor
    if remainder = 0 then
      assertNumericBoundsOrThrow (createExactDecimalFromScaledSignificand truncated targetScale) targetScale
    else if roundingMode = .unnecessary then
      .error (.validation "daml lf builtin CAST_NUMERIC requires an exact representation")
    else
      let rounded := roundHalfEvenQuotient truncated remainder divisor
      assertNumericBoundsOrThrow (createExactDecimalFromScaledSignificand rounded targetScale) targetScale

def shiftExactDecimal (value : ExactDecimal) (targetScale : Nat) : Except HostError ExactDecimal :=
  assertNumericBoundsOrThrow (normalizeExactDecimal ⟨value.significand, targetScale⟩) targetScale

def quantizeQuotientToScale (dividend divisor : Int) (targetScale : Int) (roundingMode : RoundingMode) :
    Except HostError ExactDecimal :=
  let quotient := dividend.tdiv divisor
  let remainder := dividend.tmod divisor
  if remainder = 0 then .ok (createExactDecimalFromScaledSignificand quotient targetScale)
  else if roundingMode = .unnecessary then
    .error (.validation "daml lf builtin DIV_NUMERIC requires an exact representation")
  else
    .ok (createExactDecimalFromScaledSignificand (roundHalfEvenQuotient quotient remainder divisor) targetScale)

def divideExactDecimals (left right : ExactDecimal) (targetScale : Nat) : Except HostError ExactDecimal :=
  if right.significand = 0 then .error (.validation "daml lf builtin DIV_NUMERIC cannot divide by zero")
  else
    let exponent : Int := targetScale + right.scale - left.scale
    let scaleFactor := pow10 (max exponent 0).toNat
    let dividend := if exponent ≥ 0 then left.significand * scaleFactor else left.significand
    let divisor := if exponent ≥ 0 then right.significand else right.significand * pow10 (-exponent).toNat
    (quantizeQuotientToScale dividend divisor targetScale .halfEven).bind fun quotient =>
      assertNumericBoundsOrThrow quotient targetScale

/-! ## Writing -/

def formatExactDecimal (value : ExactDecimal) : String :=
  let normalized := normalizeExactDecimal value
  let sign := if normalized.significand < 0 then ['-'] else []
  let digits := Nat.toDigits 10 normalized.significand.natAbs
  if normalized.scale = 0 then String.ofList (sign ++ digits)
  else
    let paddedDigits := padStart (normalized.scale + 1) '0' digits
    let splitIndex := paddedDigits.length - normalized.scale
    String.ofList (sign ++ paddedDigits.take splitIndex ++ '.' :: paddedDigits.drop splitIndex)

def formatExactNumeric (value : ExactDecimal) (_targetScale : Nat) : String := formatExactDecimal value

end CantonSdk.DamlLf.Interpreter
