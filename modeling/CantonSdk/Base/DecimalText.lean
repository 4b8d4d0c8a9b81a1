import CantonSdk.Base.Decimal
import Mathlib.Algebra.Field.Rat
import Mathlib.Data.List.DropRight

/-!
# Decimal text with a point

The number that decimal text denotes, and the text without the zeros at its end, which denotes the same
number.
-/

set_option linter.all false

namespace CantonSdk.Base

/-- What stands before the first point, and what stands after it where there is one. -/
def splitAtPoint : List Char → List Char × Option (List Char)
  | [] => ([], none)
  | c :: rest =>
      if c = '.' then ([], some rest)
      else (c :: (splitAtPoint rest).1, (splitAtPoint rest).2)

/-- Whether there is a minus sign, and the text without it. -/
def splitSign : List Char → Bool × List Char
  | '-' :: digits => (true, digits)
  | digits => (false, digits)

/-- The number denoted by a sign, the digits before the point and those after it. -/
def decimalNumber (negative : Bool) (whole fraction : List Char) : Rat :=
  let magnitude := (Nat.ofDigitChars 10 (whole ++ fraction) 0 : Rat) / 10 ^ fraction.length
  if negative then -magnitude else magnitude

/-- The number that decimal text denotes. -/
def numericValue (text : String) : Rat :=
  let parts := splitAtPoint text.toList
  decimalNumber (splitSign parts.1).1 (splitSign parts.1).2 (parts.2.getD [])

/-- The parts of text that matches `^-?\d+\.\d+$`: what stands before the point, and the digits after it. -/
def decimalParts (text : String) : Option (List Char × List Char) :=
  match splitAtPoint text.toList with
  | (whole, some fraction) =>
      let digits := (splitSign whole).2
      if !digits.isEmpty && digits.all Char.isDigit && !fraction.isEmpty && fraction.all Char.isDigit then
        some (whole, fraction)
      else none
  | (_, none) => none

/-- The digits after the point without the zeros at their end. -/
def trimZeros (fraction : List Char) : List Char := fraction.rdropWhile fun c => c = '0'

/-- The text with a trimmed fraction, and without the point where nothing is left of the fraction. -/
def joinPoint (whole fraction : List Char) : String :=
  if fraction.isEmpty then String.ofList whole else String.ofList (whole ++ '.' :: fraction)

/-- Decimal text without the zeros at its end and without a minus sign on a bare zero; other text is left
alone. -/
def comparableText (text : String) : String :=
  match decimalParts text with
  | none => text
  | some (whole, fraction) =>
      let normalized := joinPoint whole (trimZeros fraction)
      if normalized = "-0" then "0" else normalized

theorem splitAtPoint_of_none {whole : List Char} (h : '.' ∉ whole) : splitAtPoint whole = (whole, none) := by
  induction whole with
  | nil => rfl
  | cons c rest ih =>
      rw [List.mem_cons, not_or] at h
      rw [splitAtPoint, if_neg (Ne.symm h.1), ih h.2]

theorem splitAtPoint_append {whole : List Char} (h : '.' ∉ whole) (fraction : List Char) :
    splitAtPoint (whole ++ '.' :: fraction) = (whole, some fraction) := by
  induction whole with
  | nil => rfl
  | cons c rest ih =>
      rw [List.mem_cons, not_or] at h
      rw [List.cons_append, splitAtPoint, if_neg (Ne.symm h.1), ih h.2]

/-- Text with a point is what stands before it, the point, and the rest. -/
theorem splitAtPoint_eq {text whole fraction : List Char} (h : splitAtPoint text = (whole, some fraction)) :
    text = whole ++ '.' :: fraction ∧ '.' ∉ whole := by
  induction text generalizing whole with
  | nil => cases h
  | cons c rest ih =>
      rw [splitAtPoint] at h
      split at h
      · rename_i heq
        obtain ⟨rfl, hfraction⟩ := Prod.mk.inj h
        obtain rfl := Option.some.inj hfraction
        exact ⟨by rw [heq]; rfl, nofun⟩
      · rename_i hne
        obtain ⟨rfl, hfraction⟩ := Prod.mk.inj h
        obtain ⟨hrest, hpoint⟩ := ih (Prod.ext rfl hfraction)
        refine ⟨by rw [List.cons_append, ← hrest], ?_⟩
        rw [List.mem_cons, not_or]
        exact ⟨Ne.symm hne, hpoint⟩

theorem decimalNumber_append_zeros (negative : Bool) (whole fraction : List Char) (count : Nat) :
    decimalNumber negative whole (fraction ++ List.replicate count '0')
      = decimalNumber negative whole fraction := by
  have hdigits : Nat.ofDigitChars 10 (whole ++ (fraction ++ List.replicate count '0')) 0
      = Nat.ofDigitChars 10 (whole ++ fraction) 0 * 10 ^ count := by
    rw [← List.append_assoc, Nat.ofDigitChars_append, Nat.ofDigitChars_replicate_zero, Nat.mul_comm]
  have hpower : (10 : Rat) ^ count ≠ 0 := pow_ne_zero _ (by decide)
  unfold decimalNumber
  rw [hdigits, List.length_append, List.length_replicate, pow_add, Nat.cast_mul, Nat.cast_pow,
    Nat.cast_ofNat, mul_div_mul_right _ _ hpower]

theorem eq_trimZeros_append (fraction : List Char) :
    ∃ count, fraction = trimZeros fraction ++ List.replicate count '0' := by
  refine ⟨(fraction.rtakeWhile fun c => c = '0').length, ?_⟩
  have hzeros : fraction.rtakeWhile (fun c => c = '0')
      = List.replicate (fraction.rtakeWhile fun c => c = '0').length '0' := by
    rw [List.eq_replicate_iff]
    refine ⟨rfl, ?_⟩
    intro c hc
    simpa using List.mem_rtakeWhile_imp hc
  rw [← hzeros]
  exact List.rdropWhile_append_rtakeWhile.symm

/-- The parts of decimal text are joined by its point, and there is no other. -/
theorem decimalParts_eq {text : String} {whole fraction : List Char}
    (h : decimalParts text = some (whole, fraction)) :
    splitAtPoint text.toList = (whole, some fraction) ∧ '.' ∉ whole := by
  unfold decimalParts at h
  split at h
  · rename_i whole' fraction' hsplit
    simp only [Option.ite_none_right_eq_some, Option.some.injEq, Prod.mk.injEq] at h
    obtain ⟨_, rfl, rfl⟩ := h
    exact ⟨hsplit, (splitAtPoint_eq hsplit).2⟩
  · cases h

theorem numericValue_joinPoint {whole : List Char} (hwhole : '.' ∉ whole) (fraction : List Char) :
    numericValue (joinPoint whole fraction)
      = decimalNumber (splitSign whole).1 (splitSign whole).2 fraction := by
  unfold joinPoint
  split
  · rename_i hempty
    rw [numericValue, String.toList_ofList, splitAtPoint_of_none hwhole, List.isEmpty_iff.mp hempty]
    rfl
  · rw [numericValue, String.toList_ofList, splitAtPoint_append hwhole]
    rfl

theorem numericValue_zero : numericValue "0" = 0 := by
  have hjoin : "0" = joinPoint ['0'] [] := rfl
  have hdigits : Nat.ofDigitChars 10 ['0'] 0 = 0 := by decide
  rw [hjoin, numericValue_joinPoint (by decide)]
  simp [decimalNumber, splitSign, hdigits]

theorem numericValue_negative_zero : numericValue "-0" = 0 := by
  have hjoin : "-0" = joinPoint ['-', '0'] [] := rfl
  have hdigits : Nat.ofDigitChars 10 ['0'] 0 = 0 := by decide
  rw [hjoin, numericValue_joinPoint (by decide)]
  simp [decimalNumber, splitSign, hdigits]

/-- Decimal text without the zeros at its end denotes the same number. -/
theorem numericValue_comparableText (text : String) :
    numericValue (comparableText text) = numericValue text := by
  unfold comparableText
  split
  · rfl
  · rename_i whole fraction hparts
    obtain ⟨hsplit, hwhole⟩ := decimalParts_eq hparts
    have hvalue : numericValue text
        = decimalNumber (splitSign whole).1 (splitSign whole).2 fraction := by
      unfold numericValue
      rw [hsplit]
      rfl
    have htrim : numericValue (joinPoint whole (trimZeros fraction)) = numericValue text := by
      obtain ⟨count, hcount⟩ := eq_trimZeros_append fraction
      rw [hvalue, numericValue_joinPoint hwhole]
      conv_rhs => rw [hcount, decimalNumber_append_zeros]
    dsimp only
    split
    · rename_i hzero
      rw [← htrim, hzero, numericValue_zero, numericValue_negative_zero]
    · exact htrim

theorem comparableText_of_no_point {text : String} (h : '.' ∉ text.toList) :
    comparableText text = text := by
  rw [comparableText, decimalParts, splitAtPoint_of_none h]

/-! ## One number, one text -/

theorem ofDigitChars_cons_eq (c : Char) (rest : List Char) :
    Nat.ofDigitChars 10 (c :: rest) 0 = 10 ^ rest.length * (c.toNat - '0'.toNat) + Nat.ofDigitChars 10 rest 0 := by
  rw [Nat.ofDigitChars_cons, Nat.ofDigitChars_eq_ofDigitChars_zero, Nat.mul_zero, Nat.zero_add]

theorem ofDigitChars_lt {digits : List Char} (hdigits : digits.all Char.isDigit = true) :
    Nat.ofDigitChars 10 digits 0 < 10 ^ digits.length := by
  induction digits with
  | nil => exact Nat.one_pos
  | cons c rest ih =>
      rw [List.all_cons, Bool.and_eq_true] at hdigits
      have hrest := ih hdigits.2
      have hdigit := toNat_sub_lt_of_isDigit hdigits.1
      rw [ofDigitChars_cons_eq, List.length_cons, pow_succ]
      have hfirst : 10 ^ rest.length * (c.toNat - '0'.toNat) ≤ 10 ^ rest.length * 9 :=
        Nat.mul_le_mul_left _ (by omega)
      omega

/-- Digits of one length are told apart by their number. -/
theorem digits_injective {digits digits' : List Char} (hdigits : digits.all Char.isDigit = true)
    (hdigits' : digits'.all Char.isDigit = true) (hlength : digits.length = digits'.length)
    (h : Nat.ofDigitChars 10 digits 0 = Nat.ofDigitChars 10 digits' 0) : digits = digits' := by
  induction digits generalizing digits' with
  | nil => exact (List.length_eq_zero_iff.mp hlength.symm).symm
  | cons c rest ih =>
      cases digits' with
      | nil => cases hlength
      | cons d rest' =>
          rw [List.all_cons, Bool.and_eq_true] at hdigits hdigits'
          have hrests : rest.length = rest'.length := Nat.succ.inj hlength
          have hlt := ofDigitChars_lt hdigits.2
          have hlt' := ofDigitChars_lt hdigits'.2
          rw [ofDigitChars_cons_eq, ofDigitChars_cons_eq, ← hrests] at h
          rw [← hrests] at hlt'
          have hfirst : c.toNat - '0'.toNat = d.toNat - '0'.toNat := by
            have hdiv := congrArg (· / 10 ^ rest.length) h
            have hpower : 0 < 10 ^ rest.length := Nat.pow_pos (by decide)
            simpa only [Nat.mul_add_div hpower, Nat.div_eq_of_lt hlt, Nat.div_eq_of_lt hlt', Nat.add_zero] using hdiv
          rw [hfirst, Nat.add_left_cancel_iff] at h
          obtain rfl := ih hdigits.2 hdigits'.2 hrests h
          have hchar : c = d := by
            rw [← digitChar_of_isDigit hdigits.1, ← digitChar_of_isDigit hdigits'.1, hfirst]
          rw [hchar]

theorem ofDigitChars_dropWhile (digits : List Char) :
    Nat.ofDigitChars 10 (digits.dropWhile fun c => c = '0') 0 = Nat.ofDigitChars 10 digits 0 := by
  induction digits with
  | nil => rfl
  | cons c rest ih =>
      rw [List.dropWhile_cons]
      split
      · rename_i hzero
        obtain rfl : c = '0' := by simpa using hzero
        rw [ih, Nat.ofDigitChars_cons]
        rfl
      · rfl


theorem dropWhile_zeros_append (count : Nat) (digits : List Char) :
    (List.replicate count '0' ++ digits).dropWhile (fun c => c = '0') = digits.dropWhile fun c => c = '0' := by
  induction count with
  | zero => rfl
  | succ count ih => rw [List.replicate_succ, List.cons_append, List.dropWhile_cons_of_pos (by decide), ih]

theorem trimZeros_append_zeros (fraction : List Char) (count : Nat) :
    trimZeros (fraction ++ List.replicate count '0') = trimZeros fraction := by
  rw [trimZeros, trimZeros, List.rdropWhile, List.rdropWhile, List.reverse_append, List.reverse_replicate,
    dropWhile_zeros_append]

theorem all_isDigit_zeros (count : Nat) : (List.replicate count '0').all Char.isDigit = true := by
  rw [List.all_eq_true]
  intro c hc
  rw [List.eq_of_mem_replicate hc]
  decide

/-- Digits without the zeros in front are told apart by their number. -/
theorem dropZeros_injective {digits digits' : List Char} (hdigits : digits.all Char.isDigit = true)
    (hdigits' : digits'.all Char.isDigit = true) (h : Nat.ofDigitChars 10 digits 0 = Nat.ofDigitChars 10 digits' 0) :
    (digits.dropWhile fun c => c = '0') = digits'.dropWhile fun c => c = '0' := by
  -- with zeros in front both have the length of the two together
  have hsame : List.replicate digits'.length '0' ++ digits = List.replicate digits.length '0' ++ digits' := by
    apply digits_injective
    · rw [List.all_append, all_isDigit_zeros, hdigits, Bool.and_self]
    · rw [List.all_append, all_isDigit_zeros, hdigits', Bool.and_self]
    · rw [List.length_append, List.length_append, List.length_replicate, List.length_replicate, Nat.add_comm]
    · rw [← ofDigitChars_dropWhile, dropWhile_zeros_append, ofDigitChars_dropWhile, h,
        ← ofDigitChars_dropWhile (List.replicate _ _ ++ _), dropWhile_zeros_append, ofDigitChars_dropWhile]
  rw [← dropWhile_zeros_append digits'.length digits, hsame, dropWhile_zeros_append]

/-- Numbers with a point are told apart by the digits before the point without the zeros in front, and the
digits behind it without the zeros at their end. -/
theorem decimal_injective {whole whole' fraction fraction' : List Char} (hwhole : whole.all Char.isDigit = true)
    (hwhole' : whole'.all Char.isDigit = true) (hfraction : fraction.all Char.isDigit = true)
    (hfraction' : fraction'.all Char.isDigit = true)
    (h : decimalNumber false whole fraction = decimalNumber false whole' fraction') :
    (whole.dropWhile fun c => c = '0') = (whole'.dropWhile fun c => c = '0') ∧ trimZeros fraction = trimZeros fraction' := by
  -- with zeros at their ends both fractions have the length of the two together
  rw [← decimalNumber_append_zeros false whole fraction fraction'.length,
    ← decimalNumber_append_zeros false whole' fraction' fraction.length] at h
  rw [← trimZeros_append_zeros fraction fraction'.length, ← trimZeros_append_zeros fraction' fraction.length]
  have hdigits : (fraction ++ List.replicate fraction'.length '0').all Char.isDigit = true := by
    rw [List.all_append, all_isDigit_zeros, hfraction, Bool.and_self]
  have hdigits' : (fraction' ++ List.replicate fraction.length '0').all Char.isDigit = true := by
    rw [List.all_append, all_isDigit_zeros, hfraction', Bool.and_self]
  have hlength : (fraction ++ List.replicate fraction'.length '0').length
      = (fraction' ++ List.replicate fraction.length '0').length := by
    rw [List.length_append, List.length_append, List.length_replicate, List.length_replicate, Nat.add_comm]
  generalize fraction ++ List.replicate fraction'.length '0' = padded at h hdigits hlength ⊢
  generalize fraction' ++ List.replicate fraction.length '0' = padded' at h hdigits' hlength ⊢
  have hlt := ofDigitChars_lt hdigits
  have hlt' := ofDigitChars_lt hdigits'
  rw [← hlength] at hlt'
  have hpower : (10 : Rat) ^ padded.length ≠ 0 := pow_ne_zero _ (by decide)
  have hsum : 10 ^ padded.length * Nat.ofDigitChars 10 whole 0 + Nat.ofDigitChars 10 padded 0
      = 10 ^ padded.length * Nat.ofDigitChars 10 whole' 0 + Nat.ofDigitChars 10 padded' 0 := by
    simp only [decimalNumber, if_false, Bool.false_eq_true, ← hlength] at h
    rw [div_left_inj' hpower, Nat.cast_inj, Nat.ofDigitChars_append, Nat.ofDigitChars_append,
      Nat.ofDigitChars_eq_ofDigitChars_zero, @Nat.ofDigitChars_eq_ofDigitChars_zero _ (Nat.ofDigitChars 10 whole' 0),
      ← hlength] at h
    exact h
  have hwholes : Nat.ofDigitChars 10 whole 0 = Nat.ofDigitChars 10 whole' 0 := by
    have hdiv := congrArg (· / 10 ^ padded.length) hsum
    have hpositive : 0 < 10 ^ padded.length := Nat.pow_pos (by decide)
    simpa only [Nat.mul_add_div hpositive, Nat.div_eq_of_lt hlt, Nat.div_eq_of_lt hlt', Nat.add_zero] using hdiv
  rw [hwholes, Nat.add_left_cancel_iff] at hsum
  refine ⟨dropZeros_injective hwhole hwhole' hwholes, ?_⟩
  rw [digits_injective hdigits hdigits' hlength hsum]

end CantonSdk.Base
