import CantonSdk.Base.Readable
import CantonSdk.DamlValues.Meaning
import Mathlib.Algebra.Order.Field.Rat
import Mathlib.Tactic.Linarith

/-!
# Text of numerics

The digits of text that is put together from a sign, digits, a point and more digits, that canonical text of a
numeric denotes what the text that it is made from denotes, and that the key of a numeric says no more than its
number.
-/

set_option linter.all false

namespace CantonSdk.DamlValues

open CantonSdk.Base CantonSdk.Query.Grpc

variable {sign whole fraction : List Char}

theorem not_point (hwhole : '.' ∉ whole) : ∀ c ∈ whole, decide (c ≠ '.') = true := by
  intro c hc
  rw [decide_eq_true_eq]
  rintro rfl
  exact hwhole hc

theorem splitPoint_append (hwhole : '.' ∉ whole) : splitPoint (whole ++ '.' :: fraction) = (whole, some fraction) := by
  rw [splitPoint, span_append (not_point hwhole) (by simp)]

theorem splitPoint_of_none (hwhole : '.' ∉ whole) : splitPoint whole = (whole, none) := by
  have hspan : whole.span (fun c => decide (c ≠ '.')) = (whole, []) := by
    conv_lhs => rw [← List.append_nil whole]
    exact span_append (not_point hwhole) (by simp)
  rw [splitPoint, hspan]

theorem not_mem_of_digits {c : Char} (hdigits : whole.all Char.isDigit = true) (hc : c.isDigit = false) :
    c ∉ whole := by
  intro hmem
  rw [List.all_eq_true] at hdigits
  rw [hdigits c hmem] at hc
  cases hc

/-- Text of digits does not start with a sign. -/
theorem dropSign_digits (hwhole : whole ≠ []) (hdigits : whole.all Char.isDigit = true) (rest : List Char) :
    dropSign (whole ++ rest) = whole ++ rest ∧ (whole ++ rest).head? ≠ some '-' := by
  cases whole with
  | nil => exact absurd rfl hwhole
  | cons c others =>
      rw [List.all_cons, Bool.and_eq_true] at hdigits
      have hminus : c ≠ '-' := by
        rintro rfl
        exact absurd hdigits.1 (by decide)
      have hplus : c ≠ '+' := by
        rintro rfl
        exact absurd hdigits.1 (by decide)
      rw [List.cons_append]
      constructor
      · unfold dropSign
        split
        · exact absurd (List.cons.inj ‹_›).1 hminus
        · exact absurd (List.cons.inj ‹_›).1 hplus
        · rfl
      · simpa using hminus

theorem dropSign_append (hsign : sign = [] ∨ sign = ['-']) (hwhole : whole ≠ [])
    (hdigits : whole.all Char.isDigit = true) (rest : List Char) :
    dropSign (sign ++ (whole ++ rest)) = whole ++ rest := by
  rcases hsign with rfl | rfl
  · exact (dropSign_digits hwhole hdigits rest).1
  · rfl

/-- Digits with a point between them and a sign in front. -/
theorem numericParts_joined (hsign : sign = [] ∨ sign = ['-']) (hwhole : whole ≠ [])
    (hdigits : whole.all Char.isDigit = true) (hfraction : fraction.all Char.isDigit = true) :
    numericParts (String.ofList (sign ++ whole ++ '.' :: fraction)) = some (whole, fraction) := by
  have hempty : whole.isEmpty = false := by rwa [List.isEmpty_eq_false_iff]
  have hpoint : '.' ∉ whole := not_mem_of_digits hdigits (by decide)
  rw [numericParts, String.toList_ofList, List.append_assoc, dropSign_append hsign hwhole hdigits,
    splitPoint_append hpoint]
  simp only [hempty, hdigits, Option.getD_some, hfraction]
  rfl

theorem numericParts_whole (hsign : sign = [] ∨ sign = ['-']) (hwhole : whole ≠ [])
    (hdigits : whole.all Char.isDigit = true) :
    numericParts (String.ofList (sign ++ whole)) = some (whole, []) := by
  have hempty : whole.isEmpty = false := by rwa [List.isEmpty_eq_false_iff]
  have hdrop := dropSign_append hsign hwhole hdigits []
  have hpoint : '.' ∉ whole := not_mem_of_digits hdigits (by decide)
  rw [List.append_nil] at hdrop
  rw [numericParts, String.toList_ofList, hdrop, splitPoint_of_none hpoint]
  simp only [hempty, hdigits, Option.getD_none]
  rfl

/-- The first character of such text is a minus sign only if it has that sign. -/
theorem head_signed (hsign : sign = [] ∨ sign = ['-']) (hwhole : whole ≠ [])
    (hdigits : whole.all Char.isDigit = true) (rest : List Char) :
    (sign ++ (whole ++ rest)).head? = some '-' ↔ sign = ['-'] := by
  rcases hsign with rfl | rfl
  · simpa using (dropSign_digits hwhole hdigits rest).2
  · simp

/-! ## Integers -/

/-- The text of an integer denotes it. -/
theorem signedDecimal_toString (n : Int) : signedDecimal (toString n) = some n := by
  cases n with
  | ofNat n =>
      have hcanonical := canonicalDigits_toDigits n
      rw [signedDecimal, toList_toString_ofNat]
      split
      · rename_i digits heq
        rw [heq] at hcanonical
        cases hcanonical
      · rw [if_pos hcanonical, Nat.ofDigitChars_ten_toDigits]
        rfl
  | negSucc n =>
      rw [signedDecimal, toList_toString_negSucc]
      change (if _ then _ else _) = _
      rw [if_pos (canonicalDigits_toDigits (n + 1)), Nat.ofDigitChars_ten_toDigits]
      rfl

/-! ## Zeros in front -/

theorem ofDigitChars_canonicalWhole (digits : List Char) :
    Nat.ofDigitChars 10 (canonicalWhole digits) 0 = Nat.ofDigitChars 10 digits 0 := by
  rw [canonicalWhole]
  split
  · rename_i hempty
    rw [← ofDigitChars_dropWhile digits, List.isEmpty_iff.mp hempty]
    rfl
  · exact ofDigitChars_dropWhile digits

theorem canonicalWhole_ne_nil (digits : List Char) : canonicalWhole digits ≠ [] := by
  rw [canonicalWhole]
  split
  · exact List.cons_ne_nil _ _
  · rename_i hempty
    rwa [List.isEmpty_iff] at hempty

theorem canonicalWhole_digits (h : whole.all Char.isDigit = true) : (canonicalWhole whole).all Char.isDigit = true := by
  rw [canonicalWhole]
  split
  · rfl
  · rw [List.all_eq_true] at h ⊢
    exact fun c hc => h c (List.dropWhile_subset _ hc)

theorem dropWhile_canonicalWhole (digits : List Char) :
    (canonicalWhole digits).dropWhile (fun c => c = '0') = digits.dropWhile fun c => c = '0' := by
  rw [canonicalWhole]
  split
  · rename_i hempty
    rw [List.isEmpty_iff.mp hempty]
    rfl
  · exact List.dropWhile_idempotent _ _

theorem length_canonicalWhole_le (h : whole ≠ []) : (canonicalWhole whole).length ≤ whole.length := by
  rw [canonicalWhole]
  split
  · exact List.length_pos_of_ne_nil h
  · exact (List.dropWhile_suffix _).length_le

theorem decimalNumber_canonicalWhole (negative : Bool) (whole fraction : List Char) :
    decimalNumber negative (canonicalWhole whole) fraction = decimalNumber negative whole fraction := by
  unfold decimalNumber
  rw [Nat.ofDigitChars_append, Nat.ofDigitChars_append, ofDigitChars_canonicalWhole]

/-! ## Canonical text -/

theorem numericParts_eq {text : String} (h : numericParts text = some (whole, fraction)) :
    whole ≠ [] ∧ whole.all Char.isDigit = true ∧ fraction.all Char.isDigit = true := by
  simp only [numericParts] at h
  split at h
  · cases h
  · rename_i hcheck
    obtain ⟨rfl, rfl⟩ := Prod.mk.inj (Option.some.inj h)
    simp only [Bool.or_eq_true, Bool.not_eq_true', not_or, Bool.not_eq_true, Bool.not_eq_false,
      List.isEmpty_eq_false_iff] at hcheck
    exact ⟨hcheck.1.1, hcheck.1.2, hcheck.2⟩

theorem decodeNumeric_eq_ok {text path : String} {numericScale : Option Int} {decoded : DamlValue}
    (h : decodeNumeric text numericScale path = .ok decoded) :
    ∃ whole fraction, numericParts text = some (whole, fraction) ∧
      decoded = .numeric (canonicalizeLedgerNumeric text whole fraction) := by
  unfold decodeNumeric at h
  split at h
  · cases h
  · rename_i whole fraction hparts
    dsimp only at h
    by_cases hscale : numericScale.getD 37 < 0 ∨ numericScale.getD 37 > 37
    · rw [if_pos hscale] at h
      cases h
    · rw [if_neg hscale] at h
      split at h
      · cases h
      · split at h
        · cases h
        · exact ⟨whole, fraction, hparts, (Except.ok.inj h).symm⟩

theorem numericParts_canonical {text : String} (h : numericParts text = some (whole, fraction)) :
    numericParts (canonicalizeLedgerNumeric text whole fraction) = some (canonicalWhole whole, fraction) ∧
      spelledNumber (canonicalizeLedgerNumeric text whole fraction) (canonicalWhole whole) fraction
        = spelledNumber text whole fraction := by
  obtain ⟨_, hdigits, hfraction⟩ := numericParts_eq h
  have hwhole := canonicalWhole_ne_nil whole
  have hcanonical := canonicalWhole_digits hdigits
  obtain ⟨sign, hsign, hminus, hjoined⟩ : ∃ sign : List Char, (sign = [] ∨ sign = ['-']) ∧
      (sign = ['-'] ↔ text.toList.head? = some '-') ∧
      canonicalizeLedgerNumeric text whole fraction
        = if fraction.isEmpty then String.ofList (sign ++ canonicalWhole whole)
          else String.ofList (sign ++ canonicalWhole whole ++ '.' :: fraction) := by
    by_cases hhead : text.toList.head? = some '-'
    · refine ⟨['-'], .inr rfl, iff_of_true rfl hhead, ?_⟩
      simp only [canonicalizeLedgerNumeric, if_pos hhead]
    · refine ⟨[], .inl rfl, iff_of_false nofun hhead, ?_⟩
      simp only [canonicalizeLedgerNumeric, if_neg hhead]
  rw [hjoined, spelledNumber, spelledNumber]
  split
  · rename_i hempty
    obtain rfl := List.isEmpty_iff.mp hempty
    have hhead := head_signed hsign hwhole hcanonical []
    rw [List.append_nil] at hhead
    refine ⟨numericParts_whole hsign hwhole hcanonical, ?_⟩
    rw [String.toList_ofList, decimalNumber_canonicalWhole, decide_eq_decide.mpr (hhead.trans hminus)]
  · have hhead := head_signed hsign hwhole hcanonical ('.' :: fraction)
    refine ⟨numericParts_joined hsign hwhole hcanonical hfraction, ?_⟩
    rw [String.toList_ofList, decimalNumber_canonicalWhole, List.append_assoc,
      decide_eq_decide.mpr (hhead.trans hminus)]

/-- The canonical text of a numeric denotes the same number. -/
theorem numericMeaning_canonical {numericScale : Option Int} {text : String} {meaning : Meaning}
    (hmeaning : numericMeaning numericScale text = some meaning) (h : numericParts text = some (whole, fraction)) :
    numericMeaning numericScale (canonicalizeLedgerNumeric text whole fraction) = some meaning := by
  have hne := (numericParts_eq h).1
  obtain ⟨hparts, hnumber⟩ := numericParts_canonical h
  unfold numericMeaning at hmeaning ⊢
  rw [h] at hmeaning
  rw [hparts]
  simp only [Option.ite_none_right_eq_some] at hmeaning ⊢
  obtain ⟨⟨hlength, hfraction, hscale⟩, hspelled⟩ := hmeaning
  have hcanonical := length_canonicalWhole_le hne
  refine ⟨⟨by omega, hfraction, ?_⟩, ?_⟩
  · unfold isRepresentable at hscale ⊢
    rwa [dropWhile_canonicalWhole]
  · rw [hnumber]
    exact hspelled

/-! ## Keys -/

theorem decimalNumber_sign (negative : Bool) (whole fraction : List Char) :
    decimalNumber negative whole fraction
      = if negative then -decimalNumber false whole fraction else decimalNumber false whole fraction := by
  cases negative <;> rfl

theorem decimalNumber_nonneg (whole fraction : List Char) : 0 ≤ decimalNumber false whole fraction := by
  have hpower : (0 : Rat) ≤ 10 ^ fraction.length := pow_nonneg (by decide) _
  exact div_nonneg (Nat.cast_nonneg _) hpower

/-- Equal numbers have the same digits once the needless zeros are gone, and the same sign unless they are zero. -/
theorem canonicalParts_of_eq {negative negative' : Bool} {whole' fraction' : List Char}
    (hwhole : whole.all Char.isDigit = true) (hwhole' : whole'.all Char.isDigit = true)
    (hfraction : fraction.all Char.isDigit = true) (hfraction' : fraction'.all Char.isDigit = true)
    (h : decimalNumber negative whole fraction = decimalNumber negative' whole' fraction') :
    canonicalWhole whole = canonicalWhole whole' ∧ trimZeros fraction = trimZeros fraction' ∧
      (negative = negative' ∨ canonicalWhole whole = ['0'] ∧ trimZeros fraction = []) := by
  have hmagnitude : decimalNumber false whole fraction = decimalNumber false whole' fraction' ∧
      (negative = negative' ∨ decimalNumber false whole fraction = 0) := by
    have hle := decimalNumber_nonneg whole fraction
    have hle' := decimalNumber_nonneg whole' fraction'
    rw [decimalNumber_sign, decimalNumber_sign negative'] at h
    cases negative <;> cases negative' <;> simp only [Bool.false_eq_true, if_true, if_false, neg_inj] at h
    · exact ⟨h, .inl rfl⟩
    · exact ⟨by linarith, .inr (by linarith)⟩
    · exact ⟨by linarith, .inr (by linarith)⟩
    · exact ⟨h, .inl rfl⟩
  obtain ⟨hsame, hsign⟩ := hmagnitude
  have hparts : ∀ {digits digits' : List Char}, (digits.dropWhile fun c => c = '0') = (digits'.dropWhile fun c => c = '0')
      → canonicalWhole digits = canonicalWhole digits' := by
    intro digits digits' hdrop
    rw [canonicalWhole, canonicalWhole, hdrop]
  obtain ⟨hdrop, htrim⟩ := decimal_injective hwhole hwhole' hfraction hfraction' hsame
  refine ⟨hparts hdrop, htrim, hsign.imp_right ?_⟩
  intro hzero
  have hnothing : decimalNumber false [] [] = 0 := by simp [decimalNumber]
  obtain ⟨hdrop, htrim⟩ := decimal_injective hwhole rfl hfraction rfl (hzero.trans hnothing.symm)
  exact ⟨hparts hdrop, htrim⟩

theorem trimZeros_digits (h : fraction.all Char.isDigit = true) : (trimZeros fraction).all Char.isDigit = true := by
  rw [List.all_eq_true] at h ⊢
  exact fun c hc => h c ((List.rdropWhile_prefix _ _).subset hc)

/-- The key of a numeric, by its digits. -/
theorem canonicalNumeric_eq {text : String} (h : numericParts text = some (whole, fraction)) :
    canonicalNumeric text
      = if canonicalWhole whole = ['0'] ∧ trimZeros fraction = [] then "0"
        else (if text.toList.head? = some '-' then "-" else "") ++ joinPoint (canonicalWhole whole) (trimZeros fraction) := by
  simp only [numericParts] at h
  split at h
  · cases h
  · obtain ⟨rfl, rfl⟩ := Prod.mk.inj (Option.some.inj h)
    have hwhole : ∀ digits : List Char, (if digits.dropWhile (fun c => decide (c = '0')) = [] then ['0']
        else digits.dropWhile fun c => decide (c = '0')) = canonicalWhole digits := by
      intro digits
      simp only [canonicalWhole, List.isEmpty_iff]
    have hfraction : ∀ digits : List Char, (digits.reverse.dropWhile fun c => decide (c = '0')).reverse = trimZeros digits :=
      fun _ => rfl
    simp only [canonicalNumeric, hwhole, hfraction, joinPoint, List.isEmpty_iff]
    split
    · rfl
    · rw [String.append_assoc]
      congr 1
      split
      · rw [String.append_empty]
      · rw [← String.toList_inj]
        simp

/-- Numerics with one number have one key. -/
theorem canonicalNumeric_congr {text text' : String} {whole' fraction' : List Char}
    (h : numericParts text = some (whole, fraction)) (h' : numericParts text' = some (whole', fraction'))
    (hnumber : spelledNumber text whole fraction = spelledNumber text' whole' fraction') :
    canonicalNumeric text = canonicalNumeric text' := by
  obtain ⟨_, hwhole, hfraction⟩ := numericParts_eq h
  obtain ⟨_, hwhole', hfraction'⟩ := numericParts_eq h'
  obtain ⟨hsame, htrim, hsign⟩ := canonicalParts_of_eq hwhole hwhole' hfraction hfraction' hnumber
  rw [canonicalNumeric_eq h, canonicalNumeric_eq h', ← hsame, ← htrim]
  rcases hsign with hsign | hzero
  · rw [decide_eq_decide] at hsign
    simp only [hsign]
  · rw [if_pos hzero, if_pos hzero]

/-- The key of a numeric spells its number. -/
theorem numericParts_canonicalNumeric {text : String} (h : numericParts text = some (whole, fraction)) :
    ∃ whole' fraction', numericParts (canonicalNumeric text) = some (whole', fraction') ∧
      spelledNumber (canonicalNumeric text) whole' fraction' = spelledNumber text whole fraction := by
  obtain ⟨_, hdigits, hfraction⟩ := numericParts_eq h
  have hwhole := canonicalWhole_ne_nil whole
  have hcanonical := canonicalWhole_digits hdigits
  have htrim := trimZeros_digits hfraction
  have hnumber : spelledNumber text whole fraction
      = decimalNumber (decide (text.toList.head? = some '-')) (canonicalWhole whole) (trimZeros fraction) := by
    obtain ⟨count, hcount⟩ := eq_trimZeros_append fraction
    rw [spelledNumber, decimalNumber_canonicalWhole]
    conv_lhs => rw [hcount, decimalNumber_append_zeros]
  rw [canonicalNumeric_eq h, hnumber]
  split
  · rename_i hzero
    refine ⟨['0'], [], rfl, ?_⟩
    have hnothing : decimalNumber false ['0'] [] = 0 := by decide +kernel
    rw [hzero.1, hzero.2, decimalNumber_sign, hnothing, neg_zero, ite_self]
    exact hnothing
  · obtain ⟨sign, hsign, hminus, htext⟩ : ∃ sign : List Char, (sign = [] ∨ sign = ['-']) ∧
        (sign = ['-'] ↔ text.toList.head? = some '-') ∧
        (if text.toList.head? = some '-' then "-" else "") = String.ofList sign := by
      by_cases hhead : text.toList.head? = some '-'
      · exact ⟨['-'], .inr rfl, iff_of_true rfl hhead, if_pos hhead⟩
      · exact ⟨[], .inl rfl, iff_of_false nofun hhead, if_neg hhead⟩
    refine ⟨canonicalWhole whole, trimZeros fraction, ?_, ?_⟩
    · rw [htext, joinPoint]
      split
      · rename_i hempty
        rw [← String.ofList_append, List.isEmpty_iff.mp hempty]
        exact numericParts_whole hsign hwhole hcanonical
      · rw [← String.ofList_append, ← List.append_assoc]
        exact numericParts_joined hsign hwhole hcanonical htrim
    · have hhead : (String.ofList sign ++ joinPoint (canonicalWhole whole) (trimZeros fraction)).toList.head? = some '-'
          ↔ sign = ['-'] := by
        rw [joinPoint]
        split
        · have hplain := head_signed hsign hwhole hcanonical []
          rwa [List.append_nil, ← @String.toList_ofList (sign ++ canonicalWhole whole), String.ofList_append] at hplain
        · rw [← String.ofList_append, String.toList_ofList]
          exact head_signed hsign hwhole hcanonical _
      rw [htext, spelledNumber, decide_eq_decide.mpr (hhead.trans hminus)]

end CantonSdk.DamlValues
