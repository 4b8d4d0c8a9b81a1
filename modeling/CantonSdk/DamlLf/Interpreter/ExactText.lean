import CantonSdk.DamlLf.Interpreter.ExactArithmetic

/-!
# Decimal text of the interpreter

Reading decimal text gives the number it denotes, and what is written for a decimal denotes it and is read as its
normal form.
-/

set_option linter.all false

namespace CantonSdk.DamlLf.Interpreter

open CantonSdk.Base

theorem ofDigitChars_dropLeadingZeros (digits : List Char) :
    Nat.ofDigitChars 10 (dropLeadingZeros digits) 0 = Nat.ofDigitChars 10 digits 0 := by
  induction digits using dropLeadingZeros.induct with
  | case1 next rest ih =>
      rw [dropLeadingZeros, ih, Nat.ofDigitChars_cons, Nat.ofDigitChars_cons]
      rfl
  | case2 digits hdigits => rw [dropLeadingZeros.eq_2 digits hdigits]

theorem splitSign_eq (text : List Char) :
    text = (if (splitSign text).1 then ['-'] else []) ++ (splitSign text).2 := by
  unfold splitSign
  split <;> rfl

/-- The digits of decimal text. -/
theorem isDecimal_iff (text : List Char) :
    isDecimal text = true ↔
      (splitAtPoint (splitSign text).2).1 ≠ [] ∧ (splitAtPoint (splitSign text).2).1.all Char.isDigit = true ∧
        ∀ fraction, (splitAtPoint (splitSign text).2).2 = some fraction →
          fraction ≠ [] ∧ fraction.all Char.isDigit = true := by
  rw [isDecimal]
  generalize splitAtPoint (splitSign text).2 = parts
  rw [Bool.and_eq_true, Bool.and_eq_true, Bool.not_eq_true', List.isEmpty_eq_false_iff, and_assoc]
  refine and_congr_right fun _ => and_congr_right fun _ => ?_
  cases parts.2 with
  | none => simp
  | some fraction => simp [List.isEmpty_eq_false_iff]

/-- Whether the sign is split off before the point or behind it makes no difference. -/
theorem numericValue_ofList (text : List Char) :
    numericValue (String.ofList text)
      = decimalNumber (splitSign text).1 (splitAtPoint (splitSign text).2).1
          ((splitAtPoint (splitSign text).2).2.getD []) := by
  rw [numericValue, String.toList_ofList]
  have hsign : (splitSign (splitAtPoint text).1).1 = (splitSign text).1
      ∧ (splitSign (splitAtPoint text).1).2 = (splitAtPoint (splitSign text).2).1
      ∧ (splitAtPoint text).2 = (splitAtPoint (splitSign text).2).2 := by
    cases text with
    | nil => exact ⟨rfl, rfl, rfl⟩
    | cons c rest =>
        by_cases hminus : c = '-'
        · subst hminus
          exact ⟨rfl, rfl, rfl⟩
        · have hnone : ∀ others, splitSign (c :: others) = (false, c :: others) := by
            intro others
            rw [splitSign]
            intro digits heq
            exact hminus (List.cons.inj heq).1
          rw [hnone]
          by_cases hpoint : c = '.'
          · subst hpoint
            exact ⟨rfl, rfl, rfl⟩
          · rw [splitAtPoint, if_neg hpoint, hnone]
            exact ⟨rfl, rfl, rfl⟩
  rw [hsign.1, hsign.2.1, hsign.2.2]

/-- Decimal text is read as the number it denotes. -/
theorem parseExactDecimal_eq (value : String) :
    (isDecimal (trim value.toList) = true → ∃ decimal, parseExactDecimal value = .ok decimal
      ∧ decimal.toRat = numericValue (String.ofList (trim value.toList))) ∧
    (isDecimal (trim value.toList) = false → parseExactDecimal value
      = .error (.validation s!"daml lf builtin expected an exact decimal-compatible value, got '{value}'")) := by
  rw [parseExactDecimal]
  constructor
  · intro hdecimal
    rw [hdecimal]
    refine ⟨_, rfl, ?_⟩
    obtain ⟨count, hcount⟩ := eq_trimZeros_append ((splitAtPoint (splitSign (trim value.toList)).2).2.getD [])
    rw [numericValue_ofList]
    conv_rhs => rw [hcount, decimalNumber_append_zeros]
    rw [ExactDecimal.toRat, decimalNumber]
    have hdigits : Nat.ofDigitChars 10 (dropLeadingZeros (dropLeadingZeros (splitAtPoint (splitSign (trim value.toList)).2).1
          ++ trimZeros ((splitAtPoint (splitSign (trim value.toList)).2).2.getD []))) 0
        = Nat.ofDigitChars 10 ((splitAtPoint (splitSign (trim value.toList)).2).1
          ++ trimZeros ((splitAtPoint (splitSign (trim value.toList)).2).2.getD [])) 0 := by
      rw [ofDigitChars_dropLeadingZeros, Nat.ofDigitChars_append, Nat.ofDigitChars_append, ofDigitChars_dropLeadingZeros]
    rw [hdigits]
    cases (splitSign (trim value.toList)).1 with
    | false => simp
    | true => simp [neg_div]
  · intro hdecimal
    rw [hdecimal]
    rfl

/-- What is read as a decimal denotes it. -/
theorem toRat_of_parse {value : String} {decimal : ExactDecimal} (h : parseExactDecimal value = .ok decimal) :
    isDecimal (trim value.toList) = true ∧ decimal.toRat = numericValue (String.ofList (trim value.toList)) := by
  obtain ⟨hok, herror⟩ := parseExactDecimal_eq value
  cases hdecimal : isDecimal (trim value.toList) with
  | false =>
      rw [herror hdecimal] at h
      cases h
  | true =>
      obtain ⟨parsed, hparsed, hvalue⟩ := hok hdecimal
      rw [hparsed] at h
      obtain rfl := Except.ok.inj h
      exact ⟨rfl, hvalue⟩

/-! ## Written text -/

theorem trim_eq_self {text : List Char} (h : ∀ c ∈ text, isTrimmed c = false) : trim text = text := by
  have hfront : text.dropWhile isTrimmed = text := by
    cases text with
    | nil => rfl
    | cons c rest => rw [List.dropWhile_cons_of_neg (by rw [h c List.mem_cons_self]; decide)]
  rw [trim, hfront, List.rdropWhile_eq_self_iff]
  intro hne
  rw [h _ (List.getLast_mem hne)]
  decide

theorem isTrimmed_of_isDigit {c : Char} (h : c.isDigit = true) : isTrimmed c = false := by
  have hbounds : 48 ≤ c.toNat ∧ c.toNat ≤ 57 := by simpa [Char.isDigit, UInt32.le_iff_toNat_le] using h
  rw [isTrimmed, Bool.or_eq_false_iff, Bool.or_eq_false_iff, decide_eq_false_iff_not, decide_eq_false_iff_not,
    List.contains_eq_mem, decide_eq_false_iff_not]
  simp only [List.mem_cons, List.not_mem_nil, or_false]
  omega

theorem point_not_mem {digits : List Char} (h : digits.all Char.isDigit = true) : '.' ∉ digits := by
  intro hmem
  rw [List.all_eq_true] at h
  exact absurd (h _ hmem) (by decide)

section Written

variable {sign whole fraction : List Char} (hsign : sign = [] ∨ sign = ['-']) (hne : whole ≠ [])
  (hwhole : whole.all Char.isDigit = true)

include hsign hne hwhole

theorem splitSign_written (rest : List Char) :
    splitSign (sign ++ (whole ++ rest)) = (decide (sign = ['-']), whole ++ rest) := by
  rcases hsign with rfl | rfl
  · cases whole with
    | nil => exact absurd rfl hne
    | cons c others =>
        have hminus : c ≠ '-' := by
          rintro rfl
          rw [List.all_cons, Bool.and_eq_true] at hwhole
          exact absurd hwhole.1 (by decide)
        rw [List.nil_append, List.cons_append, splitSign]
        · rfl
        · intro digits heq
          exact hminus (List.cons.inj heq).1
  · rfl

/-- An integer with a sign. -/
theorem written_whole :
    isDecimal (sign ++ whole) = true ∧ trim (sign ++ whole) = sign ++ whole ∧
      numericValue (String.ofList (sign ++ whole)) = decimalNumber (decide (sign = ['-'])) whole [] := by
  have hsplit := splitSign_written hsign hne hwhole []
  rw [List.append_nil] at hsplit
  have hpoint := splitAtPoint_of_none (point_not_mem hwhole)
  refine ⟨?_, trim_eq_self ?_, ?_⟩
  · rw [isDecimal_iff, hsplit, hpoint]
    exact ⟨hne, hwhole, fun _ h => absurd h.symm (Option.some_ne_none _)⟩
  · intro c hc
    rcases List.mem_append.mp hc with hmem | hmem
    · rcases hsign with rfl | rfl
      · exact absurd hmem List.not_mem_nil
      · rw [List.mem_singleton.mp hmem]
        decide
    · rw [List.all_eq_true] at hwhole
      exact isTrimmed_of_isDigit (hwhole c hmem)
  · rw [numericValue_ofList, hsplit, hpoint]
    rfl

/-- Digits with a point between them and a sign in front. -/
theorem written_joined (hneFraction : fraction ≠ []) (hfraction : fraction.all Char.isDigit = true) :
    isDecimal (sign ++ whole ++ '.' :: fraction) = true ∧
      trim (sign ++ whole ++ '.' :: fraction) = sign ++ whole ++ '.' :: fraction ∧
      numericValue (String.ofList (sign ++ whole ++ '.' :: fraction))
        = decimalNumber (decide (sign = ['-'])) whole fraction := by
  have hsplit := splitSign_written hsign hne hwhole ('.' :: fraction)
  rw [← List.append_assoc] at hsplit
  have hpoint := splitAtPoint_append (point_not_mem hwhole) fraction
  refine ⟨?_, trim_eq_self ?_, ?_⟩
  · rw [isDecimal_iff, hsplit, hpoint]
    refine ⟨hne, hwhole, ?_⟩
    intro others heq
    obtain rfl := Option.some.inj heq
    exact ⟨hneFraction, hfraction⟩
  · intro c hc
    rw [List.all_eq_true] at hwhole hfraction
    rw [List.mem_append, List.mem_append, List.mem_cons] at hc
    rcases hc with (hmem | hmem) | rfl | hmem
    · rcases hsign with rfl | rfl
      · exact absurd hmem List.not_mem_nil
      · rw [List.mem_singleton.mp hmem]
        decide
    · exact isTrimmed_of_isDigit (hwhole c hmem)
    · decide
    · exact isTrimmed_of_isDigit (hfraction c hmem)
  · rw [numericValue_ofList, hsplit, hpoint]
    rfl

end Written

theorem eq_of_splitAtPoint {text whole : List Char} (h : splitAtPoint text = (whole, none)) : text = whole := by
  induction text generalizing whole with
  | nil => exact (Prod.mk.inj h).1
  | cons c rest ih =>
      rw [splitAtPoint] at h
      split at h
      · exact absurd (Prod.mk.inj h).2 (Option.some_ne_none _)
      · obtain ⟨rfl, hnone⟩ := Prod.mk.inj h
        exact congrArg (c :: ·) (ih (Prod.ext rfl hnone))

/-- There is no space around decimal text. -/
theorem trim_of_isDecimal {text : List Char} (h : isDecimal text = true) : trim text = text := by
  obtain ⟨hne, hwhole, hfraction⟩ := (isDecimal_iff text).mp h
  have hsign : (if (splitSign text).1 then ['-'] else []) = [] ∨ (if (splitSign text).1 then ['-'] else []) = ['-'] := by
    split <;> simp
  have htext := splitSign_eq text
  cases hparts : (splitAtPoint (splitSign text).2).2 with
  | none =>
      have hunsigned := eq_of_splitAtPoint (Prod.ext rfl hparts)
      rw [hunsigned] at htext
      rw [htext]
      exact (written_whole hsign hne hwhole).2.1
  | some fraction =>
      obtain ⟨hneFraction, hdigits⟩ := hfraction fraction hparts
      have hunsigned := (splitAtPoint_eq (Prod.ext rfl hparts)).1
      rw [hunsigned, ← List.append_assoc] at htext
      rw [htext]
      exact (written_joined hsign hne hwhole hneFraction hdigits).2.1

/-- What is written for a decimal is decimal text that denotes it. -/
theorem formatExactDecimal_spec (value : ExactDecimal) :
    isDecimal (formatExactDecimal value).toList = true ∧
      trim (formatExactDecimal value).toList = (formatExactDecimal value).toList ∧
      numericValue (formatExactDecimal value) = value.toRat := by
  have hrat := toRat_normalize value
  rw [formatExactDecimal]
  generalize normalizeExactDecimal value = normalized at hrat ⊢
  have hsign : (if normalized.significand < 0 then ['-'] else []) = []
      ∨ (if normalized.significand < 0 then ['-'] else []) = ['-'] := by
    split <;> simp
  have hnegative : decide ((if normalized.significand < 0 then ['-'] else []) = ['-'])
      = decide (normalized.significand < 0) := by
    split <;> simp [*]
  have hdigits : ∀ c ∈ Nat.toDigits 10 normalized.significand.natAbs, c.isDigit = true := fun c hc =>
    Nat.isDigit_of_mem_toDigits (by decide) (by decide) hc
  have hsigned : ∀ whole fraction : List Char, fraction.length = normalized.scale →
      Nat.ofDigitChars 10 (whole ++ fraction) 0 = normalized.significand.natAbs →
      decimalNumber (decide (normalized.significand < 0)) whole fraction = value.toRat := by
    intro whole fraction hlength hnumber
    have habs : ((normalized.significand.natAbs : Nat) : ℚ) = |(normalized.significand : ℚ)| := by
      rw [Nat.cast_natAbs, Int.cast_abs]
    rw [decimalNumber, hnumber, hlength, ← hrat, ExactDecimal.toRat, habs]
    split
    · rename_i hlt
      have hneg : (normalized.significand : ℚ) < 0 := by exact_mod_cast of_decide_eq_true hlt
      rw [abs_of_neg hneg, neg_div, neg_neg]
    · rename_i hge
      have hnonneg : (0 : ℚ) ≤ normalized.significand := by
        exact_mod_cast not_lt.mp (of_decide_eq_false (Bool.not_eq_true _ ▸ hge))
      rw [abs_of_nonneg hnonneg]
  dsimp only
  split
  · rename_i hscale
    have hwritten := @written_whole _ (Nat.toDigits 10 normalized.significand.natAbs) hsign
      (List.length_pos_iff.mp Nat.length_toDigits_pos) (List.all_eq_true.mpr hdigits)
    rw [String.toList_ofList, hwritten.2.2, hnegative]
    refine ⟨hwritten.1, hwritten.2.1, hsigned _ _ hscale.symm ?_⟩
    rw [List.append_nil, Nat.ofDigitChars_ten_toDigits]
  · rename_i hscale
    have hlength : normalized.scale + 1 ≤
        (padStart (normalized.scale + 1) '0' (Nat.toDigits 10 normalized.significand.natAbs)).length := by
      rw [padStart, List.length_append, List.length_replicate]
      omega
    have hnumber : Nat.ofDigitChars 10
        (padStart (normalized.scale + 1) '0' (Nat.toDigits 10 normalized.significand.natAbs)) 0
        = normalized.significand.natAbs := by
      rw [padStart, ofDigitChars_replicate_zero, Nat.ofDigitChars_ten_toDigits]
    have hpadded : ∀ c ∈ padStart (normalized.scale + 1) '0' (Nat.toDigits 10 normalized.significand.natAbs),
        c.isDigit = true := by
      intro c hc
      rcases List.mem_append.mp hc with hmem | hmem
      · rw [List.eq_of_mem_replicate hmem]
        decide
      · exact hdigits c hmem
    generalize padStart (normalized.scale + 1) '0' (Nat.toDigits 10 normalized.significand.natAbs) = padded at *
    have htake : (padded.take (padded.length - normalized.scale)).length = padded.length - normalized.scale := by
      rw [List.length_take]
      omega
    have hdrop : (padded.drop (padded.length - normalized.scale)).length = normalized.scale := by
      rw [List.length_drop]
      omega
    have hwritten := @written_joined _ (padded.take (padded.length - normalized.scale))
      (padded.drop (padded.length - normalized.scale)) hsign
      (List.length_pos_iff.mp (by omega))
      (List.all_eq_true.mpr fun c hc => hpadded c (List.mem_of_mem_take hc))
      (List.length_pos_iff.mp (by omega))
      (List.all_eq_true.mpr fun c hc => hpadded c (List.mem_of_mem_drop hc))
    rw [String.toList_ofList, hwritten.2.2, hnegative]
    refine ⟨hwritten.1, hwritten.2.1, hsigned _ _ hdrop ?_⟩
    rw [List.take_append_drop, hnumber]

/-- What is written for a decimal is read as a decimal of the same number. -/
theorem parse_formatExactDecimal (value : ExactDecimal) :
    ∃ decimal, parseExactDecimal (formatExactDecimal value) = .ok decimal ∧ decimal.toRat = value.toRat := by
  obtain ⟨hdecimal, htrim, hvalue⟩ := formatExactDecimal_spec value
  obtain ⟨decimal, hparse, hrat⟩ := (parseExactDecimal_eq (formatExactDecimal value)).1 (by rw [htrim, hdecimal])
  refine ⟨decimal, hparse, ?_⟩
  rw [hrat, htrim, String.ofList_toList, hvalue]

end CantonSdk.DamlLf.Interpreter
