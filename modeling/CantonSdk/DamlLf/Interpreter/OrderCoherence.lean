import CantonSdk.Base.CodePointOrder
import CantonSdk.DamlLf.Interpreter.BuiltinDispatch
import CantonSdk.DamlLf.Interpreter.ExactText

/-!
# Equality and order

Equality looks at the text of two values. Comparison first reads both as decimals, whatever their type, then as text
by code unit, and does not read parties at all. The two agree with the order of the type only where these readings
do.
-/

set_option linter.all false

namespace CantonSdk.DamlLf.Interpreter

open CantonSdk.Base

variable {κ : Type}

/-- The types that are compared. -/
inductive ComparedType
  | int64
  | numeric
  | text
  | party
  deriving DecidableEq

namespace ComparedType

/-- The runtime value of a type with this text. -/
def value : ComparedType → String → RuntimeValue κ
  | .int64, written => .int64 written
  | .numeric, written => .numeric written
  | .text, written => .text written
  | .party, written => .party written

/-- The text of a value of the type: digits with a sign for integers, and also with a point for numerics. -/
def HasText : ComparedType → String → Prop
  | .int64, written => isDecimal written.toList = true ∧ '.' ∉ written.toList
  | .numeric, written => isDecimal written.toList = true
  | .text, _ => True
  | .party, _ => True

/-- The order of the type: of the numbers, or of the texts by code point. -/
def Less : ComparedType → String → String → Prop
  | .int64, left, right => numericValue left < numericValue right
  | .numeric, left, right => numericValue left < numericValue right
  | .text, left, right => left < right
  | .party, left, right => left < right

end ComparedType

-- how the host writes a function value, with the frame that it belongs to
variable (functionText : κ → String)

/-- A built-in function answers a pair of values. -/
def Answers (builtinFunction : BuiltinFunction) (left right : RuntimeValue κ) (answer : Bool) : Prop :=
  applyOrThrow functionText builtinFunction [] [left, right] = .ok (.boolean answer)

/-- On a pair of values equality and comparison agree with one another and with the order of the type. -/
def Coherent (type : ComparedType) (left right : String) : Prop :=
  ∃ equal less greater lessEq greaterEq : Bool,
    Answers functionText .equal (type.value left) (type.value right) equal ∧
    Answers functionText .less (type.value left) (type.value right) less ∧
    Answers functionText .greater (type.value left) (type.value right) greater ∧
    Answers functionText .lessEq (type.value left) (type.value right) lessEq ∧
    Answers functionText .greaterEq (type.value left) (type.value right) greaterEq ∧
    (equal = true ↔ less = false ∧ greater = false) ∧ lessEq = !greater ∧ greaterEq = !less ∧
    (less = true ↔ type.Less left right) ∧ (greater = true ↔ type.Less right left)

/-- Both texts are read as decimals. -/
def BothDecimal (left right : String) : Prop :=
  isDecimal (trim left.toList) = true ∧ isDecimal (trim right.toList) = true

/-- The number that text is read as. -/
def readNumber (text : String) : ℚ := numericValue (String.ofList (trim text.toList))

/-- When the readings agree: the same number is written the same, text that is read as numbers is in the order of these,
and other text does not cross where it differs first. Parties are never compared. -/
def ReadsCoherently : ComparedType → String → String → Prop
  | .int64, left, right => left = right ∨ numericValue left ≠ numericValue right
  | .numeric, left, right => left = right ∨ numericValue left ≠ numericValue right
  | .text, left, right =>
      (BothDecimal left right → left = right ∨ (readNumber left < readNumber right ∧ left < right)
        ∨ (readNumber right < readNumber left ∧ right < left))
      ∧ (¬ BothDecimal left right → firstCrosses left.toList right.toList = false)
  | .party, _, _ => False

/-! ## Comparison -/

theorem apply_equal (left right : RuntimeValue κ) :
    applyOrThrow functionText .equal [] [left, right] = .ok (.boolean (areEqual functionText left right)) := rfl

section Comparison

variable {left right : RuntimeValue κ} (hleft : left.isUnit = false) (hright : right.isUnit = false)

include hleft hright

theorem apply_comparison :
    applyOrThrow functionText .less [] [left, right]
        = (compareValues left right).map (fun ordering => .boolean (decide (ordering = .lt))) ∧
      applyOrThrow functionText .greater [] [left, right]
        = (compareValues left right).map (fun ordering => .boolean (decide (ordering = .gt))) ∧
      applyOrThrow functionText .lessEq [] [left, right]
        = (compareValues left right).map (fun ordering => .boolean (decide (ordering ≠ .gt))) ∧
      applyOrThrow functionText .greaterEq [] [left, right]
        = (compareValues left right).map (fun ordering => .boolean (decide (ordering ≠ .lt))) := by
  have harguments : ([] ++ [left, right]).filter (fun argument => !argument.isUnit) = [left, right] := by
    simp [hleft, hright]
  refine ⟨?_, ?_, ?_, ?_⟩ <;> simp only [applyOrThrow, harguments]

end Comparison

theorem value_isUnit (type : ComparedType) (text : String) : (type.value text : RuntimeValue κ).isUnit = false := by
  cases type <;> rfl

/-- Coherence is about the one comparison that all four built-in functions make. -/
theorem coherent_iff_of_ok (type : ComparedType) {left right : String} {ordering : Ordering}
    (h : compareValues (type.value left : RuntimeValue κ) (type.value right) = .ok ordering) :
    Coherent functionText type left right ↔
      (areEqual functionText (type.value left) (type.value right) = true ↔ ordering = .eq) ∧
        (ordering = .lt ↔ type.Less left right) ∧ (ordering = .gt ↔ type.Less right left) := by
  obtain ⟨hless, hgreater, hlessEq, hgreaterEq⟩ :=
    apply_comparison functionText (value_isUnit (κ := κ) type left) (value_isUnit type right)
  rw [h] at hless hgreater hlessEq hgreaterEq
  unfold Coherent Answers
  rw [apply_equal, hless, hgreater, hlessEq, hgreaterEq]
  simp only [Except.map, Except.ok.injEq, RuntimeValue.boolean.injEq]
  constructor
  · rintro ⟨equal, less, greater, lessEq, greaterEq, rfl, rfl, rfl, rfl, rfl, hequal, -, -, hlt, hgt⟩
    rw [decide_eq_true_iff] at hlt hgt
    refine ⟨?_, hlt, hgt⟩
    rw [hequal]
    cases ordering <;> decide
  · rintro ⟨hequal, hlt, hgt⟩
    refine ⟨_, _, _, _, _, rfl, rfl, rfl, rfl, rfl, ?_, ?_, ?_, ?_, ?_⟩
    · rw [hequal]
      cases ordering <;> decide
    · cases ordering <;> rfl
    · cases ordering <;> rfl
    · rw [decide_eq_true_iff, hlt]
    · rw [decide_eq_true_iff, hgt]

theorem not_coherent_of_error {type : ComparedType} {left right : String} {error : HostError}
    (h : compareValues (type.value left : RuntimeValue κ) (type.value right) = .error error) :
    ¬ Coherent functionText type left right := by
  rintro ⟨equal, less, greater, lessEq, greaterEq, -, hanswer, -⟩
  have hless := (apply_comparison functionText (value_isUnit (κ := κ) type left) (value_isUnit type right)).1
  rw [h] at hless
  rw [Answers, hless] at hanswer
  cases hanswer

theorem compareValues_of_decimals {left right : RuntimeValue κ} {x y : ExactDecimal}
    (hleft : readExactDecimal left = .ok x) (hright : readExactDecimal right = .ok y) :
    compareValues left right
      = .ok (if x.toRat < y.toRat then .lt else if y.toRat < x.toRat then .gt else .eq) := by
  rw [compareValues, tryReadExactDecimal, tryReadExactDecimal, hleft, hright, ← compareExactDecimals_eq]
  rfl

theorem tryRead_text (text : String) :
    (tryReadExactDecimal (.text text : RuntimeValue κ)).isSome = isDecimal (trim text.toList) := by
  have hread : readExactDecimal (.text text : RuntimeValue κ) = parseExactDecimal text := rfl
  obtain ⟨hok, herror⟩ := parseExactDecimal_eq text
  rw [tryReadExactDecimal, hread]
  cases hdecimal : isDecimal (trim text.toList) with
  | true =>
      obtain ⟨decimal, hparse, -⟩ := hok hdecimal
      rw [hparse]
      rfl
  | false =>
      rw [herror hdecimal]
      rfl

/-- Text that is not read as decimals on both sides is compared by code unit. -/
theorem compareValues_texts {left right : String} (h : ¬ BothDecimal left right) :
    compareValues (.text left : RuntimeValue κ) (.text right) = .ok (compareText left right) := by
  have hleft := tryRead_text (κ := κ) left
  have hright := tryRead_text (κ := κ) right
  rw [compareValues]
  split
  · rename_i hfirst hsecond
    rw [hfirst] at hleft
    rw [hsecond] at hright
    exact absurd ⟨hleft.symm, hright.symm⟩ h
  · rfl

/-- Numbers are ordered as one number less than the other, or as equal. -/
theorem ordering_of_numbers (x y : ℚ) (less greater equal : Prop) :
    ((equal ↔ (if x < y then Ordering.lt else if y < x then .gt else .eq) = .eq) ∧
      ((if x < y then Ordering.lt else if y < x then .gt else .eq) = .lt ↔ less) ∧
      ((if x < y then Ordering.lt else if y < x then .gt else .eq) = .gt ↔ greater)) ↔
    (equal ↔ x = y) ∧ (x < y ↔ less) ∧ (y < x ↔ greater) := by
  rcases lt_trichotomy x y with hlt | heq | hgt
  · simp [hlt, hlt.ne, not_lt_of_gt hlt]
  · simp [heq]
  · simp [hgt, hgt.ne', not_lt_of_gt hgt]

theorem areEqual_value (type : ComparedType) (left right : String) :
    areEqual functionText (type.value left) (type.value right) = true ↔ left = right := by
  cases type <;> exact beq_iff_eq (α := String)

/-- Numbers that are written as they are read. -/
theorem coherent_numbers (type : ComparedType) (hless : ∀ left right, type.Less left right ↔ numericValue left < numericValue right)
    {left right : String} {x y : ExactDecimal} (hleft : readExactDecimal (type.value left : RuntimeValue κ) = .ok x)
    (hright : readExactDecimal (type.value right : RuntimeValue κ) = .ok y)
    (hx : x.toRat = numericValue left) (hy : y.toRat = numericValue right) :
    Coherent functionText type left right ↔ left = right ∨ numericValue left ≠ numericValue right := by
  rw [coherent_iff_of_ok functionText type (compareValues_of_decimals hleft hright), ordering_of_numbers, areEqual_value,
    hless, hless, hx, hy]
  constructor
  · rintro ⟨hequal, -, -⟩
    by_cases heq : left = right
    · exact Or.inl heq
    · exact Or.inr fun hvalue => heq (hequal.mpr hvalue)
  · rintro (rfl | hne)
    · exact ⟨⟨fun _ => rfl, fun _ => rfl⟩, Iff.rfl, Iff.rfl⟩
    · refine ⟨⟨?_, fun hvalue => absurd hvalue hne⟩, Iff.rfl, Iff.rfl⟩
      rintro rfl
      rfl

/-- Decimal text is read as the number it is written as. -/
theorem parse_of_isDecimal {text : String} (h : isDecimal text.toList = true) :
    ∃ decimal, parseExactDecimal text = .ok decimal ∧ decimal.toRat = numericValue text := by
  obtain ⟨decimal, hparse, hrat⟩ := (parseExactDecimal_eq text).1 (by rw [trim_of_isDecimal h, h])
  rw [trim_of_isDecimal h, String.ofList_toList] at hrat
  exact ⟨decimal, hparse, hrat⟩

theorem coherent_texts (left right : String) :
    Coherent functionText .text left right ↔ ReadsCoherently .text left right := by
  by_cases hboth : BothDecimal left right
  · obtain ⟨x, hleft, hx⟩ := (parseExactDecimal_eq left).1 hboth.1
    obtain ⟨y, hright, hy⟩ := (parseExactDecimal_eq right).1 hboth.2
    rw [coherent_iff_of_ok functionText .text (compareValues_of_decimals hleft hright),
      ordering_of_numbers, areEqual_value, hx, hy]
    change (left = right ↔ readNumber left = readNumber right) ∧ (readNumber left < readNumber right ↔ left < right) ∧
      (readNumber right < readNumber left ↔ right < left) ↔ _
    rw [ReadsCoherently, and_iff_left (fun hnot => absurd hboth hnot), imp_iff_right hboth]
    rcases lt_trichotomy left right with hlt | rfl | hgt
    · simp only [hlt.ne, hlt, not_lt_of_gt hlt, false_iff, iff_true, iff_false, false_or, and_true, and_false, or_false]
      refine ⟨fun h => h.2.1, fun h => ⟨h.ne, h, not_lt_of_gt h⟩⟩
    · simp
    · simp only [hgt.ne', hgt, not_lt_of_gt hgt, false_iff, iff_true, iff_false, false_or, and_true, and_false]
      refine ⟨fun h => h.2.2, fun h => ⟨h.ne', not_lt_of_gt h, h⟩⟩
  · rw [coherent_iff_of_ok functionText .text (compareValues_texts hboth), areEqual_value, ReadsCoherently,
      and_iff_right (fun h => absurd h hboth), imp_iff_right hboth, ← compareText_lt_iff]
    have hequal : left = right ↔ compareText left right = .eq := by
      refine ⟨?_, eq_of_compareText⟩
      rintro rfl
      exact Std.ReflCmp.compare_self
    have hgreater : compareText left right = .gt ↔ compareText right left = .lt := Std.OrientedCmp.gt_iff_lt
    constructor
    · exact fun h => h.2.1
    · intro hlt
      refine ⟨hequal, hlt, ?_⟩
      have hmirror : (compareText right left = .lt ↔ right < left) := by
        rw [compareText_lt_iff, firstCrosses_comm, ← compareText_lt_iff]
        exact hlt
      exact hgreater.trans hmirror

/-- Equality and comparison agree with the order of the type exactly where their readings do. -/
theorem coherent_iff (type : ComparedType) (left right : String) (hleft : type.HasText left)
    (hright : type.HasText right) :
    Coherent functionText type left right ↔ ReadsCoherently type left right := by
  cases type with
  | int64 =>
      obtain ⟨x, hreadLeft, hx⟩ := parse_of_isDecimal hleft.1
      obtain ⟨y, hreadRight, hy⟩ := parse_of_isDecimal hright.1
      exact coherent_numbers functionText .int64 (fun _ _ => Iff.rfl) hreadLeft hreadRight hx hy
  | numeric =>
      obtain ⟨x, hreadLeft, hx⟩ := parse_of_isDecimal hleft
      obtain ⟨y, hreadRight, hy⟩ := parse_of_isDecimal hright
      exact coherent_numbers functionText .numeric (fun _ _ => Iff.rfl) hreadLeft hreadRight hx hy
  | text => exact coherent_texts functionText left right
  | party =>
      have herror : compareValues (ComparedType.party.value left : RuntimeValue κ) (ComparedType.party.value right)
          = .error (.validation "daml lf builtin expected a text-compatible value, got 'party'") := rfl
      rw [ReadsCoherently, iff_false]
      exact not_coherent_of_error functionText herror

theorem coherent_numerics : Coherent (κ := Empty) Empty.elim .numeric "1.0" "2.50" := by
  have hleft : ComparedType.numeric.HasText "1.0" := show isDecimal _ = true by decide +kernel
  have hright : ComparedType.numeric.HasText "2.50" := show isDecimal _ = true by decide +kernel
  refine (coherent_iff Empty.elim .numeric "1.0" "2.50" hleft hright).mpr (Or.inr ?_)
  decide +kernel

/-- The text `10` counts as greater than the text `9`, which follows it. -/
theorem digits_out_of_order :
    ("10" : String) < "9" ∧ Answers (κ := Empty) Empty.elim .greater (.text "10") (.text "9") true ∧
      ¬ Coherent (κ := Empty) Empty.elim .text "10" "9" := by
  have hless : ("10" : String) < "9" := by decide
  have hten : readExactDecimal (.text "10" : RuntimeValue Empty) = .ok ⟨10, 0⟩ := by decide +kernel
  have hnine : readExactDecimal (.text "9" : RuntimeValue Empty) = .ok ⟨9, 0⟩ := by decide +kernel
  have hcompare := compareValues_of_decimals hten hnine
  have hgreater : (if (⟨10, 0⟩ : ExactDecimal).toRat < (⟨9, 0⟩ : ExactDecimal).toRat then Ordering.lt
      else if (⟨9, 0⟩ : ExactDecimal).toRat < (⟨10, 0⟩ : ExactDecimal).toRat then .gt else .eq) = .gt := by
    decide +kernel
  rw [hgreater] at hcompare
  refine ⟨hless, ?_, ?_⟩
  · rw [Answers, (apply_comparison Empty.elim rfl rfl).2.1, hcompare]
    rfl
  · rw [coherent_iff_of_ok Empty.elim .text hcompare]
    rintro ⟨-, -, hgt⟩
    exact absurd (hgt.mp rfl) (not_lt_of_gt hless)

end CantonSdk.DamlLf.Interpreter
