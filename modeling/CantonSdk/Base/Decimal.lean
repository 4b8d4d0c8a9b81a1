import Mathlib.Data.List.Induction
import Mathlib.Tactic.IntervalCases

/-!
# Canonical decimal text

Offsets, counters and public keys travel as decimal text without leading zeros. Such text is the
printed form of its value, so comparing it as text and comparing it as a number agree on equality.
-/

set_option linter.all false

namespace CantonSdk.Base

/-- The pattern `^(?:0|[1-9]\d*)$`, on characters. -/
def canonicalDigits : List Char → Bool
  | [] => false
  | first :: rest => first.isDigit && rest.all Char.isDigit && (first != '0' || rest.isEmpty)

/-- The pattern `^(?:0|[1-9]\d*)$`. -/
def isCanonicalDecimal (text : String) : Bool := canonicalDigits text.toList

/-- The value of decimal text, as `BigInt` reads it. -/
def decimalValue (text : String) : Nat := Nat.ofDigitChars 10 text.toList 0

theorem digitChar_of_isDigit {c : Char} (h : c.isDigit = true) :
    Nat.digitChar (c.toNat - '0'.toNat) = c := by
  have hbounds : 48 ≤ c.toNat ∧ c.toNat ≤ 57 := by
    simpa [Char.isDigit, UInt32.le_iff_toNat_le] using h
  have hcases : c.toNat = 48 ∨ c.toNat = 49 ∨ c.toNat = 50 ∨ c.toNat = 51 ∨ c.toNat = 52 ∨
      c.toNat = 53 ∨ c.toNat = 54 ∨ c.toNat = 55 ∨ c.toNat = 56 ∨ c.toNat = 57 := by omega
  have hchar : c = Char.ofNat c.toNat := (Char.ofNat_toNat c).symm
  rcases hcases with h | h | h | h | h | h | h | h | h | h <;> rw [h] at hchar ⊢ <;> subst hchar <;>
    decide

theorem toNat_sub_lt_of_isDigit {c : Char} (h : c.isDigit = true) : c.toNat - '0'.toNat < 10 := by
  have hbounds : 48 ≤ c.toNat ∧ c.toNat ≤ 57 := by
    simpa [Char.isDigit, UInt32.le_iff_toNat_le] using h
  have hzero : '0'.toNat = 48 := by decide
  omega

theorem canonicalDigits_ne_nil {digits : List Char} (h : canonicalDigits digits = true) :
    digits ≠ [] := by
  rintro rfl
  simp [canonicalDigits] at h

/-- Canonical text of two or more digits is canonical without its last digit. -/
theorem canonicalDigits_of_append {front : List Char} {last : Char}
    (h : canonicalDigits (front ++ [last]) = true) :
    last.isDigit = true ∧ (front = [] ∨ canonicalDigits front = true ∧ front ≠ ['0']) := by
  cases front with
  | nil => simpa [canonicalDigits] using h
  | cons first rest =>
      simp only [List.cons_append, canonicalDigits, List.all_append, List.all_cons, List.all_nil,
        Bool.and_true, Bool.and_eq_true, Bool.or_eq_true, bne_iff_ne, ne_eq, List.isEmpty_iff,
        List.append_eq_nil_iff, List.cons_ne_self, and_false, or_false] at h
      obtain ⟨⟨hfirst, hrest, hlast⟩, hzero⟩ := h
      refine ⟨hlast, Or.inr ⟨?_, ?_⟩⟩
      · simp [canonicalDigits, hfirst, hrest, hzero]
      · simp [hzero]

theorem ofDigitChars_append_singleton (front : List Char) (last : Char) :
    Nat.ofDigitChars 10 (front ++ [last]) 0
      = 10 * Nat.ofDigitChars 10 front 0 + (last.toNat - '0'.toNat) := by
  rw [Nat.ofDigitChars_append, Nat.ofDigitChars_cons, Nat.ofDigitChars_nil]

theorem ofDigitChars_replicate_zero (n : Nat) (text : List Char) :
    Nat.ofDigitChars 10 (List.replicate n '0' ++ text) 0 = Nat.ofDigitChars 10 text 0 := by
  induction n with
  | zero => rfl
  | succ n ih =>
      rw [List.replicate_succ, List.cons_append, Nat.ofDigitChars_cons]
      simpa using ih

/-- Canonical digits are what their value prints as. -/
theorem toDigits_ofDigitChars {digits : List Char} (h : canonicalDigits digits = true) :
    Nat.toDigits 10 (Nat.ofDigitChars 10 digits 0) = digits := by
  induction digits using List.reverseRecOn with
  | nil => simp [canonicalDigits] at h
  | append_singleton front last ih =>
      obtain ⟨hlast, hfront⟩ := canonicalDigits_of_append h
      have hdigit := toNat_sub_lt_of_isDigit hlast
      rw [ofDigitChars_append_singleton]
      rcases hfront with rfl | ⟨hcanonical, hzero⟩
      · rw [Nat.ofDigitChars_nil, Nat.mul_zero, Nat.zero_add, Nat.toDigits_of_lt_base hdigit,
          digitChar_of_isDigit hlast, List.nil_append]
      · have hprefix := ih hcanonical
        have hpositive : Nat.ofDigitChars 10 front 0 ≠ 0 := by
          intro hvalue
          rw [hvalue, Nat.toDigits_zero] at hprefix
          exact hzero hprefix.symm
        have hdiv : (10 * Nat.ofDigitChars 10 front 0 + (last.toNat - '0'.toNat)) / 10
            = Nat.ofDigitChars 10 front 0 := by omega
        have hmod : (10 * Nat.ofDigitChars 10 front 0 + (last.toNat - '0'.toNat)) % 10
            = last.toNat - '0'.toNat := by omega
        rw [Nat.toDigits_of_base_le (by decide) (by omega), hdiv, hmod, hprefix,
          digitChar_of_isDigit hlast]

/-- Canonical decimal text is the printed form of its value. -/
theorem toString_decimalValue {text : String} (h : isCanonicalDecimal text = true) :
    toString (decimalValue text) = text := by
  rw [Nat.toString_eq_ofList_toDigits, decimalValue, toDigits_ofDigitChars h, String.ofList_toList]

theorem decimalValue_toString (n : Nat) : decimalValue (toString n) = n := by
  rw [decimalValue, Nat.toString_eq_repr, Nat.toList_repr, Nat.ofDigitChars_ten_toDigits]

theorem decimalValue_injective {left right : String} (hleft : isCanonicalDecimal left = true)
    (hright : isCanonicalDecimal right = true) (h : decimalValue left = decimalValue right) :
    left = right := by
  rw [← toString_decimalValue hleft, h, toString_decimalValue hright]

theorem toDigits_eq_cons {n : Nat} (hn : 0 < n) :
    ∃ first rest, Nat.toDigits 10 n = first :: rest ∧ first ≠ '0' := by
  induction n using Nat.strong_induction_on with
  | _ n ih =>
      by_cases hsmall : n < 10
      · refine ⟨n.digitChar, [], Nat.toDigits_of_lt_base hsmall, ?_⟩
        interval_cases n <;> decide
      · obtain ⟨first, rest, hdigits, hzero⟩ := ih (n / 10) (by omega) (by omega)
        refine ⟨first, rest ++ [(n % 10).digitChar], ?_, hzero⟩
        rw [Nat.toDigits_of_base_le (by decide) (by omega), hdigits, List.cons_append]

theorem canonicalDigits_toDigits (n : Nat) : canonicalDigits (Nat.toDigits 10 n) = true := by
  rcases Nat.eq_zero_or_pos n with rfl | hn
  · rw [Nat.toDigits_zero]
    decide
  · obtain ⟨first, rest, hdigits, hzero⟩ := toDigits_eq_cons hn
    have hall : ∀ c ∈ first :: rest, c.isDigit = true := fun c hc =>
      Nat.isDigit_of_mem_toDigits (b := 10) (n := n) (by decide) (by decide) (by rwa [hdigits])
    rw [hdigits]
    simp only [canonicalDigits, Bool.and_eq_true, Bool.or_eq_true, bne_iff_ne, List.all_eq_true]
    exact ⟨⟨hall first List.mem_cons_self, fun c hc => hall c (List.mem_cons_of_mem _ hc)⟩,
      Or.inl hzero⟩

theorem isCanonicalDecimal_toString (n : Nat) : isCanonicalDecimal (toString n) = true := by
  rw [isCanonicalDecimal, Nat.toString_eq_repr, Nat.toList_repr]
  exact canonicalDigits_toDigits n

theorem toDigits_isDigit (n : Nat) : (Nat.toDigits 10 n).all Char.isDigit = true := by
  rw [List.all_eq_true]
  exact fun c hc => Nat.isDigit_of_mem_toDigits (by decide) (by decide) hc

theorem toList_toString_ofNat (n : Nat) : (toString (Int.ofNat n)).toList = Nat.toDigits 10 n := by
  change (toString n).toList = _
  rw [Nat.toString_eq_ofList_toDigits, String.toList_ofList]

theorem toList_toString_negSucc (n : Nat) : (toString (Int.negSucc n)).toList = '-' :: Nat.toDigits 10 (n + 1) := by
  change ("-" ++ toString (n + 1)).toList = _
  rw [String.toList_append, Nat.toString_eq_ofList_toDigits, String.toList_ofList, String.toList_ofList]
  rfl

end CantonSdk.Base
