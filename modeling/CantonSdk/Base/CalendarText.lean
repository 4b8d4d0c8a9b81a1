import CantonSdk.Base.Calendar
import CantonSdk.Base.Decimal
import CantonSdk.Base.Readable

/-!
# Reading calendar text

The day of a date, and that days and seconds from the year 0 on are told apart by their text.
-/

set_option linter.all false

namespace CantonSdk.Base

/-! ## Days and dates -/

theorem yearOfEra_spec {dayOfEra yearOfEra : Nat} (h : dayOfEra < 146097)
    (hyear : yearOfEra = (dayOfEra - dayOfEra / 1460 + dayOfEra / 36524 - dayOfEra / 146096) / 365) :
    yearOfEra < 400 ∧ 365 * yearOfEra + yearOfEra / 4 - yearOfEra / 100 ≤ dayOfEra ∧
      dayOfEra ≤ 365 * yearOfEra + yearOfEra / 4 - yearOfEra / 100 + 365 := by
  have hlt : yearOfEra < 400 := by omega
  obtain ⟨century, hcentury⟩ : ∃ century, dayOfEra / 36524 = century := ⟨_, rfl⟩
  have hbound : century ≤ 4 := by omega
  rw [hcentury] at hyear
  -- the last day of an era is the only one outside its four centuries
  by_cases hlast : dayOfEra = 146096
  · subst hlast
    omega
  · have hzero : dayOfEra / 146096 = 0 := by omega
    rw [hzero] at hyear
    have hsame : yearOfEra / 100 = century := by interval_cases century <;> omega
    rw [hsame]
    refine ⟨hlt, ?_, ?_⟩ <;> interval_cases century <;> omega

theorem monthFromMarch_spec {dayOfYear monthFromMarch : Nat} (h : dayOfYear ≤ 365)
    (hmonth : monthFromMarch = (5 * dayOfYear + 2) / 153) :
    monthFromMarch ≤ 11 ∧ (153 * monthFromMarch + 2) / 5 ≤ dayOfYear := by omega

/-- How many days after 1970-01-01 a date is. -/
def epochDayOf (date : CivilDate) : Int :=
  let yearFromMarch := if date.month ≤ 2 then date.year - 1 else date.year
  let monthFromMarch := if date.month ≤ 2 then date.month + 9 else date.month - 3
  let yearOfEra := yearFromMarch % 400
  yearFromMarch / 400 * 146097 + (365 * yearOfEra + yearOfEra / 4 - yearOfEra / 100)
    + ((153 * monthFromMarch + 2) / 5 + date.day - 1 : Nat) - 719468

theorem epochDayOf_civilDate (epochDay : Int) : epochDayOf (civilDate epochDay) = epochDay := by
  rw [civilDate]
  generalize hera : (epochDay + 719468) / 146097 = era
  generalize hday : ((epochDay + 719468) % 146097).toNat = dayOfEra
  have hlt : dayOfEra < 146097 := by omega
  generalize hyear : (dayOfEra - dayOfEra / 1460 + dayOfEra / 36524 - dayOfEra / 146096) / 365 = yearOfEra
  obtain ⟨hyearLt, hleast, hmost⟩ := yearOfEra_spec hlt hyear.symm
  generalize hdayOfYear : dayOfEra - (365 * yearOfEra + yearOfEra / 4 - yearOfEra / 100) = dayOfYear
  have hdayLe : dayOfYear ≤ 365 := by omega
  generalize hmonth : (5 * dayOfYear + 2) / 153 = monthFromMarch
  obtain ⟨hmonthLe, hdays⟩ := monthFromMarch_spec hdayLe hmonth.symm
  have hdiv : ((yearOfEra : Int) + era * 400) / 400 = era := by omega
  have hmod : ((yearOfEra : Int) + era * 400) % 400 = yearOfEra := by omega
  have hback : (153 * monthFromMarch + 2) / 5 + (dayOfYear - (153 * monthFromMarch + 2) / 5 + 1) - 1 = dayOfYear := by omega
  have hshift : era * 146097 + (365 * (yearOfEra : Int) + yearOfEra / 4 - yearOfEra / 100) + dayOfYear - 719468 = epochDay := by
    omega
  simp only [epochDayOf]
  by_cases hspring : monthFromMarch < 10
  · have hlate : ¬ monthFromMarch + 3 ≤ 2 := by omega
    simp only [if_pos hspring, if_neg hlate, Int.add_zero, hdiv, hmod, Nat.add_sub_cancel, hback]
    exact hshift
  · have hearly : monthFromMarch - 9 ≤ 2 := by omega
    have hmonthBack : monthFromMarch - 9 + 9 = monthFromMarch := by omega
    simp only [if_neg hspring, if_pos hearly, Int.add_sub_cancel, hdiv, hmod, hmonthBack, hback]
    exact hshift

theorem civilDate_year_nonneg {epochDay : Int} (h : -719468 ≤ epochDay) : 0 ≤ (civilDate epochDay).year := by
  simp only [civilDate]
  split <;> omega

/-! ## Text -/

/-- What stands behind digits and does not start with one. -/
def NoDigit (rest : List Char) : Prop := ∀ c ∈ rest.head?, c.isDigit = false

theorem noDigit_cons {c : Char} (h : c.isDigit = false) (rest : List Char) : NoDigit (c :: rest) := by
  intro d hd
  obtain rfl := Option.some.inj hd
  exact h

theorem noDigit_nil : NoDigit [] := by
  intro c hc
  cases hc

theorem zeroPadded_digits (width n : Nat) : ∀ c ∈ (zeroPadded width n).toList, c.isDigit = true := by
  intro c hc
  rw [zeroPadded, String.toList_ofList, padStart, List.mem_append] at hc
  rcases hc with hzero | hdigit
  · rw [List.eq_of_mem_replicate hzero]
    decide
  · exact Nat.isDigit_of_mem_toDigits (by decide) (by decide) hdigit

theorem zeroPadded_injective {width width' n n' : Nat} (h : (zeroPadded width n).toList = (zeroPadded width' n').toList) :
    n = n' := by
  have hvalue : ∀ width n : Nat, Nat.ofDigitChars 10 (zeroPadded width n).toList 0 = n := by
    intro width n
    rw [zeroPadded, String.toList_ofList, padStart, ofDigitChars_replicate_zero, Nat.ofDigitChars_ten_toDigits]
  rw [← hvalue width n, h, hvalue]

theorem length_zeroPadded {width n : Nat} (h : n < 10 ^ width) (hwidth : 0 < width) : (zeroPadded width n).toList.length = width := by
  rw [zeroPadded, String.toList_ofList]
  apply length_padStart
  rw [Nat.length_toDigits_le_iff (by decide) hwidth]
  exact h

section Reading

variable {rest rest' : List Char}

/-- A padded number in front of something else. -/
theorem zeroPadded_read {width width' n n' : Nat} (hrest : NoDigit rest) (hrest' : NoDigit rest')
    (h : (zeroPadded width n).toList ++ rest = (zeroPadded width' n').toList ++ rest') : n = n' ∧ rest = rest' := by
  obtain ⟨hdigits, hsame⟩ := run_injective (zeroPadded_digits width n) (zeroPadded_digits width' n') hrest hrest' h
  exact ⟨zeroPadded_injective hdigits, hsame⟩

theorem toList_isoDay (epochDay : Int) : (isoDay epochDay).toList
    = (zeroPadded 4 (civilDate epochDay).year.toNat).toList ++ '-' :: ((zeroPadded 2 (civilDate epochDay).month).toList
      ++ '-' :: (zeroPadded 2 (civilDate epochDay).day).toList) := by
  simp [isoDay]

theorem isoDay_read {epochDay epochDay' : Int} (hday : -719468 ≤ epochDay) (hday' : -719468 ≤ epochDay')
    (hrest : NoDigit rest) (hrest' : NoDigit rest')
    (h : (isoDay epochDay).toList ++ rest = (isoDay epochDay').toList ++ rest') : epochDay = epochDay' ∧ rest = rest' := by
  rw [toList_isoDay, toList_isoDay, List.append_assoc, List.append_assoc, List.cons_append, List.cons_append,
    List.append_assoc, List.append_assoc, List.cons_append, List.cons_append] at h
  have hdash : ∀ others : List Char, NoDigit ('-' :: others) := noDigit_cons rfl
  obtain ⟨hyear, h⟩ := zeroPadded_read (hdash _) (hdash _) h
  obtain ⟨hmonth, h⟩ := zeroPadded_read (hdash _) (hdash _) (List.cons.inj h).2
  obtain ⟨hdayOfMonth, h⟩ := zeroPadded_read hrest hrest' (List.cons.inj h).2
  have hyears := civilDate_year_nonneg hday
  have hyears' := civilDate_year_nonneg hday'
  have hdate : civilDate epochDay = civilDate epochDay' := by
    rw [CivilDate.mk.injEq]
    exact ⟨by omega, hmonth, hdayOfMonth⟩
  exact ⟨by rw [← epochDayOf_civilDate epochDay, hdate, epochDayOf_civilDate], h⟩

theorem isoDay_injective {epochDay epochDay' : Int} (hday : -719468 ≤ epochDay) (hday' : -719468 ≤ epochDay')
    (h : isoDay epochDay = isoDay epochDay') : epochDay = epochDay' := by
  have hlists : (isoDay epochDay).toList ++ [] = (isoDay epochDay').toList ++ [] := by rw [h]
  exact (isoDay_read hday hday' noDigit_nil noDigit_nil hlists).1

theorem toList_isoSecond (seconds : Int) : (isoSecond seconds).toList
    = (isoDay (seconds / 86400)).toList ++ 'T' :: ((zeroPadded 2 ((seconds % 86400).toNat / 3600)).toList
      ++ ':' :: ((zeroPadded 2 ((seconds % 86400).toNat / 60 % 60)).toList
      ++ ':' :: (zeroPadded 2 ((seconds % 86400).toNat % 60)).toList)) := by
  simp [isoSecond]

theorem isoSecond_read {seconds seconds' : Int} (hseconds : -62162035200 ≤ seconds) (hseconds' : -62162035200 ≤ seconds')
    (hrest : NoDigit rest) (hrest' : NoDigit rest')
    (h : (isoSecond seconds).toList ++ rest = (isoSecond seconds').toList ++ rest') : seconds = seconds' ∧ rest = rest' := by
  rw [toList_isoSecond, toList_isoSecond] at h
  simp only [List.append_assoc, List.cons_append] at h
  have hcolon : ∀ others : List Char, NoDigit (':' :: others) := noDigit_cons rfl
  have hletter : ∀ others : List Char, NoDigit ('T' :: others) := noDigit_cons rfl
  obtain ⟨hday, h⟩ := isoDay_read (by omega) (by omega) (hletter _) (hletter _) h
  obtain ⟨hhour, h⟩ := zeroPadded_read (hcolon _) (hcolon _) (List.cons.inj h).2
  obtain ⟨hminute, h⟩ := zeroPadded_read (hcolon _) (hcolon _) (List.cons.inj h).2
  obtain ⟨hsecond, h⟩ := zeroPadded_read hrest hrest' (List.cons.inj h).2
  exact ⟨by omega, h⟩

end Reading

end CantonSdk.Base
