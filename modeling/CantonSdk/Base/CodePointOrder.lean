import CantonSdk.Base.Text
import Mathlib.Data.String.Basic

/-!
# Code units and code points

The host compares strings by code unit. That is the order of their characters, except for a character of two code
units against one of the range that follows the code units it is made of.
-/

set_option linter.all false

namespace CantonSdk.Base

/-- One of the characters has two code units, and the other one follows all of these. -/
def crosses (c d : Char) : Bool :=
  decide (0x10000 ≤ c.toNat ∧ 0xE000 ≤ d.toNat ∧ d.toNat < 0x10000)
    || decide (0x10000 ≤ d.toNat ∧ 0xE000 ≤ c.toNat ∧ c.toNat < 0x10000)

/-- Where the texts differ first, they differ in characters that cross. -/
def firstCrosses : List Char → List Char → Bool
  | c :: left, d :: right => if c = d then firstCrosses left right else crosses c d
  | _, _ => false

theorem compare_append_left (front left right : List Nat) :
    compare (front ++ left) (front ++ right) = compare left right := by
  induction front with
  | nil => rfl
  | cons unit front ih =>
      rw [List.cons_append, List.cons_append, List.compare_cons_cons, Nat.compare_eq_eq.mpr rfl, ih]
      rfl

/-- Characters that differ decide the order, and do so by their code points unless they cross. -/
theorem compare_charUnits {c d : Char} (hne : c ≠ d) (left right : List Nat) :
    (compare (charUnits c ++ left) (charUnits d ++ right) = .lt ↔ c.toNat < d.toNat) ↔ crosses c d = false := by
  have hdiffer : c.toNat ≠ d.toNat := fun heq => hne (Char.toNat_inj.mp heq)
  have hfirst := toNat_valid c
  have hsecond := toNat_valid d
  have hcons : ∀ unit unit' : Nat, ∀ rest rest' : List Nat, unit ≠ unit' →
      (compare (unit :: rest) (unit' :: rest') = .lt ↔ unit < unit') := by
    intro unit unit' rest rest' hunits
    rw [List.compare_cons_cons, Ordering.then_eq_lt, Nat.compare_eq_lt, Nat.compare_eq_eq]
    exact or_iff_left fun h => hunits h.1
  rw [crosses, Bool.or_eq_false_iff, decide_eq_false_iff_not, decide_eq_false_iff_not]
  unfold charUnits
  split <;> split
  · rw [List.singleton_append, List.singleton_append, hcons _ _ _ _ hdiffer]
    omega
  · rw [List.singleton_append, List.cons_append, hcons _ _ _ _ (by omega)]
    omega
  · rw [List.singleton_append, List.cons_append, hcons _ _ _ _ (by omega)]
    omega
  · rename_i hlarge hlarge'
    simp only [List.cons_append, List.nil_append]
    by_cases hhigh : 0xD800 + (c.toNat - 0x10000) / 0x400 = 0xD800 + (d.toNat - 0x10000) / 0x400
    · rw [hhigh, List.compare_cons_cons, Nat.compare_eq_eq.mpr rfl, Ordering.eq_then, hcons _ _ _ _ (by omega)]
      omega
    · rw [hcons _ _ _ _ hhigh]
      omega

theorem compare_flatMap_charUnits (left right : List Char) :
    (compare (left.flatMap charUnits) (right.flatMap charUnits) = .lt ↔ left < right)
      ↔ firstCrosses left right = false := by
  induction left generalizing right with
  | nil =>
      cases right with
      | nil => simp [firstCrosses]
      | cons d right =>
          obtain ⟨unit, units, hunits⟩ := List.exists_cons_of_ne_nil (charUnits_ne_nil d)
          rw [List.flatMap_cons, hunits]
          simp [firstCrosses]
  | cons c left ih =>
      cases right with
      | nil =>
          obtain ⟨unit, units, hunits⟩ := List.exists_cons_of_ne_nil (charUnits_ne_nil c)
          rw [List.flatMap_cons, hunits]
          simp [firstCrosses]
      | cons d right =>
          rw [List.flatMap_cons, List.flatMap_cons, firstCrosses]
          by_cases heq : c = d
          · subst heq
            rw [compare_append_left, if_pos rfl, List.cons_lt_cons_iff, or_iff_right (lt_irrefl c),
              and_iff_right rfl]
            exact ih right
          · have hless : c < d ↔ c.toNat < d.toNat := UInt32.lt_iff_toNat_lt
            rw [if_neg heq, List.cons_lt_cons_iff, or_iff_left (fun h => heq h.1), hless]
            exact compare_charUnits heq _ _

/-- The order of code units is the order of characters unless the texts cross where they differ first. -/
theorem compareText_lt_iff (left right : String) :
    (compareText left right = .lt ↔ left < right) ↔ firstCrosses left.toList right.toList = false := by
  rw [String.lt_iff_toList_lt]
  exact compare_flatMap_charUnits _ _

theorem crosses_comm (c d : Char) : crosses c d = crosses d c := by
  rw [crosses, crosses, Bool.or_comm]

theorem firstCrosses_comm (left right : List Char) : firstCrosses left right = firstCrosses right left := by
  induction left generalizing right with
  | nil => cases right <;> rfl
  | cons c left ih =>
      cases right with
      | nil => rfl
      | cons d right =>
          rw [firstCrosses, firstCrosses, ih, crosses_comm]
          simp only [eq_comm]

end CantonSdk.Base
