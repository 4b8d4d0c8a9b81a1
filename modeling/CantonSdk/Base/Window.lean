import Mathlib.Data.List.Basic
import Mathlib.Order.Basic

/-!
# Windows of an increasing log

A log is a list whose keys strictly increase. A window of it is the part above one bound and up to
another. Windows that meet at a bound concatenate, a window of a window is a window, and what is
appended past the upper bound never enters it.
-/

set_option linter.all false

namespace CantonSdk.Base

universe u

variable {α : Type u} (key : α → Nat)

/-- The entries above `low` and up to `high`. -/
def window (low high : Nat) (log : List α) : List α :=
  log.filter fun entry => decide (low < key entry ∧ key entry ≤ high)

variable {key}

@[simp] theorem window_nil (low high : Nat) : window key low high [] = [] := rfl

@[simp] theorem mem_window {low high : Nat} {log : List α} {entry : α} :
    entry ∈ window key low high log ↔ entry ∈ log ∧ low < key entry ∧ key entry ≤ high := by
  simp [window]

theorem window_empty (low : Nat) (log : List α) : window key low low log = [] := by
  rw [window, List.filter_eq_nil_iff]
  intro entry _
  rw [decide_eq_true_iff]
  omega

/-- Entries past the upper bound do not count. -/
theorem window_append_beyond {low high : Nat} {log fresh : List α}
    (hbeyond : ∀ entry ∈ fresh, high < key entry) :
    window key low high (log ++ fresh) = window key low high log := by
  have hfresh : window key low high fresh = [] := by
    rw [window, List.filter_eq_nil_iff]
    intro entry hentry
    have := hbeyond entry hentry
    rw [decide_eq_true_iff]
    omega
  rw [window, List.filter_append]
  change window key low high log ++ window key low high fresh = _
  rw [hfresh, List.append_nil]

/-- Lowering the upper bound of a window. -/
theorem filter_window {low high bound : Nat} (hbound : bound ≤ high) (log : List α) :
    (window key low high log).filter (fun entry => decide (key entry ≤ bound))
      = window key low bound log := by
  rw [window, window, List.filter_filter]
  apply List.filter_congr
  intro entry _
  rw [← Bool.decide_and]
  apply decide_eq_decide.mpr
  omega

/-- Windows that meet at a bound concatenate. -/
theorem window_append_window {low middle high : Nat} (hlow : low ≤ middle) (hhigh : middle ≤ high)
    {log : List α} (hincreasing : log.Pairwise fun x y => key x < key y) :
    window key low middle log ++ window key middle high log = window key low high log := by
  induction log with
  | nil => rfl
  | cons entry rest ih =>
      obtain ⟨hentry, hrest⟩ := List.pairwise_cons.mp hincreasing
      have htail := ih hrest
      by_cases hmiddle : key entry ≤ middle
      · -- The head is in the first window or in none.
        have hsecond : window key middle high (entry :: rest) = window key middle high rest := by
          rw [window, List.filter_cons_of_neg]
          · rfl
          · rw [decide_eq_true_iff]
            omega
        by_cases hin : low < key entry
        · have hfirst : window key low middle (entry :: rest) = entry :: window key low middle rest := by
            rw [window, List.filter_cons_of_pos (by rw [decide_eq_true_iff]; omega)]
            rfl
          have hwhole : window key low high (entry :: rest) = entry :: window key low high rest := by
            rw [window, List.filter_cons_of_pos (by rw [decide_eq_true_iff]; omega)]
            rfl
          rw [hfirst, hsecond, hwhole, List.cons_append, htail]
        · have hout : ∀ bound, window key low bound (entry :: rest) = window key low bound rest := by
            intro bound
            rw [window, List.filter_cons_of_neg]
            · rfl
            · rw [decide_eq_true_iff]
              omega
          rw [hout, hsecond, hout, htail]
      · -- The head, and so the whole log, is past the middle.
        have hempty : window key low middle (entry :: rest) = [] := by
          rw [window, List.filter_eq_nil_iff]
          intro other hother
          rw [decide_eq_true_iff]
          rcases List.mem_cons.mp hother with rfl | hmem
          · omega
          · have := hentry other hmem
            omega
        rw [hempty, List.nil_append]
        apply List.filter_congr
        intro other hother
        apply decide_eq_decide.mpr
        rcases List.mem_cons.mp hother with rfl | hmem
        · omega
        · have := hentry other hmem
          omega

theorem length_window_le {low bound high : Nat} (hbound : bound ≤ high) (log : List α) :
    (window key low bound log).length ≤ (window key low high log).length := by
  rw [← filter_window hbound]
  exact List.length_filter_le ..

end CantonSdk.Base
