import Mathlib.Order.Defs.LinearOrder
import Mathlib.Algebra.Order.Group.Nat
import Mathlib.Tactic.Tauto
import CantonSdk.Base.Stateful

/-!
# Computations that push values

A computation that puts values at the end of a list and ends with a result that refers to them by their numbers. The rules
find from the parts of the computation to which of the pushed values the result refers, and when these are all of them.
-/

set_option linter.all false

namespace CantonSdk.Base

/-! ## Ranges of numbers -/

/-- Numbers behind a first and up to a last one, which are all of these if and only if everything is used. -/
structure Range (first last : Nat) (has : Nat → Prop) (used : Prop) : Prop where
  le : first ≤ last
  within : ∀ number, has number → first < number ∧ number ≤ last
  all_iff : (∀ number, first < number → number ≤ last → has number) ↔ used

theorem range_empty (first : Nat) : Range first first (fun _ => False) True :=
  ⟨Nat.le_refl first, fun _ h => h.elim, iff_of_true (fun number hfirst hlast => by omega) trivial⟩

theorem range_single (first : Nat) : Range first (first + 1) (fun number => number = first + 1) True :=
  ⟨by omega, fun number h => by omega, iff_of_true (fun number hfirst hlast => by omega) trivial⟩

theorem Range.append {first middle last : Nat} {has has' : Nat → Prop} {used used' : Prop} (h : Range first middle has used)
    (h' : Range middle last has' used') : Range first last (fun number => has number ∨ has' number) (used ∧ used') := by
  have hle := h.le
  have hle' := h'.le
  refine ⟨hle.trans hle', ?_, ?_⟩
  · rintro number (hnumber | hnumber)
    · exact ⟨(h.within number hnumber).1, (h.within number hnumber).2.trans hle'⟩
    · exact ⟨hle.trans_lt (h'.within number hnumber).1, (h'.within number hnumber).2⟩
  · rw [← h.all_iff, ← h'.all_iff]
    constructor
    · intro hall
      refine ⟨fun number hfirst hlast => ?_, fun number hfirst hlast => ?_⟩
      · refine (hall number hfirst (hlast.trans hle')).resolve_right fun hother => ?_
        have := (h'.within number hother).1
        omega
      · refine (hall number (hle.trans_lt hfirst) hlast).resolve_left fun hother => ?_
        have := (h.within number hother).2
        omega
    · rintro ⟨hall, hall'⟩ number hfirst hlast
      by_cases hmiddle : number ≤ middle
      · exact .inl (hall number hfirst hmiddle)
      · exact .inr (hall' number (by omega) hlast)

/-- Numbers in front that nothing refers to. -/
theorem Range.waste {first middle last : Nat} {has has' : Nat → Prop} {used used' : Prop} (h : Range first middle has used)
    (hpushed : first < middle) (h' : Range middle last has' used') : Range first last has' False := by
  have hle' := h'.le
  refine ⟨h.le.trans hle', fun number hnumber => ?_, iff_of_false (fun hall => ?_) id⟩
  · exact ⟨h.le.trans_lt (h'.within number hnumber).1, (h'.within number hnumber).2⟩
  · have := (h'.within _ (hall (first + 1) (by omega) (by omega))).1
    omega

/-! ## Ranges of computations -/

variable {ν ε : Type} {α β : Type}

/-- From any values, the computation pushes more of them and ends with a result that refers to the numbers that are held
already and to a range of those of the pushed values. -/
def Pushes (held : Nat → Prop) (has : α → Nat → Prop) (used : Prop) (x : StateT (List ν) (Except ε) α) : Prop :=
  ∀ values, Ends (fun _ => True) x values fun a values' =>
    ∃ pushed, Range values.length values'.length pushed used ∧ ∀ number, has a number ↔ held number ∨ pushed number

variable {held : Nat → Prop} {has : α → Nat → Prop} {has' : β → Nat → Prop} {used used' : Prop}
  {x : StateT (List ν) (Except ε) α}

theorem pushes_pure {a : α} (h : ∀ number, has a number ↔ held number) :
    Pushes held has True (pure a : StateT (List ν) (Except ε) α) := fun values =>
  ends_pure ⟨fun _ => False, range_empty _, fun number => by rw [h, or_false]⟩

theorem pushes_throw (e : ε) : Pushes held has used (throw e : StateT (List ν) (Except ε) α) := fun _ => ends_throw trivial

theorem pushes_congr (h : Pushes held has used x) (hused : used ↔ used') : Pushes held has used' x := propext hused ▸ h

theorem pushes_bind {f : α → StateT (List ν) (Except ε) β} (h : Pushes (fun _ => False) has used x)
    (hnext : ∀ a, Pushes (fun number => held number ∨ has a number) has' used' (f a)) :
    Pushes held has' (used ∧ used') (x >>= f) := by
  intro values
  refine ends_bind (Ends.mono (h values) ?_)
  rintro a values' ⟨pushed, hrange, hhas⟩
  refine Ends.mono (hnext a values') ?_
  rintro b values'' ⟨pushed', hrange', hhas'⟩
  refine ⟨_, hrange.append hrange', fun number => ?_⟩
  simp only [hhas', hhas]
  tauto

/-- The computation pushes a value at least. -/
def Grows (x : StateT (List ν) (Except ε) α) : Prop :=
  ∀ values, Ends (fun _ => True) x values fun _ values' => values.length < values'.length

/-- A result that is thrown away with the values pushed for it. -/
theorem pushes_bind_waste {f : α → StateT (List ν) (Except ε) β} (h : Pushes (fun _ => False) has used x) (hgrows : Grows x)
    (hnext : ∀ a, Pushes held has' used' (f a)) : Pushes held has' False (x >>= f) := by
  intro values
  have hrun := h values
  have hgrown := hgrows values
  refine ends_bind ?_
  rw [Ends] at hrun hgrown ⊢
  cases hx : x values with
  | error e => trivial
  | ok result =>
      rw [hx] at hrun hgrown
      obtain ⟨pushed, hrange, -⟩ := hrun
      refine Ends.mono (hnext result.1 result.2) ?_
      rintro b values'' ⟨pushed', hrange', hhas'⟩
      exact ⟨pushed', hrange.waste hgrown hrange', hhas'⟩

/-- The computation pushes no value, and what it ends with is as described. -/
def Quiet (kind : α → Prop) (x : StateT (List ν) (Except ε) α) : Prop :=
  ∀ values, Ends (fun _ => True) x values fun a values' => values' = values ∧ kind a

theorem pushes_bind_quiet {kind : α → Prop} {f : α → StateT (List ν) (Except ε) β} (h : Quiet kind x)
    (hnext : ∀ a, kind a → Pushes held has' used' (f a)) : Pushes held has' used' (x >>= f) := by
  intro values
  refine ends_bind (Ends.mono (h values) ?_)
  rintro a values' ⟨rfl, hkind⟩
  exact hnext a hkind values'

theorem pushes_lift_bind {y : Except ε α} {f : α → StateT (List ν) (Except ε) β}
    (hnext : ∀ a, y = .ok a → Pushes held has' used (f a)) :
    Pushes held has' used ((y : StateT (List ν) (Except ε) α) >>= f) := by
  cases y with
  | error e => exact fun values => ends_throw trivial
  | ok a => exact hnext a rfl

theorem pushes_ite {p : Prop} [Decidable p] {y : StateT (List ν) (Except ε) α} (h : p → Pushes held has used x)
    (h' : ¬ p → Pushes held has used y) :
    Pushes held has used (if p then x else y) := by
  by_cases hp : p
  · rw [if_pos hp]
    exact h hp
  · rw [if_neg hp]
    exact h' hp

end CantonSdk.Base
