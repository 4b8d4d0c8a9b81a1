import CantonSdk.Base.Checked

/-!
# Bounded runs

A run with little fuel approximates one with more: what it returns, the other returns as well. The rules say
so of everything that is built from approximations, and of a run with any more fuel than another.
-/

set_option linter.all false

namespace CantonSdk.Base

variable {ε α β ι : Type}

/-- Every success of the first computation is one of the second. -/
def Approximates (x y : Except ε α) : Prop := ∀ a, x = .ok a → y = .ok a

theorem Approximates.refl (x : Except ε α) : Approximates x x := fun _ h => h

theorem Approximates.error (e : ε) (y : Except ε α) : Approximates (.error e) y := nofun

theorem Approximates.bind {x y : Except ε α} {f g : α → Except ε β} (h : Approximates x y)
    (hrest : ∀ a, Approximates (f a) (g a)) : Approximates (x >>= f) (y >>= g) := by
  intro b hb
  obtain ⟨a, ha, hab⟩ := bind_eq_ok.mp hb
  exact bind_eq_ok.mpr ⟨a, h a ha, hrest a b hab⟩

/-- Steps after a computation that both runs make. -/
theorem Approximates.next {x : Except ε α} {f g : α → Except ε β} (h : ∀ a, Approximates (f a) (g a)) :
    Approximates (x >>= f) (x >>= g) :=
  (Approximates.refl x).bind h

/-- A step that both runs make after their own computations. -/
theorem Approximates.andThen {x y : Except ε α} {f : α → Except ε β} (h : Approximates x y) :
    Approximates (x >>= f) (y >>= f) :=
  h.bind fun _ => .refl _

theorem Approximates.mapM {f g : ι → Except ε α} {list : List ι} (h : ∀ entry, Approximates (f entry) (g entry)) :
    Approximates (list.mapM f) (list.mapM g) := by
  induction list with
  | nil => exact .refl _
  | cons entry rest ih =>
      rw [List.mapM_cons, List.mapM_cons]
      exact (h entry).bind fun _ => ih.andThen

theorem Approximates.mapIndexed {f g : Nat → ι → Except ε α} {list : List ι} {index : Nat}
    (h : ∀ index entry, Approximates (f index entry) (g index entry)) :
    Approximates (mapIndexed f index list) (mapIndexed g index list) := by
  induction list generalizing index with
  | nil => exact .refl _
  | cons entry rest ih =>
      rw [Base.mapIndexed, Base.mapIndexed]
      exact (h index entry).bind fun _ => ih.andThen

/-- What one more unit of fuel keeps, any more fuel keeps. -/
theorem approximates_of_le {run : Nat → Except ε α} (hstep : ∀ fuel, Approximates (run fuel) (run (fuel + 1)))
    {fuel more : Nat} (hle : fuel ≤ more) : Approximates (run fuel) (run more) := by
  induction hle with
  | refl => exact .refl _
  | step _ ih => exact fun a ha => hstep _ a (ih a ha)

/-- Two runs that both return do so together, with enough fuel. -/
theorem exists_common {left : Nat → Except ε α} {right : Nat → Except ε β}
    (hleft : ∀ fuel, Approximates (left fuel) (left (fuel + 1)))
    (hright : ∀ fuel, Approximates (right fuel) (right (fuel + 1))) {fuel fuel' : Nat} {a : α} {b : β}
    (ha : left fuel = .ok a) (hb : right fuel' = .ok b) (least : Nat) :
    ∃ common, least ≤ common ∧ left common = .ok a ∧ right common = .ok b := by
  refine ⟨max least (max fuel fuel'), by omega, ?_, ?_⟩
  · exact approximates_of_le hleft (by omega) a ha
  · exact approximates_of_le hright (by omega) b hb

end CantonSdk.Base
