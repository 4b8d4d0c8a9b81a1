import Mathlib.Data.List.Forall2

/-!
# Computations that run alike

Two computations with states that may throw. From states that correspond they end with results and states that correspond, or
throw the same error. The rules find this from the parts of the computations.
-/

set_option linter.all false

namespace CantonSdk.Base

variable {σ ε α α' β β' : Type}

def Alike (S : σ → σ → Prop) (R : α → α' → Prop) (x : StateT σ (Except ε) α) (y : StateT σ (Except ε) α') : Prop :=
  ∀ s t, S s t →
    match x s, y t with
    | .ok (a, s'), .ok (b, t') => R a b ∧ S s' t'
    | .error e, .error e' => e = e'
    | _, _ => False

variable {S : σ → σ → Prop} {R : α → α' → Prop} {Q : β → β' → Prop} {x : StateT σ (Except ε) α} {y : StateT σ (Except ε) α'}

theorem alike_pure {a : α} {b : α'} (h : R a b) : Alike S R (pure a : StateT σ (Except ε) α) (pure b) :=
  fun _ _ hs => ⟨h, hs⟩

theorem alike_throw (e : ε) : Alike S R (throw e : StateT σ (Except ε) α) (throw e) := fun _ _ _ => rfl

theorem alike_bind {f : α → StateT σ (Except ε) β} {g : α' → StateT σ (Except ε) β'} (h : Alike S R x y)
    (hnext : ∀ a b, R a b → Alike S Q (f a) (g b)) : Alike S Q (x >>= f) (y >>= g) := by
  intro s t hs
  have hrun := h s t hs
  have hx : (x >>= f) s = x s >>= fun p => f p.1 p.2 := rfl
  have hy : (y >>= g) t = y t >>= fun p => g p.1 p.2 := rfl
  rw [hx, hy]
  cases hxs : x s with
  | error e =>
      cases hyt : y t with
      | error e' =>
          rw [hxs, hyt] at hrun
          exact hrun
      | ok q =>
          rw [hxs, hyt] at hrun
          exact hrun.elim
  | ok p =>
      cases hyt : y t with
      | error e' =>
          rw [hxs, hyt] at hrun
          exact hrun.elim
      | ok q =>
          rw [hxs, hyt] at hrun
          exact hnext p.1 q.1 hrun.1 p.2 q.2 hrun.2

/-- The same computation without the state, in front of computations that run alike. -/
theorem alike_lift_bind {z : Except ε α} {f : α → StateT σ (Except ε) β} {g : α → StateT σ (Except ε) β'}
    (hnext : ∀ a, Alike S Q (f a) (g a)) : Alike S Q ((z : StateT σ (Except ε) α) >>= f)
      ((z : StateT σ (Except ε) α) >>= g) := by
  cases z with
  | error e => exact fun _ _ _ => rfl
  | ok a => exact hnext a

theorem alike_ite {p : Prop} [Decidable p] {x' : StateT σ (Except ε) α} {y' : StateT σ (Except ε) α'} (h : Alike S R x y)
    (h' : Alike S R x' y') : Alike S R (if p then x else x') (if p then y else y') := by
  by_cases hp : p
  · rwa [if_pos hp, if_pos hp]
  · rwa [if_neg hp, if_neg hp]

end CantonSdk.Base
