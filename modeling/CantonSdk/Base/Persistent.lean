import Mathlib.Logic.Basic

/-!
# Computations whose state survives a throw

A computation settles: it resolves or throws, and in both cases leaves a state. The rules say what has
to hold of its parts for it to settle in a given way.
-/

set_option linter.all false

namespace CantonSdk.Base

universe u

variable {σ ε : Type u} {α β : Type u}

/-- From the state, the computation settles with a result and a state as described. -/
def Settles (x : ExceptT ε (StateM σ) α) (s : σ) (post : Except ε α → σ → Prop) : Prop :=
  post (x s).1 (x s).2

variable {x : ExceptT ε (StateM σ) α} {s s' : σ} {post post' : Except ε α → σ → Prop}

theorem settles_pure {a : α} (h : post (.ok a) s) : Settles (pure a : ExceptT ε (StateM σ) α) s post := h

theorem settles_modify {f : σ → σ} {post : Except ε PUnit → σ → Prop} (h : post (.ok ⟨⟩) (f s)) :
    Settles (modify f : ExceptT ε (StateM σ) PUnit) s post := h

theorem Settles.mono (h : Settles x s post) (himp : ∀ settled s', post settled s' → post' settled s') :
    Settles x s post' :=
  himp _ _ h

/-- The rest of a computation runs where its first part resolves; a throw skips it. -/
theorem settles_bind {f : α → ExceptT ε (StateM σ) β} {post : Except ε β → σ → Prop}
    (h : Settles x s fun settled s' =>
      match settled with
      | .ok a => Settles (f a) s' post
      | .error e => post (.error e) s') :
    Settles (x >>= f) s post := by
  have hbind : (x >>= f) s = match x s with
      | (.ok a, s') => f a s'
      | (.error e, s') => (.error e, s') := by
    change (ExceptT.bindCont f (x s).1) (x s).2 = _
    cases x s with
    | mk settled s' => cases settled <;> rfl
  unfold Settles at h ⊢
  rw [hbind]
  cases hx : x s with
  | mk settled s' =>
      rw [hx] at h
      cases settled with
      | ok a => exact h
      | error e => exact h

theorem settles_get_bind {f : σ → ExceptT ε (StateM σ) β} {post : Except ε β → σ → Prop}
    (h : Settles (f s) s post) : Settles (get >>= f) s post :=
  settles_bind h

/-- The handler runs where the computation throws, from the state that it leaves. -/
theorem settles_tryCatch {handle : ε → ExceptT ε (StateM σ) α}
    (h : Settles x s fun settled s' =>
      match settled with
      | .ok a => post (.ok a) s'
      | .error e => Settles (handle e) s' post) :
    Settles (tryCatch x handle) s post := by
  have hcatch : (tryCatch x handle) s = match x s with
      | (.ok a, s') => (.ok a, s')
      | (.error e, s') => handle e s' := by
    change (ExceptT.tryCatch x handle) s = _
    cases hx : x s with
    | mk settled s' =>
        simp only [ExceptT.tryCatch, ExceptT.mk, bind, StateT.bind, hx]
        cases settled <;> rfl
  unfold Settles at h ⊢
  rw [hcatch]
  cases hx : x s with
  | mk settled s' =>
      rw [hx] at h
      cases settled with
      | ok a => exact h
      | error e => exact h

end CantonSdk.Base
