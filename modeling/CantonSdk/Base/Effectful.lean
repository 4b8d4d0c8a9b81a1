import Mathlib.Logic.Basic
import Mathlib.Control.Traversable.Basic

/-!
# Computations that keep their state when they fail

A computation reads a context and changes a state, and what it has changed before it fails stays changed. The
rules say how the outcome is found from the parts of a computation, what every computation built from such parts
does to the state, and that a run which has not given up goes the same way when it may go further.
-/

set_option linter.all false

namespace CantonSdk.Base

variable {ρ ε σ α β : Type}

abbrev Effectful (ρ ε σ : Type) := ReaderT ρ (ExceptT ε (StateM σ))

/-- Goes on with the result, or leaves the failure as it is. -/
def andThen : Except ε α × σ → (α → σ → Except ε β × σ) → Except ε β × σ
  | (.ok a, s), next => next a s
  | (.error e, s), _ => (.error e, s)

/-- Goes on with the failure, or leaves the result as it is. -/
def orElse : Except ε α × σ → (ε → σ → Except ε α × σ) → Except ε α × σ
  | (.ok a, s), _ => (.ok a, s)
  | (.error e, s), handle => handle e s

variable {r : ρ} {s s' : σ} {a : α} {e : ε}

@[simp] theorem andThen_ok {next : α → σ → Except ε β × σ} : andThen (.ok a, s) next = next a s := rfl

@[simp] theorem andThen_error {next : α → σ → Except ε β × σ} : andThen (.error e, s) next = (.error e, s) := rfl

@[simp] theorem orElse_ok {handle : ε → σ → Except ε α × σ} : orElse (.ok a, s) handle = (.ok a, s) := rfl

@[simp] theorem orElse_error {handle : ε → σ → Except ε α × σ} : orElse (.error e, s) handle = handle e s := rfl

theorem run_pure : (pure a : Effectful ρ ε σ α) r s = (.ok a, s) := rfl

theorem run_throw : (throw e : Effectful ρ ε σ α) r s = (.error e, s) := rfl

theorem run_read : (read : Effectful ρ ε σ ρ) r s = (.ok r, s) := rfl

theorem run_get : (get : Effectful ρ ε σ σ) r s = (.ok s, s) := rfl

theorem run_modify {f : σ → σ} : (modify f : Effectful ρ ε σ PUnit) r s = (.ok ⟨⟩, f s) := rfl

theorem run_withReader {f : ρ → ρ} {x : Effectful ρ ε σ α} : (withReader f x : Effectful ρ ε σ α) r s = x (f r) s := rfl

theorem run_bind {x : Effectful ρ ε σ α} {f : α → Effectful ρ ε σ β} :
    (x >>= f) r s = andThen (x r s) fun a s' => f a r s' := by
  have hbind : (x >>= f) r s = (ExceptT.bindCont (fun a => f a r) (x r s).1 : StateM σ (Except ε β)) (x r s).2 := rfl
  rw [hbind]
  rcases x r s with ⟨_ | _, _⟩ <;> rfl

theorem run_tryCatch {x : Effectful ρ ε σ α} {handler : ε → Effectful ρ ε σ α} :
    (tryCatch x handler : Effectful ρ ε σ α) r s = orElse (x r s) fun e s' => handler e r s' := by
  have hcatch : (tryCatch x handler : Effectful ρ ε σ α) r s
      = (ExceptT.tryCatch (x r : ExceptT ε (StateM σ) α) fun e => handler e r : StateM σ (Except ε α)) s := rfl
  rw [hcatch, ExceptT.tryCatch]
  simp only [ExceptT.mk, bind, StateT.bind]
  rcases hx : x r s with ⟨_ | _, _⟩ <;> rfl

/-! ## What a computation keeps -/

/-- Whatever a run ends with, the state it ends in is as described if the state it starts in is. -/
def Keeps (R : σ → Prop) (x : Effectful ρ ε σ α) : Prop := ∀ r s, R s → R (x r s).2

section Keeps

variable {R : σ → Prop} {x : Effectful ρ ε σ α}

theorem keeps_pure : Keeps R (pure a : Effectful ρ ε σ α) := fun _ _ h => h

theorem keeps_throw : Keeps R (throw e : Effectful ρ ε σ α) := fun _ _ h => h

theorem keeps_read : Keeps R (read : Effectful ρ ε σ ρ) := fun _ _ h => h

theorem keeps_get : Keeps R (get : Effectful ρ ε σ σ) := fun _ _ h => h

/-- The rest of a run starts in a state that is as described, with a result that was reached from such a state. -/
theorem Keeps.bindResult {f : α → Effectful ρ ε σ β} (hx : Keeps R x)
    (hf : ∀ r s a s', R s → x r s = (.ok a, s') → R s' → R (f a r s').2) : Keeps R (x >>= f) := by
  intro r s hs
  have hstate := hx r s hs
  rw [run_bind]
  cases hrun : x r s with
  | mk result s' =>
      rw [hrun] at hstate
      cases result with
      | error e => exact hstate
      | ok a => exact hf r s a s' hs hrun hstate

theorem Keeps.bind {f : α → Effectful ρ ε σ β} (hx : Keeps R x) (hf : ∀ a, Keeps R (f a)) : Keeps R (x >>= f) :=
  hx.bindResult fun r _ a s' _ _ hs' => hf a r s' hs'

theorem Keeps.tryCatch {handler : ε → Effectful ρ ε σ α} (hx : Keeps R x) (hhandler : ∀ e, Keeps R (handler e)) :
    Keeps R (tryCatch x handler) := by
  intro r s hs
  have hstate := hx r s hs
  rw [run_tryCatch]
  cases hrun : x r s with
  | mk result s' =>
      rw [hrun] at hstate
      cases result with
      | error e => exact hhandler e r s' hstate
      | ok a => exact hstate

theorem Keeps.withReader {f : ρ → ρ} (hx : Keeps R x) : Keeps R (withReader f x : Effectful ρ ε σ α) :=
  fun r s hs => hx (f r) s hs

theorem keeps_foldlM {f : β → α → Effectful ρ ε σ β} (hf : ∀ b a, Keeps R (f b a)) (list : List α) (b : β) :
    Keeps R (list.foldlM f b) := by
  induction list generalizing b with
  | nil => exact keeps_pure
  | cons first rest ih =>
      rw [List.foldlM_cons]
      exact (hf b first).bind fun b' => ih b'

end Keeps

end CantonSdk.Base
