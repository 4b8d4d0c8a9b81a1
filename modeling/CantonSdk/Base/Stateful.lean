import Mathlib.Logic.Basic
import Mathlib.Control.Traversable.Basic

/-!
# Computations with a state that may throw

What must hold before a computation for it to end in a given way, and the rules by which that is found from
the parts of the computation. A throw loses the state, so the errors a computation may throw are described
on their own.
-/

set_option linter.all false

namespace CantonSdk.Base

universe u

variable {σ ε : Type u} {α β γ : Type u}

/-- From the state, the computation ends with a result and a state as described, or throws an error of the
given kind. -/
def Ends (raise : ε → Prop) (x : StateT σ (Except ε) α) (s : σ) (post : α → σ → Prop) : Prop :=
  match x s with
  | .ok (a, s') => post a s'
  | .error e => raise e

variable {raise : ε → Prop} {x : StateT σ (Except ε) α} {s s' : σ} {post post' : α → σ → Prop}

theorem Ends.of_ok {a : α} (h : Ends raise x s post) (hrun : x s = .ok (a, s')) : post a s' := by
  rw [Ends, hrun] at h
  exact h

theorem Ends.of_error {e : ε} (h : Ends raise x s post) (hrun : x s = .error e) : raise e := by
  rw [Ends, hrun] at h
  exact h

theorem ends_pure {a : α} (h : post a s) : Ends raise (pure a : StateT σ (Except ε) α) s post := h

theorem ends_throw {e : ε} (h : raise e) : Ends raise (throw e : StateT σ (Except ε) α) s post := h

theorem ends_get {post : σ → σ → Prop} (h : post s s) :
    Ends raise (get : StateT σ (Except ε) σ) s post := h

theorem ends_set {post : PUnit → σ → Prop} (h : post ⟨⟩ s') :
    Ends raise (set s' : StateT σ (Except ε) PUnit) s post := h

theorem ends_modify {f : σ → σ} {post : PUnit → σ → Prop} (h : post ⟨⟩ (f s)) :
    Ends raise (modify f : StateT σ (Except ε) PUnit) s post := h

/-- A computation without the state, run inside one with it. -/
theorem ends_lift {y : Except ε α} (hok : ∀ a, y = .ok a → post a s) (herror : ∀ e, y = .error e → raise e) :
    Ends raise (StateT.lift y : StateT σ (Except ε) α) s post := by
  cases y with
  | error e => exact herror e rfl
  | ok a => exact hok a rfl

theorem ends_bind {f : α → StateT σ (Except ε) β} {post : β → σ → Prop}
    (h : Ends raise x s fun a s' => Ends raise (f a) s' post) : Ends raise (x >>= f) s post := by
  have hbind : (x >>= f) s = x s >>= fun p => f p.1 p.2 := rfl
  unfold Ends at h ⊢
  rw [hbind]
  cases hx : x s with
  | error e =>
      rw [hx] at h
      exact h
  | ok p =>
      rw [hx] at h
      exact h

theorem ends_map {f : α → β} {post : β → σ → Prop} (h : Ends raise x s fun a s' => post (f a) s') :
    Ends raise (f <$> x) s post := by
  have hmap : (f <$> x) s = x s >>= fun p => .ok (f p.1, p.2) := rfl
  unfold Ends at h ⊢
  rw [hmap]
  cases hx : x s with
  | error e =>
      rw [hx] at h
      exact h
  | ok p =>
      rw [hx] at h
      exact h

theorem Ends.mono (h : Ends raise x s post) (himp : ∀ a s', post a s' → post' a s') :
    Ends raise x s post' := by
  unfold Ends at h ⊢
  cases hx : x s with
  | error e =>
      rw [hx] at h
      exact h
  | ok p =>
      rw [hx] at h
      exact himp _ _ h

/-- Two parts one after the other: what the first establishes about the state is handed to the second. -/
theorem Ends.bind {f : α → StateT σ (Except ε) β} {post' : β → σ → Prop} (h : Ends raise x s post)
    (hf : ∀ a s', post a s' → Ends raise (f a) s' post') : Ends raise (x >>= f) s post' :=
  ends_bind (h.mono hf)

/-! A loop over a list. The invariant holds before and after each turn; what a turn establishes about its
result stays true in the states that later turns lead to. -/

section Loops

variable {invariant : σ → Prop} {leads : σ → σ → Prop} {good : γ → β → σ → Prop}
  {f : γ → StateT σ (Except ε) β} {list : List γ}

theorem ends_mapM (hrefl : ∀ s, leads s s) (htrans : ∀ s t u, leads s t → leads t u → leads s u)
    (hstable : ∀ a b s t, leads s t → good a b s → good a b t)
    (hturn : ∀ a ∈ list, ∀ s, invariant s →
      Ends raise (f a) s fun b s' => invariant s' ∧ leads s s' ∧ good a b s')
    (hinvariant : invariant s) :
    Ends raise (list.mapM f) s fun results s' =>
      invariant s' ∧ leads s s' ∧ List.Forall₂ (fun a b => good a b s') list results := by
  induction list generalizing s with
  | nil =>
      rw [List.mapM_nil]
      exact ends_pure ⟨hinvariant, hrefl s, .nil⟩
  | cons first rest ih =>
      rw [List.mapM_cons]
      apply (hturn first List.mem_cons_self s hinvariant).bind
      intro b t ht
      obtain ⟨hinv, hlead, hgood⟩ := ht
      apply (ih (fun a ha => hturn a (List.mem_cons_of_mem _ ha)) hinv).bind
      intro results u hu
      obtain ⟨hinv', hlead', hrest⟩ := hu
      exact ends_pure ⟨hinv', htrans s t u hlead hlead', .cons (hstable _ _ _ _ hlead' hgood) hrest⟩

end Loops

end CantonSdk.Base
