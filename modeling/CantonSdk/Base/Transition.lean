import Mathlib.Logic.Relation

/-!
# Runs of a transition system

A system is where its runs start and what one step can do. The two induction rules here are the only
ones the protocol modules use: an invariant is checked on the start states and on one step, and a
preorder that every step respects relates the two ends of a run.
-/

set_option linter.all false

namespace CantonSdk.Base

universe u

/-- A transition system over a state type. -/
structure TransitionSystem (σ : Type u) where
  init : σ → Prop
  step : σ → σ → Prop

namespace TransitionSystem

variable {σ : Type u} (T : TransitionSystem σ)

/-- Any number of steps, from any state. -/
def Run : σ → σ → Prop := Relation.ReflTransGen T.step

/-- The states that some run from a start state ends in. -/
def Reachable (s : σ) : Prop := ∃ start, T.init start ∧ T.Run start s

variable {T}

theorem Run.refl (s : σ) : T.Run s s := Relation.ReflTransGen.refl

theorem Run.tail {s t u : σ} (hrun : T.Run s t) (hstep : T.step t u) : T.Run s u :=
  Relation.ReflTransGen.tail hrun hstep

theorem Run.trans {s t u : σ} (hfirst : T.Run s t) (hsecond : T.Run t u) : T.Run s u :=
  Relation.ReflTransGen.trans hfirst hsecond

theorem Reachable.of_init {s : σ} (hinit : T.init s) : T.Reachable s := ⟨s, hinit, Run.refl s⟩

theorem Reachable.run {s t : σ} (hs : T.Reachable s) (hrun : T.Run s t) : T.Reachable t := by
  obtain ⟨start, hinit, hstart⟩ := hs
  exact ⟨start, hinit, hstart.trans hrun⟩

theorem Reachable.step {s t : σ} (hs : T.Reachable s) (hstep : T.step s t) : T.Reachable t :=
  hs.run ((Run.refl s).tail hstep)

/-- What one step preserves, a run preserves. -/
theorem Run.preserves {P : σ → Prop} (hstep : ∀ s t, P s → T.step s t → P t)
    {s t : σ} (hrun : T.Run s t) (hs : P s) : P t := by
  induction hrun with
  | refl => exact hs
  | tail _ hlast ih => exact hstep _ _ ih hlast

/-- A property of the start states that one step preserves holds in every reachable state. -/
theorem Reachable.invariant {P : σ → Prop} (hinit : ∀ s, T.init s → P s)
    (hstep : ∀ s t, P s → T.step s t → P t) {s : σ} (hs : T.Reachable s) : P s := by
  obtain ⟨start, hstart, hrun⟩ := hs
  exact hrun.preserves hstep (hinit start hstart)

/-- A preorder that every step of a reachable state respects relates both ends of a run. -/
theorem Run.related {R : σ → σ → Prop} (hrefl : ∀ s, R s s)
    (htrans : ∀ s t u, R s t → R t u → R s u)
    (hstep : ∀ s t, T.Reachable s → T.step s t → R s t)
    {s t : σ} (hs : T.Reachable s) (hrun : T.Run s t) : R s t := by
  induction hrun with
  | refl => exact hrefl s
  | tail hprefix hlast ih => exact htrans _ _ _ ih (hstep _ _ (hs.run hprefix) hlast)

end TransitionSystem

end CantonSdk.Base
