import CantonSdk.Base.Checked

/-!
# Computations that agree

Two computations that may fail, each told where it stands, which matters to its reports only. They agree on a
condition when the condition says exactly whether both succeed, and, where the comparison is strict, with one
result. Agreement is kept by injective functions, by pairs and by traversals.
-/

set_option linter.all false

namespace CantonSdk.Base

variable {ε π α β ι : Type}

structure Agree (strict reads : Bool) (first second : π → Except ε α) : Prop where
  succeed : reads = true → ∃ a b, (∀ place, first place = .ok a) ∧ (∀ place, second place = .ok b) ∧
    (strict = true → a = b)
  only : ∀ place place' a b, first place = .ok a → second place' = .ok b → (strict = true → a = b) → reads = true

variable {strict reads : Bool} {first second : π → Except ε α}

theorem Agree.const {a : α} (hfirst : ∀ place, first place = .ok a) (hsecond : ∀ place, second place = .ok a) :
    Agree strict true first second :=
  ⟨fun _ => ⟨a, a, hfirst, hsecond, fun _ => rfl⟩, fun _ _ _ _ _ _ _ => rfl⟩

theorem Agree.first_fails (h : ∀ place a, first place ≠ .ok a) : Agree strict false first second :=
  ⟨nofun, fun place _ a _ hfirst _ _ => absurd hfirst (h place a)⟩

theorem Agree.second_fails (h : ∀ place a, second place ≠ .ok a) : Agree strict false first second :=
  ⟨nofun, fun _ place _ a _ hsecond _ => absurd hsecond (h place a)⟩

theorem Agree.congr {first' second' : π → Except ε α} (h : Agree strict reads first second)
    (hfirst : ∀ place, first' place = first place) (hsecond : ∀ place, second' place = second place) :
    Agree strict reads first' second' := by
  obtain rfl : first' = first := funext hfirst
  obtain rfl : second' = second := funext hsecond
  exact h

theorem Agree.map {f : α → β} (hinjective : Function.Injective f) (h : Agree strict reads first second) :
    Agree strict reads (fun place => f <$> first place) (fun place => f <$> second place) := by
  constructor
  · intro hreads
    obtain ⟨a, b, ha, hb, hsame⟩ := h.succeed hreads
    refine ⟨f a, f b, fun place => by rw [ha]; rfl, fun place => by rw [hb]; rfl, ?_⟩
    intro hstrict
    rw [hsame hstrict]
  · intro place place' a b hfirst hsecond hsame
    cases ha : first place with
    | error e => rw [ha] at hfirst; cases hfirst
    | ok a' =>
        cases hb : second place' with
        | error e => rw [hb] at hsecond; cases hsecond
        | ok b' =>
            rw [ha] at hfirst
            rw [hb] at hsecond
            cases hfirst
            cases hsecond
            exact h.only place place' a' b' ha hb fun hstrict => hinjective (hsame hstrict)

/-- Elsewhere, computations agree as well. -/
theorem Agree.elsewhere {ρ : Type} (h : Agree strict reads first second) (move move' : ρ → π) :
    Agree strict reads (fun place => first (move place)) (fun place => second (move' place)) := by
  constructor
  · intro hreads
    obtain ⟨a, b, ha, hb, hsame⟩ := h.succeed hreads
    exact ⟨a, b, fun place => ha _, fun place => hb _, hsame⟩
  · intro place place' a b hfirst hsecond hsame
    exact h.only _ _ a b hfirst hsecond hsame

theorem Agree.pair {reads' : Bool} {third fourth : π → Except ε β} (h : Agree strict reads first second)
    (h' : Agree strict reads' third fourth) :
    Agree strict (reads && reads') (fun place => do let a ← first place; let b ← third place; return (a, b))
      (fun place => do let a ← second place; let b ← fourth place; return (a, b)) := by
  constructor
  · intro hreads
    rw [Bool.and_eq_true] at hreads
    obtain ⟨a, b, ha, hb, hsame⟩ := h.succeed hreads.1
    obtain ⟨c, d, hc, hd, hsame'⟩ := h'.succeed hreads.2
    refine ⟨(a, c), (b, d), fun place => by rw [ha, hc]; rfl, fun place => by rw [hb, hd]; rfl, ?_⟩
    intro hstrict
    rw [hsame hstrict, hsame' hstrict]
  · intro place place' ac bd hfirst hsecond hsame
    obtain ⟨a, ha, hrest⟩ := bind_eq_ok.mp hfirst
    obtain ⟨c, hc, hac⟩ := bind_eq_ok.mp hrest
    obtain ⟨b, hb, hrest'⟩ := bind_eq_ok.mp hsecond
    obtain ⟨d, hd, hbd⟩ := bind_eq_ok.mp hrest'
    cases hac
    cases hbd
    rw [Bool.and_eq_true]
    exact ⟨h.only _ _ a b ha hb fun hstrict => (Prod.mk.inj (hsame hstrict)).1,
      h'.only _ _ c d hc hd fun hstrict => (Prod.mk.inj (hsame hstrict)).2⟩

/-- Traversals agree where their steps do. -/
theorem Agree.traverse {list : List ι} {reads : ι → Bool} {first second : Nat → ι → π → Except ε α}
    (h : ∀ entry ∈ list, ∀ index index',
      Agree strict (reads entry) (first index entry) (second index' entry)) (index index' : Nat) :
    Agree strict (list.all reads) (fun place => mapIndexed (fun index entry => first index entry place) index list)
      (fun place => mapIndexed (fun index entry => second index entry place) index' list) := by
  induction list generalizing index index' with
  | nil => exact .const (fun _ => rfl) (fun _ => rfl)
  | cons entry rest ih =>
      rw [List.forall_mem_cons] at h
      have hpair := (h.1 index index').pair (ih h.2 (index + 1) (index' + 1))
      have hcons : Function.Injective fun pair : α × List α => pair.1 :: pair.2 := by
        intro a b hab
        exact Prod.ext (List.cons.inj hab).1 (List.cons.inj hab).2
      refine (hpair.map hcons).congr ?_ ?_
      · intro place
        rw [mapIndexed]
        cases first index entry place with
        | error e => rfl
        | ok a => cases mapIndexed (fun index entry => first index entry place) (index + 1) rest <;> rfl
      · intro place
        rw [mapIndexed]
        cases second index' entry place with
        | error e => rfl
        | ok a => cases mapIndexed (fun index entry => second index entry place) (index' + 1) rest <;> rfl

end CantonSdk.Base
