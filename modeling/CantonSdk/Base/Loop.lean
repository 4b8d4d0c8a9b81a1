import Mathlib.Algebra.BigOperators.Group.List.Basic
import Mathlib.Algebra.Ring.Nat
import Mathlib.Logic.Basic

/-!
# Loops that may throw

A `while` loop over a state whose body may throw. The fuel bounds its turns; a loop that makes progress in every turn
ends, and then more fuel changes nothing.
-/

set_option linter.all false

namespace CantonSdk.Base

variable {σ ε : Type}

/-- `while (going(state)) state = body(state)`; `none` while the fuel does not suffice. The body gets the fuel that is
left for loops of its own. -/
def runWhile (going : σ → Bool) (body : Nat → σ → Option (Except ε σ)) : Nat → σ → Option (Except ε σ)
  | 0, _ => none
  | fuel + 1, state =>
      if going state then
        match body fuel state with
        | none => none
        | some (.error error) => some (.error error)
        | some (.ok next) => runWhile going body fuel next
      else some (.ok state)

variable {going : σ → Bool} {body : Nat → σ → Option (Except ε σ)} {fuel : Nat} {state next : σ} {error : ε}

theorem runWhile_stop (h : going state = false) : runWhile going body (fuel + 1) state = some (.ok state) := by
  rw [runWhile, h]
  rfl

theorem runWhile_next (h : going state = true) (hbody : body fuel state = some (.ok next)) :
    runWhile going body (fuel + 1) state = runWhile going body fuel next := by
  rw [runWhile, if_pos h, hbody]

theorem runWhile_throw (h : going state = true) (hbody : body fuel state = some (.error error)) :
    runWhile going body (fuel + 1) state = some (.error error) := by
  rw [runWhile, if_pos h, hbody]

/-- A loop whose body keeps the invariant and decreases the measure ends within as much fuel as the measure. -/
theorem runWhile_ends (Inv : σ → Prop) (measure : σ → Nat)
    (hbody : ∀ fuel state, Inv state → going state = true → measure state ≤ fuel →
      ∃ result, body fuel state = some result ∧
        ∀ next, result = .ok next → Inv next ∧ measure next < measure state)
    (fuel : Nat) (state : σ) (hinv : Inv state) (hfuel : measure state < fuel) :
    ∃ result, runWhile going body fuel state = some result ∧
      ∀ final, result = .ok final → Inv final ∧ going final = false := by
  induction fuel generalizing state with
  | zero => omega
  | succ fuel ih =>
      cases hgoing : going state with
      | false => exact ⟨.ok state, runWhile_stop hgoing, fun final hfinal => Except.ok.inj hfinal ▸ ⟨hinv, hgoing⟩⟩
      | true =>
          obtain ⟨result, hresult, hnext⟩ := hbody fuel state hinv hgoing (by omega)
          cases result with
          | error error => exact ⟨.error error, runWhile_throw hgoing hresult, nofun⟩
          | ok next =>
              obtain ⟨hkept, hless⟩ := hnext next rfl
              rw [runWhile_next hgoing hresult]
              exact ih next hkept (by omega)

/-- More fuel changes nothing once the loop has ended, if it changes nothing in the body. -/
theorem runWhile_mono
    (hbody : ∀ fuel state result, body fuel state = some result → body (fuel + 1) state = some result)
    {result : Except ε σ} (h : runWhile going body fuel state = some result) :
    runWhile going body (fuel + 1) state = some result := by
  induction fuel generalizing state with
  | zero => cases h
  | succ fuel ih =>
      cases hgoing : going state with
      | false =>
          rw [runWhile_stop hgoing] at h
          rw [runWhile_stop hgoing, h]
      | true =>
          rw [runWhile, if_pos hgoing] at h
          split at h
          · cases h
          · rename_i hthrow
            rw [runWhile_throw hgoing (hbody _ _ _ hthrow), h]
          · rename_i hnext
            rw [runWhile_next hgoing (hbody _ _ _ hnext)]
            exact ih h

/-! ## Loops over parts

A state may stand at a sequence of parts; each turn of the loop takes the first, or throws if it is a bad one.
-/

section Parts

variable {β γ : Type} {At : σ → List β → Prop} {Good : β → Prop} {weight : β → Nat} {view : σ → γ} {step : γ → β → γ}
  (hgoing : ∀ state parts, At state parts → (going state = true ↔ parts ≠ []))
  (hweight : ∀ part, 0 < weight part)
  (hgood : ∀ fuel state part rest, At state (part :: rest) → Good part → weight part ≤ fuel →
    ∃ next, body fuel state = some (.ok next) ∧ At next rest ∧ view next = step (view state) part)

include hgoing hweight hgood

/-- If all parts are good, the loop takes them all. -/
theorem runWhile_takes {parts : List β} {fuel : Nat} {state : σ} (h : At state parts)
    (hfuel : (parts.map weight).sum < fuel) (hall : ∀ part ∈ parts, Good part) :
    ∃ final, runWhile going body fuel state = some (.ok final) ∧ view final = parts.foldl step (view state) := by
  induction parts generalizing fuel state with
  | nil =>
      obtain ⟨fuel, rfl⟩ : ∃ less, fuel = less + 1 := ⟨fuel - 1, by rw [List.map_nil, List.sum_nil] at hfuel; omega⟩
      have hstopped : going state = false := Bool.eq_false_iff.mpr fun hgo => (hgoing state _ h).mp hgo rfl
      exact ⟨state, runWhile_stop hstopped, rfl⟩
  | cons part rest ih =>
      rw [List.map_cons, List.sum_cons] at hfuel
      have hpart := hweight part
      obtain ⟨fuel, rfl⟩ : ∃ less, fuel = less + 1 := ⟨fuel - 1, by omega⟩
      obtain ⟨next, hnext, hat, hview⟩ := hgood fuel state part rest h (hall part List.mem_cons_self) (by omega)
      obtain ⟨final, hfinal, hfold⟩ := ih hat (show (rest.map weight).sum < fuel by omega)
        fun other hother => hall other (List.mem_cons_of_mem _ hother)
      exact ⟨final, (runWhile_next ((hgoing state _ h).mpr (List.cons_ne_nil _ _)) hnext).trans hfinal,
        hfold.trans (by rw [hview]; rfl)⟩

/-- If a part is bad, the loop throws. -/
theorem runWhile_throws
    (hbad : ∀ fuel state part rest, At state (part :: rest) → ¬ Good part → weight part ≤ fuel →
      ∃ error, body fuel state = some (.error error))
    {parts : List β} {fuel : Nat} {state : σ} (h : At state parts) (hfuel : (parts.map weight).sum < fuel)
    (hsome : ¬ ∀ part ∈ parts, Good part) : ∃ error, runWhile going body fuel state = some (.error error) := by
  induction parts generalizing fuel state with
  | nil => exact absurd (by simp) hsome
  | cons part rest ih =>
      rw [List.map_cons, List.sum_cons] at hfuel
      have hpart := hweight part
      obtain ⟨fuel, rfl⟩ : ∃ less, fuel = less + 1 := ⟨fuel - 1, by omega⟩
      have hgo := (hgoing state _ h).mpr (List.cons_ne_nil _ _)
      by_cases hfirst : Good part
      · obtain ⟨next, hnext, hat, _⟩ := hgood fuel state part rest h hfirst (by omega)
        obtain ⟨error, herror⟩ := ih hat (show (rest.map weight).sum < fuel by omega)
          fun hrest => hsome (List.forall_mem_cons.mpr ⟨hfirst, hrest⟩)
        exact ⟨error, (runWhile_next hgo hnext).trans herror⟩
      · obtain ⟨error, herror⟩ := hbad fuel state part rest h hfirst (by omega)
        exact ⟨error, runWhile_throw hgo herror⟩

end Parts

end CantonSdk.Base
