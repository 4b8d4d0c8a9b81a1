import CantonSdk.Base.KeyedMap

/-!
# Worklists

A loop that takes the first pending entry, visits it unless that has been done, and adds what the visit
refers to. Where only finitely many entries can be visited the loop ends, whatever they refer to; what it
has visited when it succeeds is closed, and it fails exactly when something that can be reached cannot be
visited.
-/

set_option linter.all false

namespace CantonSdk.Base

/-- `set.add(entry)`. -/
def addPending {α : Type} [DecidableEq α] (pending : List α) (entry : α) : List α :=
  if entry ∈ pending then pending else pending ++ [entry]

/-- What the loop has done, what it has yet to look at, what it has visited in order, and whatever else a
visit leaves behind. -/
structure Worklist (α β σ : Type) where
  done : KeyedMap α β
  pending : List α
  visited : List α
  notes : σ

section Loop

variable {α β σ ε : Type} [DecidableEq α]

section Definitions

variable (visit : α → Except ε β) (successors : β → List α) (note : β → σ → σ) (outOfFuel : ε)

/-- The worklist after the first pending entry has been visited. -/
def Worklist.advance (w : Worklist α β σ) (entry : α) (rest : List α) (result : β) : Worklist α β σ where
  done := w.done.set entry result
  pending := (successors result).foldl addPending rest
  visited := w.visited ++ [entry]
  notes := note result w.notes

/-- The loop, for as many turns as there is fuel. -/
def drain : Nat → Worklist α β σ → Worklist α β σ × Except ε Unit
  | 0, w => (w, .error outOfFuel)
  | fuel + 1, w =>
      match w.pending with
      | [] => (w, .ok ())
      | entry :: rest =>
          if w.done.has entry then drain fuel { w with pending := rest }
          else
            match visit entry with
            | .error error =>
                ({ w with pending := rest, visited := w.visited ++ [entry] }, .error error)
            | .ok result => drain fuel (w.advance successors note entry rest result)

/-- The entries that the loop comes to: the roots, and whatever a visit to such an entry refers to, where
it is not done from the start. -/
inductive Reached (roots : α → Prop) (done : KeyedMap α β) : α → Prop
  | root {entry : α} : roots entry → Reached roots done entry
  | step {entry next : α} {result : β} : Reached roots done entry → entry ∉ done.keys →
      visit entry = .ok result → next ∈ successors result → Reached roots done next

end Definitions

theorem mem_addPending {pending : List α} {entry other : α} :
    other ∈ addPending pending entry ↔ other = entry ∨ other ∈ pending := by
  unfold addPending
  split
  · rename_i hmem
    constructor
    · exact Or.inr
    · intro h
      cases h with
      | inl heq => exact heq ▸ hmem
      | inr h => exact h
  · rw [List.mem_append, List.mem_singleton, or_comm]

theorem mem_foldl_addPending {entries pending : List α} {other : α} :
    other ∈ entries.foldl addPending pending ↔ other ∈ entries ∨ other ∈ pending := by
  induction entries generalizing pending with
  | nil => simp
  | cons first rest ih =>
      rw [List.foldl_cons, ih, mem_addPending, List.mem_cons]
      constructor
      · intro h
        rcases h with h | h | h
        · exact Or.inl (Or.inr h)
        · exact Or.inl (Or.inl h)
        · exact Or.inr h
      · intro h
        rcases h with (h | h) | h
        · exact Or.inr (Or.inl h)
        · exact Or.inl h
        · exact Or.inr (Or.inr h)

variable {visit : α → Except ε β} {successors : β → List α} {note : β → σ → σ} {outOfFuel : ε}

/-! ## The loop ends -/

/-- A run that ended within its fuel is the same with more. -/
theorem drain_more_fuel {fuel more : Nat} {w : Worklist α β σ}
    (hended : (drain visit successors note outOfFuel fuel w).2 ≠ .error outOfFuel) :
    drain visit successors note outOfFuel (fuel + more) w
      = drain visit successors note outOfFuel fuel w := by
  induction fuel generalizing w with
  | zero => exact absurd rfl hended
  | succ fuel ih =>
      rw [Nat.succ_add_eq_add_succ]
      change drain visit successors note outOfFuel ((fuel + more) + 1) w = _
      rw [drain] at hended ⊢
      rw [drain]
      cases hpending : w.pending with
      | nil => rfl
      | cons entry rest =>
          rw [hpending] at hended
          dsimp only at hended ⊢
          split
          · rename_i hdone
            rw [if_pos hdone] at hended
            exact ih hended
          · rename_i hdone
            rw [if_neg hdone] at hended
            cases hvisit : visit entry with
            | error error => rfl
            | ok result =>
                rw [hvisit] at hended
                exact ih hended

/-- Where only finitely many entries can be visited, and no visit runs out of fuel itself, the loop ends. -/
theorem exists_drain_ends {finite : List α} (hfinite : ∀ entry result, visit entry = .ok result → entry ∈ finite)
    (hvisit : ∀ entry, visit entry ≠ .error outOfFuel) (w : Worklist α β σ) :
    ∃ fuel, (drain visit successors note outOfFuel fuel w).2 ≠ .error outOfFuel := by
  -- Each visit takes one of the finitely many entries that are not done; between visits the list gets shorter.
  generalize hleft : (finite.filter fun entry => decide (entry ∉ w.done.keys)).length = left
  induction left using Nat.strongRecOn generalizing w with
  | _ left ihLeft =>
      generalize hlength : w.pending.length = length
      induction length generalizing w with
      | zero =>
          refine ⟨1, ?_⟩
          rw [drain, List.length_eq_zero_iff.mp hlength]
          nofun
      | succ length ihLength =>
          obtain ⟨entry, rest, hpending⟩ : ∃ entry rest, w.pending = entry :: rest :=
            List.exists_cons_of_length_eq_add_one hlength
          by_cases hdone : w.done.has entry
          · obtain ⟨fuel, hfuel⟩ := ihLength { w with pending := rest } hleft (by
              rw [hpending] at hlength
              exact Nat.succ.inj hlength)
            refine ⟨fuel + 1, ?_⟩
            rw [drain, hpending]
            dsimp only
            rw [if_pos hdone]
            exact hfuel
          · cases hresult : visit entry with
            | error error =>
                refine ⟨1, ?_⟩
                rw [drain, hpending]
                dsimp only
                rw [if_neg hdone, hresult]
                intro h
                have herror : error = outOfFuel := Except.error.inj h
                exact hvisit entry (herror ▸ hresult)
            | ok result =>
                have hfresh : entry ∉ w.done.keys := by simpa [KeyedMap.has] using hdone
                have hfewer : (finite.filter fun other =>
                    decide (other ∉ (w.advance successors note entry rest result).done.keys)).length < left := by
                  have hfilter : (finite.filter fun other =>
                      decide (other ∉ (w.advance successors note entry rest result).done.keys))
                        = (finite.filter fun other => decide (other ∉ w.done.keys)).filter
                            fun other => decide (other ≠ entry) := by
                    rw [List.filter_filter]
                    apply List.filter_congr
                    intro other _
                    rw [← Bool.decide_and, decide_eq_decide, Worklist.advance, KeyedMap.mem_keys_set, not_or]
                  rw [hfilter, ← hleft, List.length_filter_lt_length_iff_exists]
                  refine ⟨entry, List.mem_filter.mpr ⟨hfinite entry result hresult, ?_⟩, ?_⟩
                  · exact decide_eq_true hfresh
                  · simp
                obtain ⟨fuel, hfuel⟩ := ihLeft _ hfewer (w.advance successors note entry rest result) rfl
                refine ⟨fuel + 1, ?_⟩
                rw [drain, hpending]
                dsimp only
                rw [if_neg hdone, hresult]
                exact hfuel

/-! ## What the loop has explored -/

/-- Everything done is done from the start or was visited once, for a reason; what has been referred to is
done or pending; and every visit has been noted. -/
structure Explored (visit : α → Except ε β) (successors : β → List α) (noted : β → σ → Prop)
    (roots : α → Prop) (start : KeyedMap α β) (w : Worklist α β σ) : Prop where
  kept : ∀ entry result, start.get entry = some result → w.done.get entry = some result
  done_cases : ∀ entry result, w.done.get entry = some result →
    start.get entry = some result ∨ entry ∈ w.visited ∧ visit entry = .ok result
  visited_done : ∀ entry ∈ w.visited, entry ∈ w.done.keys
  visited_reached : ∀ entry ∈ w.visited, Reached visit successors roots start entry ∧ entry ∉ start.keys
  visited_nodup : w.visited.Nodup
  pending_reached : ∀ entry ∈ w.pending, Reached visit successors roots start entry
  roots_covered : ∀ entry, roots entry → entry ∈ w.done.keys ∨ entry ∈ w.pending
  visited_covered : ∀ entry ∈ w.visited, ∀ result, visit entry = .ok result →
    ∀ next ∈ successors result, next ∈ w.done.keys ∨ next ∈ w.pending
  notes_made : ∀ entry result, w.done.get entry = some result → noted result w.notes

variable {noted : β → σ → Prop} {roots : α → Prop} {start : KeyedMap α β} {w : Worklist α β σ}
  {entry : α} {rest : List α}

/-- A pending entry that is done is passed over. -/
theorem Explored.skip (h : Explored visit successors noted roots start w)
    (hpending : w.pending = entry :: rest) (hdone : entry ∈ w.done.keys) :
    Explored visit successors noted roots start { w with pending := rest } where
  kept := h.kept
  done_cases := h.done_cases
  visited_done := h.visited_done
  visited_reached := h.visited_reached
  visited_nodup := h.visited_nodup
  pending_reached other hother := h.pending_reached other (hpending ▸ List.mem_cons_of_mem _ hother)
  roots_covered other hother := by
    have hcovered := h.roots_covered other hother
    rw [hpending, List.mem_cons] at hcovered
    rcases hcovered with hmem | rfl | hmem
    · exact Or.inl hmem
    · exact Or.inl hdone
    · exact Or.inr hmem
  visited_covered other hother result hresult next hnext := by
    have hcovered := h.visited_covered other hother result hresult next hnext
    rw [hpending, List.mem_cons] at hcovered
    rcases hcovered with hmem | rfl | hmem
    · exact Or.inl hmem
    · exact Or.inl hdone
    · exact Or.inr hmem
  notes_made := h.notes_made

theorem Explored.advance (hnote : ∀ result notes, noted result (note result notes))
    (hstable : ∀ result other notes, noted result notes → noted result (note other notes))
    (h : Explored visit successors noted roots start w) (hpending : w.pending = entry :: rest)
    (hfresh : entry ∉ w.done.keys) {result : β} (hvisit : visit entry = .ok result) :
    Explored visit successors noted roots start (w.advance successors note entry rest result) := by
  have hstart : entry ∉ start.keys := by
    intro hmem
    obtain ⟨value, hvalue⟩ := KeyedMap.mem_keys.mp hmem
    exact hfresh (KeyedMap.mem_keys.mpr ⟨value, h.kept entry value hvalue⟩)
  have hunvisited : entry ∉ w.visited := fun hmem => hfresh (h.visited_done entry hmem)
  have hreached := h.pending_reached entry (hpending ▸ List.mem_cons_self)
  have hdone : ∀ other, other ∈ w.done.keys ∨ other ∈ w.pending →
      other ∈ (w.advance successors note entry rest result).done.keys ∨
        other ∈ (w.advance successors note entry rest result).pending := by
    intro other hother
    rw [hpending, List.mem_cons] at hother
    rw [Worklist.advance, KeyedMap.mem_keys_set, mem_foldl_addPending]
    rcases hother with hmem | heq | hmem
    · exact Or.inl (Or.inr hmem)
    · exact Or.inl (Or.inl heq)
    · exact Or.inr (Or.inr hmem)
  constructor
  · intro other value hvalue
    have hne : other ≠ entry := by
      intro heq
      exact hstart (heq ▸ KeyedMap.mem_keys.mpr ⟨value, hvalue⟩)
    rw [Worklist.advance, KeyedMap.get_set_ne hne]
    exact h.kept other value hvalue
  · intro other value hvalue
    rw [Worklist.advance, KeyedMap.get_set] at hvalue
    split at hvalue
    · rename_i heq
      obtain rfl := Option.some.inj hvalue
      exact Or.inr ⟨List.mem_append_right _ (heq ▸ List.mem_cons_self), heq ▸ hvisit⟩
    · cases h.done_cases other value hvalue with
      | inl hstart => exact Or.inl hstart
      | inr hvisited => exact Or.inr ⟨List.mem_append_left _ hvisited.1, hvisited.2⟩
  · intro other hother
    rw [Worklist.advance, KeyedMap.mem_keys_set]
    cases List.mem_append.mp hother with
    | inl hmem => exact Or.inr (h.visited_done other hmem)
    | inr hmem => exact Or.inl (List.mem_singleton.mp hmem)
  · intro other hother
    cases List.mem_append.mp hother with
    | inl hmem => exact h.visited_reached other hmem
    | inr hmem =>
        rw [List.mem_singleton.mp hmem]
        exact ⟨hreached, hstart⟩
  · exact h.visited_nodup.append (List.nodup_singleton _) (by simpa using hunvisited)
  · intro other hother
    rw [Worklist.advance, mem_foldl_addPending] at hother
    cases hother with
    | inl hnext => exact Reached.step hreached hstart hvisit hnext
    | inr hmem => exact h.pending_reached other (hpending ▸ List.mem_cons_of_mem _ hmem)
  · intro other hother
    exact hdone other (h.roots_covered other hother)
  · intro other hother value hvalue next hnext
    cases List.mem_append.mp hother with
    | inl hmem => exact hdone next (h.visited_covered other hmem value hvalue next hnext)
    | inr hmem =>
        rw [List.mem_singleton.mp hmem, hvisit] at hvalue
        obtain rfl := Except.ok.inj hvalue
        exact Or.inr (mem_foldl_addPending.mpr (Or.inl hnext))
  · intro other value hvalue
    rw [Worklist.advance, KeyedMap.get_set] at hvalue
    split at hvalue
    · obtain rfl := Option.some.inj hvalue
      exact hnote _ _
    · exact hstable _ _ _ (h.notes_made other value hvalue)

/-- How a run of the loop can end. -/
def DrainEnds (visit : α → Except ε β) (successors : β → List α) (noted : β → σ → Prop) (outOfFuel : ε)
    (roots : α → Prop) (start : KeyedMap α β) (w : Worklist α β σ) : Except ε Unit → Prop
  | .ok () => Explored visit successors noted roots start w ∧ w.pending = []
  | .error error =>
      (error = outOfFuel ∨ ∃ entry, Reached visit successors roots start entry ∧ entry ∉ start.keys ∧
        visit entry = .error error) ∧
      w.visited.Nodup ∧ ∀ entry ∈ w.visited, entry ∉ start.keys

theorem drain_ends (hnote : ∀ result notes, noted result (note result notes))
    (hstable : ∀ result other notes, noted result notes → noted result (note other notes)) (fuel : Nat)
    (h : Explored visit successors noted roots start w) :
    DrainEnds visit successors noted outOfFuel roots start
      (drain visit successors note outOfFuel fuel w).1
      (drain visit successors note outOfFuel fuel w).2 := by
  induction fuel generalizing w with
  | zero => exact ⟨Or.inl rfl, h.visited_nodup, fun entry hentry => (h.visited_reached entry hentry).2⟩
  | succ fuel ih =>
      rw [drain]
      cases hpending : w.pending with
      | nil => exact ⟨h, hpending⟩
      | cons entry rest =>
          dsimp only
          split
          · rename_i hdone
            exact ih (h.skip hpending (of_decide_eq_true hdone))
          · rename_i hdone
            have hfresh : entry ∉ w.done.keys := fun hmem => hdone (decide_eq_true hmem)
            cases hvisit : visit entry with
            | ok result => exact ih (h.advance hnote hstable hpending hfresh hvisit)
            | error error =>
                have hreached := h.pending_reached entry (hpending ▸ List.mem_cons_self)
                have hstart : entry ∉ start.keys := by
                  intro hmem
                  obtain ⟨value, hvalue⟩ := KeyedMap.mem_keys.mp hmem
                  exact hfresh (KeyedMap.mem_keys.mpr ⟨value, h.kept entry value hvalue⟩)
                refine ⟨Or.inr ⟨entry, hreached, hstart, hvisit⟩, ?_, ?_⟩
                · apply h.visited_nodup.append (List.nodup_singleton _)
                  simpa using fun hmem => hfresh (h.visited_done entry hmem)
                · intro other hother
                  cases List.mem_append.mp hother with
                  | inl hmem => exact (h.visited_reached other hmem).2
                  | inr hmem => exact List.mem_singleton.mp hmem ▸ hstart

/-- When nothing is pending, everything the loop can reach is done. -/
theorem Explored.complete (h : Explored visit successors noted roots start w) (hpending : w.pending = [])
    {entry : α} (hreached : Reached visit successors roots start entry) : entry ∈ w.done.keys := by
  induction hreached with
  | root hroot =>
      have hcovered := h.roots_covered _ hroot
      rw [hpending] at hcovered
      exact hcovered.resolve_right nofun
  | step _ hfresh hvisit hnext ih =>
      obtain ⟨value, hvalue⟩ := KeyedMap.mem_keys.mp ih
      cases h.done_cases _ value hvalue with
      | inl hstart => exact absurd (KeyedMap.mem_keys.mpr ⟨value, hstart⟩) hfresh
      | inr hvisited =>
          have hcovered := h.visited_covered _ hvisited.1 _ hvisit _ hnext
          rw [hpending] at hcovered
          exact hcovered.resolve_right nofun

end Loop

end CantonSdk.Base
