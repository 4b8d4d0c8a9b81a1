import Mathlib.Data.List.Basic

/-!
# Frames

What stands before the first separator, and what stands after it, can be read off a sequence. Parts are framed one after
another, each behind a header for its length and a separator. When no header contains the separator and different lengths
have different headers, the frame determines the parts, whatever symbols they contain.
-/

set_option linter.all false

namespace CantonSdk.Base

variable {α : Type} {header : Nat → List α} {separator : α}

/-- What stands before the first separator, and what stands after it. -/
theorem append_cons_injective {left left' right right' : List α} (hleft : separator ∉ left) (hleft' : separator ∉ left')
    (h : left ++ separator :: right = left' ++ separator :: right') : left = left' ∧ right = right' := by
  induction left generalizing left' with
  | nil =>
      cases left' with
      | nil => exact ⟨rfl, (List.cons.inj h).2⟩
      | cons first rest => exact absurd List.mem_cons_self ((List.cons.inj h).1 ▸ hleft')
  | cons first rest ih =>
      cases left' with
      | nil => exact absurd List.mem_cons_self ((List.cons.inj h).1 ▸ hleft)
      | cons first' rest' =>
          obtain ⟨rfl, hrest⟩ := List.cons.inj h
          obtain ⟨rfl, hright⟩ := ih (List.not_mem_of_not_mem_cons hleft) (List.not_mem_of_not_mem_cons hleft') hrest
          exact ⟨rfl, hright⟩

/-- The parts in a row, each behind the header of its length and a separator. -/
def framed (header : Nat → List α) (separator : α) (parts : List (List α)) : List α :=
  parts.flatMap fun part => header part.length ++ separator :: part

theorem framed_cons (part : List α) (parts : List (List α)) :
    framed header separator (part :: parts) = header part.length ++ separator :: (part ++ framed header separator parts) := by
  rw [framed, List.flatMap_cons, List.append_assoc, List.cons_append]
  rfl

theorem framed_ne_nil (part : List α) (parts : List (List α)) : framed header separator (part :: parts) ≠ [] := by
  rw [framed_cons]
  exact List.append_ne_nil_of_right_ne_nil _ (List.cons_ne_nil _ _)

/-- The first header ends at the first separator and says where the first part ends. -/
theorem framed_injective (hheader : ∀ length, separator ∉ header length) (hdistinct : Function.Injective header) :
    Function.Injective (framed header separator) := by
  intro left
  induction left with
  | nil =>
      intro right h
      cases right with
      | nil => rfl
      | cons part parts => exact absurd h.symm (framed_ne_nil part parts)
  | cons part parts ih =>
      intro right h
      cases right with
      | nil => exact absurd h (framed_ne_nil part parts)
      | cons other others =>
          rw [framed_cons, framed_cons] at h
          obtain ⟨hlength, hrest⟩ := append_cons_injective (hheader _) (hheader _) h
          obtain ⟨hpart, hparts⟩ := List.append_inj hrest (hdistinct hlength)
          rw [hpart, ih hparts]

end CantonSdk.Base
