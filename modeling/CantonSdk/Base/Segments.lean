import Mathlib.Data.List.Basic

/-!
# Sequences cut into segments

What two sequences have in common at their start, and the texts that are made of segments with a separator between
them: text that is added at the end is added to the last segment.
-/

set_option linter.all false

namespace CantonSdk.Base

variable {α : Type}

section Common

variable [DecidableEq α]

/-- What is left of two lists when equal elements are taken off their fronts as long as there are any. -/
def dropCommon : List α → List α → List α × List α
  | left :: lefts, right :: rights => if left = right then dropCommon lefts rights else (left :: lefts, right :: rights)
  | lefts, rights => (lefts, rights)

theorem dropCommon_spec (lefts rights : List α) :
    ∃ common, lefts = common ++ (dropCommon lefts rights).1 ∧ rights = common ++ (dropCommon lefts rights).2 := by
  induction lefts generalizing rights with
  | nil => exact ⟨[], rfl, rfl⟩
  | cons left lefts ih =>
      cases rights with
      | nil => exact ⟨[], rfl, rfl⟩
      | cons right rights =>
          rw [dropCommon]
          split
          · rename_i heq
            obtain ⟨common, hleft, hright⟩ := ih rights
            exact ⟨left :: common, congrArg (left :: ·) hleft, by rw [← heq]; exact congrArg (left :: ·) hright⟩
          · exact ⟨[], rfl, rfl⟩

/-- Nothing is left of a list that is at the front of the other. -/
theorem dropCommon_snd_eq_nil {lefts rights : List α} : (dropCommon lefts rights).2 = [] ↔ rights <+: lefts := by
  constructor
  · intro hnil
    obtain ⟨common, hleft, hright⟩ := dropCommon_spec lefts rights
    rw [hnil, List.append_nil] at hright
    exact ⟨_, by rw [hright]; exact hleft.symm⟩
  · rintro ⟨rest, rfl⟩
    induction rights with
    | nil =>
        cases rest with
        | nil => rfl
        | cons first rest => rfl
    | cons right rights ih =>
        rw [List.cons_append, dropCommon, if_pos rfl]
        exact ih

end Common

/-! ## Texts of segments -/

section Joined

variable {separator : α}

theorem intercalate_concat_append (segments : List (List α)) (last ending : List α) :
    [separator].intercalate (segments ++ [last]) ++ ending = [separator].intercalate (segments ++ [last ++ ending]) := by
  induction segments with
  | nil => rw [List.nil_append, List.nil_append, List.intercalate_singleton, List.intercalate_singleton]
  | cons first rest ih =>
      have hcons : ∀ last : List α, [separator].intercalate (first :: rest ++ [last])
          = first ++ [separator] ++ [separator].intercalate (rest ++ [last]) := by
        intro last
        cases rest with
        | nil => rw [List.singleton_append, List.intercalate_cons_cons, List.nil_append]
        | cons second rest => rw [List.cons_append, List.cons_append, List.intercalate_cons_cons]
      rw [hcons, hcons, List.append_assoc _ _ ending, ih]

theorem intercalate_concat {segments : List (List α)} (h : segments ≠ []) (last : List α) :
    [separator].intercalate (segments ++ [last]) = [separator].intercalate segments ++ separator :: last := by
  induction segments with
  | nil => exact absurd rfl h
  | cons first rest ih =>
      cases rest with
      | nil => rw [List.singleton_append, List.intercalate_cons_cons, List.intercalate_singleton, List.intercalate_singleton,
          List.append_assoc, List.singleton_append]
      | cons second rest =>
          rw [List.cons_append, List.intercalate_cons_of_ne_nil (by simp), ih (List.cons_ne_nil _ _),
            List.intercalate_cons_of_ne_nil (List.cons_ne_nil second rest), List.append_assoc _ _ (separator :: last)]

theorem not_mem_of_mem_splitOn [BEq α] [LawfulBEq α] {text segment : List α} (h : segment ∈ text.splitOn separator) :
    separator ∉ segment := by
  induction text generalizing segment with
  | nil =>
      rw [List.splitOn_nil, List.mem_singleton] at h
      rw [h]
      exact List.not_mem_nil
  | cons first rest ih =>
      rw [List.splitOn_cons_eq_if_modifyHead] at h
      split at h
      · rcases List.mem_cons.mp h with rfl | h
        · exact List.not_mem_nil
        · exact ih h
      · rename_i hfirst
        cases hsegments : rest.splitOn separator with
        | nil => exact absurd hsegments (List.splitOn_ne_nil separator rest)
        | cons head tail =>
            rw [hsegments, List.modifyHead_cons] at h
            rcases List.mem_cons.mp h with rfl | h
            · rintro hmem
              rcases List.mem_cons.mp hmem with rfl | hmem
              · exact hfirst (beq_self_eq_true separator)
              · exact ih (hsegments ▸ List.mem_cons_self) hmem
            · exact ih (hsegments ▸ List.mem_cons_of_mem head h)

/-- The segments of a text to whose end something without a separator is added. -/
theorem splitOn_append [BEq α] [LawfulBEq α] (text : List α) {ending : List α} (hending : separator ∉ ending) :
    ∃ segments last, text.splitOn separator = segments ++ [last]
      ∧ (text ++ ending).splitOn separator = segments ++ [last ++ ending] := by
  have hne := List.splitOn_ne_nil separator text
  have hlast := List.dropLast_concat_getLast hne
  refine ⟨(text.splitOn separator).dropLast, (text.splitOn separator).getLast hne, hlast.symm, ?_⟩
  have htext : text ++ ending
      = [separator].intercalate ((text.splitOn separator).dropLast ++ [(text.splitOn separator).getLast hne ++ ending]) := by
    rw [← intercalate_concat_append, hlast, List.intercalate_splitOn]
  rw [htext]
  refine List.splitOn_intercalate separator (fun segment hsegment => ?_) (by simp)
  rcases List.mem_append.mp hsegment with hmem | hmem
  · exact not_mem_of_mem_splitOn ((List.dropLast_sublist _).subset hmem)
  · rw [List.mem_singleton.mp hmem, List.mem_append]
    rintro (hmem | hmem)
    · exact not_mem_of_mem_splitOn (List.getLast_mem hne) hmem
    · exact hending hmem

end Joined

end CantonSdk.Base
