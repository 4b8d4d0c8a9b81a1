import CantonSdk.Base.Readable
import CantonSdk.Query.Canonical.Value

/-!
# JSON text of strings

The text of a string can be read back: every character is written in a way that tells it apart from the others
and from the quote that ends the string.
-/

set_option linter.all false

namespace CantonSdk.Query.Canonical

open CantonSdk.Base

/-- The characters that are written with a backslash and one more character. -/
def shortEscapes : List (Char × Char) :=
  [('"', '"'), ('\\', '\\'), ('\x08', 'b'), ('\t', 't'), ('\n', 'n'), ('\x0c', 'f'), ('\r', 'r')]

theorem shortEscape_injective : ∀ p ∈ shortEscapes, ∀ q ∈ shortEscapes, p.2 = q.2 → p.1 = q.1 := by decide

theorem shortEscape_ne_u : ∀ p ∈ shortEscapes, p.2 ≠ 'u' := by decide

/-- The digits of the code of a control character. -/
def escapeDigits (code : Nat) : List Char := padStart 4 '0' (Nat.toDigits 16 code)

theorem escapeDigits_injective : ∀ code < 32, ∀ other < 32, escapeDigits code = escapeDigits other → code = other := by
  decide +kernel

theorem length_escapeDigits : ∀ code < 32, (escapeDigits code).length = 4 := by decide

theorem eq_of_toNat {c d : Char} (h : c.toNat = d.toNat) : c = d := Char.toNat_inj.mp h

/-- A character is written as it is, with a short escape, or with the digits of its code. -/
theorem jsonChar_cases (c : Char) :
    (jsonChar c = [c] ∧ c ≠ '"' ∧ c ≠ '\\') ∨ (∃ escaped, jsonChar c = ['\\', escaped] ∧ (c, escaped) ∈ shortEscapes) ∨
      (jsonChar c = '\\' :: 'u' :: escapeDigits c.toNat ∧ c.toNat < 32) := by
  unfold jsonChar
  split
  · rename_i h
    exact .inr (.inl ⟨'"', rfl, by rw [h]; decide⟩)
  split
  · rename_i h
    exact .inr (.inl ⟨'\\', rfl, by rw [h]; decide⟩)
  split
  · rename_i h
    exact .inr (.inl ⟨'b', rfl, by rw [eq_of_toNat (d := '\x08') h]; decide⟩)
  split
  · rename_i h
    exact .inr (.inl ⟨'t', rfl, by rw [eq_of_toNat (d := '\t') h]; decide⟩)
  split
  · rename_i h
    exact .inr (.inl ⟨'n', rfl, by rw [eq_of_toNat (d := '\n') h]; decide⟩)
  split
  · rename_i h
    exact .inr (.inl ⟨'f', rfl, by rw [eq_of_toNat (d := '\x0c') h]; decide⟩)
  split
  · rename_i h
    exact .inr (.inl ⟨'r', rfl, by rw [eq_of_toNat (d := '\r') h]; decide⟩)
  split
  · rename_i h
    exact .inr (.inr ⟨rfl, h⟩)
  · exact .inl ⟨rfl, ‹_›, ‹_›⟩

/-- A written character is told apart from every other, whatever stands behind it. -/
theorem jsonChar_append_injective (c d : Char) (rest rest' : List Char)
    (h : jsonChar c ++ rest = jsonChar d ++ rest') : c = d ∧ rest = rest' := by
  rcases jsonChar_cases c with ⟨hc, _, hslash⟩ | ⟨escaped, hc, hescape⟩ | ⟨hc, hcontrol⟩
  · rw [hc] at h
    rcases jsonChar_cases d with ⟨hd, _⟩ | ⟨escaped', hd, _⟩ | ⟨hd, _⟩
    · rw [hd] at h
      exact List.cons.inj h
    · rw [hd] at h
      exact absurd (List.cons.inj h).1 hslash
    · rw [hd] at h
      exact absurd (List.cons.inj h).1 hslash
  · rw [hc] at h
    rcases jsonChar_cases d with ⟨hd, _, hslash⟩ | ⟨escaped', hd, hescape'⟩ | ⟨hd, _⟩
    · rw [hd] at h
      exact absurd (List.cons.inj h).1.symm hslash
    · rw [hd] at h
      obtain ⟨hsame, hrest⟩ := List.cons.inj (List.cons.inj h).2
      exact ⟨shortEscape_injective _ hescape _ hescape' hsame, hrest⟩
    · rw [hd] at h
      exact absurd (List.cons.inj (List.cons.inj h).2).1 (shortEscape_ne_u _ hescape)
  · rw [hc] at h
    rcases jsonChar_cases d with ⟨hd, _, hslash⟩ | ⟨escaped', hd, hescape'⟩ | ⟨hd, hcontrol'⟩
    · rw [hd] at h
      exact absurd (List.cons.inj h).1.symm hslash
    · rw [hd] at h
      exact absurd (List.cons.inj (List.cons.inj h).2).1.symm (shortEscape_ne_u _ hescape')
    · rw [hd] at h
      have hdigits := (List.cons.inj (List.cons.inj h).2).2
      have hlength : (escapeDigits c.toNat).length = (escapeDigits d.toNat).length := by
        rw [length_escapeDigits _ hcontrol, length_escapeDigits _ hcontrol']
      obtain ⟨hsame, hrest⟩ := List.append_inj hdigits hlength
      exact ⟨eq_of_toNat (escapeDigits_injective _ hcontrol _ hcontrol' hsame), hrest⟩

theorem jsonChar_ne_quote (c : Char) (rest rest' : List Char) : jsonChar c ++ rest ≠ '"' :: rest' := by
  intro h
  rcases jsonChar_cases c with ⟨hc, hquote, _⟩ | ⟨escaped, hc, _⟩ | ⟨hc, _⟩
  · rw [hc] at h
    exact hquote (List.cons.inj h).1
  · rw [hc] at h
    exact absurd (List.cons.inj h).1 (by decide)
  · rw [hc] at h
    exact absurd (List.cons.inj h).1 (by decide)

theorem toList_jsonString (text : String) :
    (jsonString text).toList = '"' :: (text.toList.flatMap jsonChar ++ ['"']) := by
  simp [jsonString]

/-- The text of a string ends with its second quote, whatever stands behind it. -/
theorem jsonString_append_injective {text text' : String} {rest rest' : List Char}
    (h : (jsonString text).toList ++ rest = (jsonString text').toList ++ rest') : text = text' ∧ rest = rest' := by
  rw [toList_jsonString, toList_jsonString, List.cons_append, List.cons_append, List.append_assoc,
    List.append_assoc] at h
  obtain ⟨htext, hrest⟩ := flatMap_until jsonChar_append_injective jsonChar_ne_quote (List.cons.inj h).2
  exact ⟨String.toList_inj.mp htext, hrest⟩

theorem jsonString_injective {text text' : String} (h : jsonString text = jsonString text') : text = text' := by
  have hlists : (jsonString text).toList ++ [] = (jsonString text').toList ++ [] := by rw [h]
  exact (jsonString_append_injective hlists).1

end CantonSdk.Query.Canonical
