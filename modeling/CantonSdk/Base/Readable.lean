import CantonSdk.Base.Related
import Mathlib.Data.List.TakeDrop

/-!
# Codes that can be read back

A code is read back when, whatever may stand behind it, its end can be told: where two texts that start with
codes are equal, the codes are equal, and so is what stands behind them. Runs of a class of characters, lists
of codes up to a closing mark and lists of codes with separators between them are read back.
-/

set_option linter.all false

namespace CantonSdk.Base

variable {α β : Type}

/-! ## Runs of a class -/

theorem span_append {p : α → Bool} {front rest : List α} (hfront : ∀ c ∈ front, p c = true)
    (hrest : ∀ c ∈ rest.head?, p c = false) : (front ++ rest).span p = (front, rest) := by
  have hstop : rest.takeWhile p = [] ∧ rest.dropWhile p = rest := by
    cases rest with
    | nil => exact ⟨rfl, rfl⟩
    | cons c others => simp [hrest c rfl]
  rw [List.span_eq_takeWhile_dropWhile, List.takeWhile_append_of_pos hfront, List.dropWhile_append_of_pos hfront,
    hstop.1, hstop.2, List.append_nil]

/-- Two runs of one class that stand before something else. -/
theorem run_injective {p : α → Bool} {front front' rest rest' : List α} (hfront : ∀ c ∈ front, p c = true)
    (hfront' : ∀ c ∈ front', p c = true) (hrest : ∀ c ∈ rest.head?, p c = false)
    (hrest' : ∀ c ∈ rest'.head?, p c = false) (h : front ++ rest = front' ++ rest') :
    front = front' ∧ rest = rest' := by
  have hspan := span_append hfront hrest
  rw [h, span_append hfront' hrest'] at hspan
  exact ⟨(Prod.mk.inj hspan).1.symm, (Prod.mk.inj hspan).2.symm⟩

/-! ## Codes up to a closing mark -/

/-- Codes of which none starts with the closing mark, one behind the other up to that mark. -/
theorem flatMap_until {f : β → List α} {close : α}
    (hread : ∀ c d rest rest', f c ++ rest = f d ++ rest' → c = d ∧ rest = rest')
    (hstart : ∀ c rest rest', f c ++ rest ≠ close :: rest') {cs ds : List β} {rest rest' : List α}
    (h : cs.flatMap f ++ close :: rest = ds.flatMap f ++ close :: rest') : cs = ds ∧ rest = rest' := by
  induction cs generalizing ds with
  | nil =>
      cases ds with
      | nil => exact ⟨rfl, (List.cons.inj h).2⟩
      | cons d ds =>
          rw [List.flatMap_cons, List.append_assoc] at h
          exact absurd h.symm (hstart d _ _)
  | cons c cs ih =>
      rw [List.flatMap_cons, List.append_assoc] at h
      cases ds with
      | nil => exact absurd h (hstart c _ _)
      | cons d ds =>
          rw [List.flatMap_cons, List.append_assoc] at h
          obtain ⟨rfl, hrest⟩ := hread _ _ _ _ h
          obtain ⟨rfl, hsame⟩ := ih hrest
          exact ⟨rfl, hsame⟩

/-! ## Codes with separators between them -/

/-- What may stand behind a code: nothing, or one of the marks. -/
def Follows (marks rest : List α) : Prop := ∀ c ∈ rest.head?, c ∈ marks

/-- Where the codes stand before something that may follow, they end at the same place. -/
def EndTogether (marks left right : List α) : Prop :=
  ∀ rest rest', Follows marks rest → Follows marks rest' → left ++ rest = right ++ rest' → left = right

theorem follows_cons {marks rest : List α} {c : α} (h : c ∈ marks) : Follows marks (c :: rest) := by
  intro d hd
  obtain rfl := Option.some.inj hd
  exact h

theorem follows_nil (marks : List α) : Follows marks [] := nofun

/-- What stands behind the first code of a list. -/
def behindFirst (separator close : α) (rest : List α) : List (List α) → List α
  | [] => close :: rest
  | code :: codes => separator :: (code ++ behindFirst separator close rest codes)

theorem intercalate_append (separator close : α) (code : List α) (codes : List (List α)) (rest : List α) :
    [separator].intercalate (code :: codes) ++ close :: rest = code ++ behindFirst separator close rest codes := by
  induction codes generalizing code with
  | nil => rw [List.intercalate_singleton, behindFirst]
  | cons next codes ih =>
      rw [List.intercalate_cons_cons, behindFirst, List.append_assoc, List.append_assoc, ih]
      rfl

section Separated

variable {marks : List α} {separator close : α} {left right : List (List α)} {rest rest' : List α}

theorem follows_behindFirst (hseparator : separator ∈ marks) (hclose : close ∈ marks) :
    Follows marks (behindFirst separator close rest left) := by
  cases left with
  | nil => exact follows_cons hclose
  | cons code codes => exact follows_cons hseparator

theorem behindFirst_injective (hseparator : separator ∈ marks) (hclose : close ∈ marks) (hne : separator ≠ close)
    (hread : ∀ code ∈ left, ∀ code' ∈ right, EndTogether marks code code')
    (h : behindFirst separator close rest left = behindFirst separator close rest' right) :
    left = right ∧ rest = rest' := by
  induction left generalizing right with
  | nil =>
      cases right with
      | nil => exact ⟨rfl, (List.cons.inj h).2⟩
      | cons code' codes' => exact absurd (List.cons.inj h).1.symm hne
  | cons code codes ih =>
      cases right with
      | nil => exact absurd (List.cons.inj h).1 hne
      | cons code' codes' =>
          have htails := (List.cons.inj h).2
          obtain rfl := hread code List.mem_cons_self code' List.mem_cons_self _ _
            (follows_behindFirst hseparator hclose) (follows_behindFirst hseparator hclose) htails
          obtain ⟨rfl, hsame⟩ := ih (fun code hcode code' hcode' => hread code (List.mem_cons_of_mem _ hcode)
            code' (List.mem_cons_of_mem _ hcode')) (List.append_cancel_left htails)
          exact ⟨rfl, hsame⟩

/-- Codes that do not start with the closing mark, with separators between them and the closing mark behind. -/
theorem intercalate_injective (hseparator : separator ∈ marks) (hclose : close ∈ marks) (hne : separator ≠ close)
    (hread : ∀ code ∈ left, ∀ code' ∈ right, EndTogether marks code code')
    (hleft : ∀ code ∈ left, ∃ c ∈ code.head?, c ≠ close) (hright : ∀ code ∈ right, ∃ c ∈ code.head?, c ≠ close)
    (h : [separator].intercalate left ++ close :: rest = [separator].intercalate right ++ close :: rest') :
    left = right ∧ rest = rest' := by
  have hstart : ∀ code other other' : List α, (∃ c ∈ code.head?, c ≠ close) → code ++ other ≠ close :: other' := by
    intro code other other' hhead heq
    obtain ⟨c, hc, hcne⟩ := hhead
    cases code with
    | nil => cases hc
    | cons d code =>
        obtain rfl := Option.some.inj hc
        exact hcne (List.cons.inj heq).1
  cases left with
  | nil =>
      cases right with
      | nil => exact ⟨rfl, (List.cons.inj h).2⟩
      | cons code' codes' =>
          rw [intercalate_append] at h
          exact absurd h.symm (hstart _ _ _ (hright code' List.mem_cons_self))
  | cons code codes =>
      rw [intercalate_append] at h
      cases right with
      | nil => exact absurd h (hstart _ _ _ (hleft code List.mem_cons_self))
      | cons code' codes' =>
          rw [intercalate_append] at h
          obtain rfl := hread code List.mem_cons_self code' List.mem_cons_self _ _
            (follows_behindFirst hseparator hclose) (follows_behindFirst hseparator hclose) h
          obtain ⟨rfl, hsame⟩ := behindFirst_injective hseparator hclose hne (fun code hcode code' hcode' =>
            hread code (List.mem_cons_of_mem _ hcode) code' (List.mem_cons_of_mem _ hcode'))
            (List.append_cancel_left h)
          exact ⟨rfl, hsame⟩

/-- Lists that are written entry by entry, where the entries of both are told apart by their codes. -/
theorem written_injective {γ : Type} {Writes : β → γ → Prop} {code : γ → List α} {list list' : List β} {texts texts' : List γ}
    (hseparator : separator ∈ marks) (hclose : close ∈ marks) (hne : separator ≠ close)
    (hread : ∀ b ∈ list, ∀ b' ∈ list', ∀ text text' rest rest', Writes b text → Writes b' text' → Follows marks rest →
      Follows marks rest' → code text ++ rest = code text' ++ rest' → text = text')
    (hstart : ∀ b text, Writes b text → ∃ c ∈ (code text).head?, c ≠ close)
    (htexts : List.Forall₂ Writes list texts) (htexts' : List.Forall₂ Writes list' texts')
    (h : [separator].intercalate (texts.map code) ++ close :: rest
      = [separator].intercalate (texts'.map code) ++ close :: rest') : texts = texts' ∧ rest = rest' := by
  have hends : ∀ text ∈ texts, ∀ text' ∈ texts', ∀ rest rest', Follows marks rest → Follows marks rest' →
      code text ++ rest = code text' ++ rest' → text = text' := by
    intro text htext text' htext' rest rest' hrest hrest' heq
    obtain ⟨b, hb, hwrites⟩ := forall₂_right htexts text htext
    obtain ⟨b', hb', hwrites'⟩ := forall₂_right htexts' text' htext'
    exact hread b hb b' hb' text text' rest rest' hwrites hwrites' hrest hrest' heq
  have hcodes : ∀ code' ∈ texts.map code, ∀ code'' ∈ texts'.map code, EndTogether marks code' code'' := by
    intro code' hcode' code'' hcode'' rest rest' hrest hrest' heq
    obtain ⟨text, htext, rfl⟩ := List.mem_map.mp hcode'
    obtain ⟨text', htext', rfl⟩ := List.mem_map.mp hcode''
    rw [hends text htext text' htext' rest rest' hrest hrest' heq]
  have hheads : ∀ {list : List β} {texts : List γ}, List.Forall₂ Writes list texts →
      ∀ code' ∈ texts.map code, ∃ c ∈ code'.head?, c ≠ close := by
    intro list texts htexts code' hcode'
    obtain ⟨text, htext, rfl⟩ := List.mem_map.mp hcode'
    obtain ⟨b, _, hwrites⟩ := forall₂_right htexts text htext
    exact hstart b text hwrites
  obtain ⟨hsame, hrest⟩ := intercalate_injective hseparator hclose hne hcodes (hheads htexts) (hheads htexts') h
  refine ⟨?_, hrest⟩
  rw [← List.forall₂_eq_eq_eq, List.forall₂_map_left_iff, List.forall₂_map_right_iff] at hsame
  rw [← List.forall₂_eq_eq_eq]
  refine (forall₂_with_mem (forall₂_with_mem hsame).flip).flip.imp ?_
  intro text text' hboth
  obtain ⟨htext', htext, heq⟩ := hboth
  exact hends text htext text' htext' [] [] (follows_nil marks) (follows_nil marks) (by rw [heq])

end Separated

end CantonSdk.Base
