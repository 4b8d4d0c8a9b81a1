import CantonSdk.Base.Checked
import CantonSdk.Base.KeyedMap
import CantonSdk.Base.Sorting

/-!
# Lists whose entries correspond

Two lists are related when they have the same length and their entries are related one by one. Whatever
looks only at what related entries share keeps lists related: filtering, sorting, grouping and checked
traversals.
-/

set_option linter.all false

namespace CantonSdk.Base

variable {ε α β κ γ δ : Type} {R : α → β → Prop}

/-- Related lists are the two sides of one list of related pairs. -/
theorem exists_pairs {left : List α} {right : List β} (h : List.Forall₂ R left right) :
    ∃ pairs : List {pair : α × β // R pair.1 pair.2},
      pairs.map (fun pair => pair.1.1) = left ∧ pairs.map (fun pair => pair.1.2) = right := by
  induction h with
  | nil => exact ⟨[], rfl, rfl⟩
  | cons hfirst _ ih =>
      obtain ⟨pairs, rfl, rfl⟩ := ih
      exact ⟨⟨(_, _), hfirst⟩ :: pairs, rfl, rfl⟩

/-- Related lists, as one list of pairs. -/
theorem exists_zipped {left : List α} {right : List β} (h : List.Forall₂ R left right) :
    ∃ pairs : List (α × β), pairs.map Prod.fst = left ∧ pairs.map Prod.snd = right ∧
      ∀ pair ∈ pairs, R pair.1 pair.2 := by
  obtain ⟨pairs, rfl, rfl⟩ := exists_pairs h
  refine ⟨pairs.map Subtype.val, List.map_map, List.map_map, ?_⟩
  intro pair hpair
  obtain ⟨related, _, rfl⟩ := List.mem_map.mp hpair
  exact related.2

theorem forall₂_pairs (pairs : List {pair : α × β // R pair.1 pair.2}) :
    List.Forall₂ R (pairs.map fun pair => pair.1.1) (pairs.map fun pair => pair.1.2) := by
  rw [List.forall₂_map_left_iff, List.forall₂_map_right_iff, List.forall₂_same]
  intro pair _
  exact pair.2

/-- What exists for every entry of a list can be listed beside it. -/
theorem exists_beside {list : List α} (h : ∀ a ∈ list, ∃ b, R a b) :
    ∃ pairs : List (α × β), pairs.map Prod.fst = list ∧ ∀ pair ∈ pairs, R pair.1 pair.2 := by
  induction list with
  | nil => exact ⟨[], rfl, nofun⟩
  | cons a rest ih =>
      rw [List.forall_mem_cons] at h
      obtain ⟨b, hb⟩ := h.1
      obtain ⟨pairs, rfl, hpairs⟩ := ih h.2
      exact ⟨(a, b) :: pairs, rfl, List.forall_mem_cons.mpr ⟨hb, hpairs⟩⟩

/-- What exists for every entry of a list can be listed in its order. -/
theorem exists_related {list : List α} (h : ∀ a ∈ list, ∃ b, R a b) : ∃ others, List.Forall₂ R list others := by
  induction list with
  | nil => exact ⟨[], .nil⟩
  | cons a rest ih =>
      rw [List.forall_mem_cons] at h
      obtain ⟨b, hb⟩ := h.1
      obtain ⟨others, hothers⟩ := ih h.2
      exact ⟨b :: others, .cons hb hothers⟩

/-- The images of related lists are related where the images of related entries are. -/
theorem forall₂_images {S : α → γ → Prop} {S' : β → δ → Prop} {T : γ → δ → Prop} {left : List α} {right : List β}
    {images : List γ} {images' : List δ} (h : List.Forall₂ R left right) (himages : List.Forall₂ S left images)
    (himages' : List.Forall₂ S' right images')
    (hstep : ∀ a ∈ left, ∀ b ∈ right, R a b → ∀ c d, S a c → S' b d → T c d) : List.Forall₂ T images images' := by
  induction h generalizing images images' with
  | nil =>
      cases himages
      cases himages'
      exact .nil
  | @cons a b left right hfirst _ ih =>
      cases himages with
      | @cons _ c _ _ hc hcs =>
          cases himages' with
          | @cons _ d _ _ hd hds =>
              refine .cons (hstep a List.mem_cons_self b List.mem_cons_self hfirst c d hc hd) ?_
              exact ih hcs hds fun a ha b hb => hstep a (List.mem_cons_of_mem _ ha) b (List.mem_cons_of_mem _ hb)

/-- Related lists have the same images where related entries have the same image. -/
theorem images_eq_of_forall₂ {S : α → γ → Prop} {S' : β → γ → Prop} {left : List α} {right : List β} {images images' : List γ}
    (h : List.Forall₂ R left right) (himages : List.Forall₂ S left images) (himages' : List.Forall₂ S' right images')
    (hstep : ∀ a ∈ left, ∀ b ∈ right, R a b → ∀ c c', S a c → S' b c' → c = c') : images = images' := by
  rw [← List.forall₂_eq_eq_eq]
  exact forall₂_images h himages himages' hstep

/-- Every entry of the first list corresponds to an entry of the second. -/
theorem forall₂_left {left : List α} {right : List β} (h : List.Forall₂ R left right) :
    ∀ a ∈ left, ∃ b ∈ right, R a b := by
  obtain ⟨pairs, rfl, rfl⟩ := exists_pairs h
  intro a ha
  obtain ⟨pair, hpair, rfl⟩ := List.mem_map.mp ha
  exact ⟨pair.1.2, List.mem_map_of_mem hpair, pair.2⟩

/-- Every entry of the second list corresponds to an entry of the first. -/
theorem forall₂_right {left : List α} {right : List β} (h : List.Forall₂ R left right) :
    ∀ b ∈ right, ∃ a ∈ left, R a b :=
  forall₂_left h.flip

/-- Corresponding entries are entries. -/
theorem forall₂_with_mem {left : List α} {right : List β} (h : List.Forall₂ R left right) :
    List.Forall₂ (fun a b => a ∈ left ∧ R a b) left right := by
  induction h with
  | nil => exact .nil
  | cons hfirst _ ih =>
      refine .cons ⟨List.mem_cons_self, hfirst⟩ (ih.imp ?_)
      intro a b hboth
      exact ⟨List.mem_cons_of_mem _ hboth.1, hboth.2⟩

/-- Two lists that correspond to a third correspond to each other. -/
theorem forall₂_beside {S : α → γ → Prop} {list : List α} {left : List β} {right : List γ}
    (h : List.Forall₂ R list left) (h' : List.Forall₂ S list right) :
    List.Forall₂ (fun b c => ∃ a, R a b ∧ S a c) left right := by
  induction h generalizing right with
  | nil =>
      cases h'
      exact .nil
  | cons hfirst _ ih =>
      cases h' with
      | cons hfirst' hrest => exact .cons ⟨_, hfirst, hfirst'⟩ (ih hrest)

theorem forall₂_filter {p : α → Bool} {q : β → Bool} {left : List α} {right : List β}
    (h : List.Forall₂ R left right) (hsame : ∀ a b, R a b → p a = q b) :
    List.Forall₂ R (left.filter p) (right.filter q) := by
  induction h with
  | nil => exact .nil
  | @cons a b _ _ hfirst _ ih =>
      rw [List.filter_cons, List.filter_cons, hsame a b hfirst]
      cases q b
      · exact ih
      · exact .cons hfirst ih

/-- Sorting by a key that related entries share. -/
theorem forall₂_sortBy {compare : κ → κ → Ordering} {key : α → κ} {key' : β → κ} {left : List α}
    {right : List β} (h : List.Forall₂ R left right) (hsame : ∀ a b, R a b → key a = key' b) :
    List.Forall₂ R (sortBy (compareKey compare key) left) (sortBy (compareKey compare key') right) := by
  obtain ⟨pairs, rfl, rfl⟩ := exists_pairs h
  have hkeys : compareKey (compareKey compare key) (fun pair : {pair : α × β // R pair.1 pair.2} => pair.1.1)
      = compareKey (compareKey compare key') fun pair => pair.1.2 := by
    funext first second
    simp only [compareKey, hsame _ _ first.2, hsame _ _ second.2]
  rw [← map_sortBy, ← map_sortBy, hkeys]
  exact forall₂_pairs _

/-- Grouping by a key that related entries share. -/
theorem forall₂_groupBy [DecidableEq κ] {key : α → κ} {key' : β → κ} {left : List α} {right : List β}
    (h : List.Forall₂ R left right) (hsame : ∀ a b, R a b → key a = key' b) :
    List.Forall₂ (fun group group' => group.1 = group'.1 ∧ List.Forall₂ R group.2 group'.2)
      (KeyedMap.groupBy key left).entries (KeyedMap.groupBy key' right).entries := by
  obtain ⟨pairs, rfl, rfl⟩ := exists_pairs h
  have hkeys : (fun pair : {pair : α × β // R pair.1 pair.2} => key pair.1.1)
      = fun pair => key' pair.1.2 := funext fun pair => hsame _ _ pair.2
  rw [KeyedMap.groupBy_map, KeyedMap.groupBy_map, hkeys, KeyedMap.mapValues, KeyedMap.mapValues]
  rw [List.forall₂_map_left_iff, List.forall₂_map_right_iff, List.forall₂_same]
  intro group _
  exact ⟨rfl, forall₂_pairs group.2⟩

/-- A traversal whose steps take related entries to related results. -/
theorem forall₂_mapM {S : γ → δ → Prop} {f : α → Except ε γ} {g : β → Except ε δ} {left : List α}
    {right : List β} {results : List γ} (h : List.Forall₂ R left right)
    (hstep : ∀ a b, R a b → ∀ c, f a = .ok c → ∃ d, g b = .ok d ∧ S c d)
    (hleft : left.mapM f = .ok results) :
    ∃ results', right.mapM g = .ok results' ∧ List.Forall₂ S results results' := by
  induction h generalizing results with
  | nil =>
      cases hleft
      exact ⟨[], rfl, .nil⟩
  | @cons a b _ _ hfirst _ ih =>
      rw [List.mapM_cons] at hleft
      obtain ⟨c, hc, hleft⟩ := bind_eq_ok.mp hleft
      obtain ⟨cs, hcs, hleft⟩ := bind_eq_ok.mp hleft
      obtain rfl := Except.ok.inj hleft
      obtain ⟨d, hd, hcd⟩ := hstep a b hfirst c hc
      obtain ⟨ds, hds, hall⟩ := ih hcs
      refine ⟨d :: ds, ?_, .cons hcd hall⟩
      rw [List.mapM_cons]
      exact bind_eq_ok.mpr ⟨d, hd, bind_eq_ok.mpr ⟨ds, hds, rfl⟩⟩

theorem mapM_eq_of_forall₂ {f : α → Except ε γ} {g : β → Except ε γ} {left : List α} {right : List β}
    (h : List.Forall₂ R left right) (hstep : ∀ a b, R a b → f a = g b) :
    left.mapM f = right.mapM g := by
  induction h with
  | nil => rfl
  | @cons a b _ _ hfirst _ ih => rw [List.mapM_cons, List.mapM_cons, hstep a b hfirst, ih]

/-- Keeping the entries that pass, where entries without a counterpart do not pass. -/
theorem forall₂_filterChecked {p : α → Except ε Bool} {q : β → Except ε Bool} {visible : β → Bool}
    {left kept : List α} {right : List β}
    (h : List.Forall₂ R left (right.filter visible))
    (hstep : ∀ a b, R a b → ∀ keep, p a = .ok keep → q b = .ok keep)
    (hhidden : ∀ b ∈ right, visible b = false → q b = .ok false)
    (hleft : filterChecked p left = .ok kept) :
    ∃ kept', filterChecked q right = .ok kept' ∧ List.Forall₂ R kept kept' := by
  induction right generalizing left kept with
  | nil =>
      cases h
      cases hleft
      exact ⟨[], rfl, .nil⟩
  | cons b right ih =>
      rw [List.forall_mem_cons] at hhidden
      rw [List.filter_cons] at h
      cases hvisible : visible b with
      | false =>
          rw [hvisible] at h
          obtain ⟨kept', hkept', hall⟩ := ih h hhidden.2 hleft
          refine ⟨kept', ?_, hall⟩
          exact bind_eq_ok.mpr ⟨false, hhidden.1 hvisible, bind_eq_ok.mpr ⟨kept', hkept', rfl⟩⟩
      | true =>
          rw [hvisible, if_pos rfl] at h
          cases h with
          | @cons a _ left _ hfirst hrest =>
              obtain ⟨keep, hkeep, hleft⟩ := bind_eq_ok.mp hleft
              obtain ⟨others, hothers, hleft⟩ := bind_eq_ok.mp hleft
              obtain rfl := Except.ok.inj hleft
              obtain ⟨others', hothers', hall⟩ := ih hrest hhidden.2 hothers
              refine ⟨_, bind_eq_ok.mpr ⟨keep, hstep a b hfirst keep hkeep,
                bind_eq_ok.mpr ⟨others', hothers', rfl⟩⟩, ?_⟩
              cases keep
              · exact hall
              · exact .cons hfirst hall

end CantonSdk.Base
