import Mathlib.Data.List.Sort
import Mathlib.Data.List.Dedup

/-!
# Stable sorting by a comparator

Lists are sorted by insertion, which is stable: entries that compare equal keep their order. Where no
two entries compare equal the sorted list depends only on which entries there are, and where two do,
their order survives the sort.
-/

set_option linter.all false

namespace CantonSdk.Base

universe u v

variable {α : Type u} {β : Type v}

/-- `list.sort(compare)`. -/
def sortBy (compare : α → α → Ordering) (list : List α) : List α :=
  list.insertionSort fun left right => (compare left right).isLE

/-- `compare` on a key of each entry. -/
def compareKey (compare : β → β → Ordering) (key : α → β) (left right : α) : Ordering :=
  compare (key left) (key right)

instance compareKey_trans (compare : β → β → Ordering) [Std.TransCmp compare] (key : α → β) :
    Std.TransCmp (compareKey compare key) where
  eq_swap {left right} := (Std.OrientedCmp.eq_swap : compare (key left) (key right) = _)
  isLE_trans {left middle right} hfirst hsecond := by
    change (compare (key left) (key right)).isLE
    exact Std.TransCmp.isLE_trans hfirst hsecond

/-- Sorting by a key sorts the keys. -/
theorem map_sortBy (compare : β → β → Ordering) (key : α → β) (list : List α) :
    (sortBy (compareKey compare key) list).map key = sortBy compare (list.map key) :=
  List.map_insertionSort _ _ _ _ fun _ _ _ _ => Iff.rfl

section Preorder

variable {compare : α → α → Ordering} [Std.TransCmp compare]

instance isLE_total : Std.Total fun left right => (compare left right).isLE where
  total left right := by
    have hswap : compare left right = (compare right left).swap := Std.OrientedCmp.eq_swap
    rw [hswap]
    cases compare right left <;> simp

instance isLE_isTrans : IsTrans α fun left right => (compare left right).isLE where
  trans _ _ _ := Std.TransCmp.isLE_trans

theorem eq_of_isLE_of_isLE {left right : α} (hleft : (compare left right).isLE)
    (hright : (compare right left).isLE) : compare left right = .eq := by
  have hswap : compare right left = (compare left right).swap := Std.OrientedCmp.eq_swap
  rw [hswap] at hright
  cases horder : compare left right with
  | eq => rfl
  | lt => simp [horder] at hright
  | gt => simp [horder] at hleft

end Preorder

section Sorted

variable {compare : α → α → Ordering} {list other : List α}

theorem perm_sortBy (compare : α → α → Ordering) (list : List α) : (sortBy compare list).Perm list :=
  List.perm_insertionSort ..

@[simp] theorem mem_sortBy {entry : α} : entry ∈ sortBy compare list ↔ entry ∈ list :=
  (perm_sortBy compare list).mem_iff

/-- Only how the entries compare with each other matters. -/
theorem sortBy_congr {compare' : α → α → Ordering}
    (h : ∀ a ∈ list, ∀ b ∈ list, compare a b = compare' a b) : sortBy compare list = sortBy compare' list := by
  have hmap := List.map_insertionSort (fun left right => (compare left right).isLE)
    (fun left right => (compare' left right).isLE) id list fun a ha b hb => by rw [id, id, h a ha b hb]
  rwa [List.map_id, List.map_id] at hmap

/-- Entries that compare equal keep their order. -/
theorem pair_sublist_sortBy {a b : α} (htie : compare a b = .eq) (hpair : [a, b].Sublist list) :
    [a, b].Sublist (sortBy compare list) := by
  apply List.pair_sublist_insertionSort _ hpair
  simp [htie]

variable [Std.TransCmp compare]

theorem pairwise_sortBy (compare : α → α → Ordering) [Std.TransCmp compare] (list : List α) :
    (sortBy compare list).Pairwise fun left right => (compare left right).isLE :=
  List.pairwise_insertionSort ..

/-- Sorting forgets the order of the input when no two entries compare equal. -/
theorem sortBy_eq_of_perm (hstrict : ∀ a ∈ list, ∀ b ∈ list, compare a b = .eq → a = b)
    (hperm : list.Perm other) : sortBy compare list = sortBy compare other := by
  have hsorted : (sortBy compare list).Perm (sortBy compare other) :=
    ((perm_sortBy compare list).trans hperm).trans (perm_sortBy compare other).symm
  refine hsorted.eq_of_pairwise ?_ (pairwise_sortBy compare list) (pairwise_sortBy compare other)
  intro a b ha hb hle hge
  rw [mem_sortBy] at ha hb
  exact hstrict a ha b (hperm.mem_iff.mpr hb) (eq_of_isLE_of_isLE hle hge)

theorem sortBy_sortBy (hstrict : ∀ a ∈ list, ∀ b ∈ list, compare a b = .eq → a = b) :
    sortBy compare (sortBy compare list) = sortBy compare list :=
  (sortBy_eq_of_perm hstrict (perm_sortBy compare list).symm).symm

/-- Without repetitions or ties the sorted list strictly increases. -/
theorem sortBy_increasing (hnodup : list.Nodup)
    (hstrict : ∀ a ∈ list, ∀ b ∈ list, compare a b = .eq → a = b) :
    (sortBy compare list).Pairwise fun left right => compare left right = .lt := by
  have hdistinct : (sortBy compare list).Pairwise fun left right => left ≠ right :=
    (perm_sortBy compare list).nodup_iff.mpr hnodup
  have hboth := (pairwise_sortBy compare list).and hdistinct
  refine hboth.imp_of_mem ?_
  intro a b ha hb hab
  rw [mem_sortBy] at ha hb
  obtain ⟨hle, hne⟩ := hab
  cases horder : compare a b with
  | lt => rfl
  | eq => exact absurd (hstrict a ha b hb horder) hne
  | gt => simp [horder] at hle

end Sorted

/-- A list without repetitions does not hold two entries in both orders. -/
theorem not_both_orders {list : List α} (hnodup : list.Nodup) {a b : α}
    (hfirst : [a, b].Sublist list) (hsecond : [b, a].Sublist list) : False := by
  induction list with
  | nil => cases hfirst
  | cons entry rest ih =>
      obtain ⟨hentry, hrest⟩ := List.nodup_cons.mp hnodup
      rcases List.sublist_cons_iff.mp hfirst with hfirstRest | ⟨_, hfirstEq, hb⟩
      · rcases List.sublist_cons_iff.mp hsecond with hsecondRest | ⟨_, hsecondEq, _⟩
        · exact ih hrest hfirstRest hsecondRest
        · obtain rfl := (List.cons.inj hsecondEq).1
          exact hentry (hfirstRest.subset (List.mem_cons_of_mem _ List.mem_cons_self))
      · obtain ⟨rfl, rfl⟩ := List.cons.inj hfirstEq
        have hmem : b ∈ rest := hb.subset List.mem_cons_self
        rcases List.sublist_cons_iff.mp hsecond with hsecondRest | ⟨_, hsecondEq, _⟩
        · exact hentry (hsecondRest.subset (List.mem_cons_of_mem _ List.mem_cons_self))
        · obtain rfl := (List.cons.inj hsecondEq).1
          exact hentry hmem

end CantonSdk.Base
