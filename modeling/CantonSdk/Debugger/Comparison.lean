import CantonSdk.Debugger.Encodings

/-!
# Comparing objects

The properties that the comparison sees of an object are those without the marker for a type and with a
value. Two objects that are equal to it have the same keys, or one of them has nothing but numeric keys and
its values, in the order of those, are equal to the values of the other.
-/

set_option linter.all false

namespace CantonSdk.Debugger

open CantonSdk.Base HostValue

variable {properties left right : List (String × HostValue)} {key : String} {value : HostValue}

/-! ## Normalized properties -/

theorem normalizeComparableItems_eq (items : List HostValue) :
    normalizeComparableItems items = items.map normalizeComparableValue := by
  induction items with
  | nil => rfl
  | cons item rest ih => rw [normalizeComparableItems, ih, List.map_cons]

/-- A property as the comparison sees it. -/
def shownProperty (property : String × HostValue) : Option (String × HostValue) :=
  if property.1 = recordIdMarkerKey ∨ isNullish property.2 = true then none
  else some (property.1, normalizeComparableValue property.2)

theorem normalizeComparableProperties_eq (properties : List (String × HostValue)) :
    normalizeComparableProperties properties = properties.filterMap shownProperty := by
  induction properties with
  | nil => rfl
  | cons property rest ih =>
      rw [normalizeComparableProperties, ih, List.filterMap_cons, shownProperty]
      split <;> rfl

theorem perm_normalizeComparableProperties (hperm : left.Perm right) :
    (normalizeComparableProperties left).Perm (normalizeComparableProperties right) := by
  rw [normalizeComparableProperties_eq, normalizeComparableProperties_eq]
  exact hperm.filterMap _

theorem keys_normalizeComparableProperties (properties : List (String × HostValue)) :
    ((normalizeComparableProperties properties).map Prod.fst).Sublist (properties.map Prod.fst) := by
  induction properties with
  | nil => exact .slnil
  | cons property rest ih =>
      rw [normalizeComparableProperties]
      split
      · exact ih.cons _
      · exact ih.cons_cons _

theorem mem_normalizeComparableProperties (hkey : key ≠ recordIdMarkerKey) :
    (key, value) ∈ normalizeComparableProperties properties ↔
      ∃ shown, (key, shown) ∈ properties ∧ isNullish shown = false ∧
        normalizeComparableValue shown = value := by
  rw [normalizeComparableProperties_eq, List.mem_filterMap]
  constructor
  · intro h
    obtain ⟨property, hproperty, hshown⟩ := h
    rw [shownProperty, Option.ite_none_left_eq_some, not_or, Option.some.injEq, Prod.mk.injEq] at hshown
    obtain ⟨⟨_, hvalue⟩, rfl, hnormalized⟩ := hshown
    exact ⟨property.2, hproperty, by simpa using hvalue, hnormalized⟩
  · intro h
    obtain ⟨shown, hmem, hvalue, hnormalized⟩ := h
    refine ⟨(key, shown), hmem, ?_⟩
    rw [shownProperty, if_neg (by simp [hkey, hvalue]), hnormalized]

theorem isNullish_normalizeComparableValue (value : HostValue) :
    isNullish (normalizeComparableValue value) = isNullish value := by
  cases value with
  | object properties =>
      rw [normalizeComparableValue]
      split <;> rfl
  | _ => rfl

theorem isNullish_of_valuesEqual {other : HostValue} (h : valuesEqual value other = true) :
    isNullish value = isNullish other := by
  cases value <;> cases other <;> first | rfl | cases h

theorem stringProperty_of_fresh (hkey : key ∉ properties.map Prod.fst) :
    stringProperty properties key = none := by
  have hnone : lookup properties key = none := by
    rw [lookup, Option.map_eq_none_iff, List.find?_eq_none]
    intro property hproperty
    have hne : property.1 ≠ key := by
      intro heq
      exact hkey (heq ▸ List.mem_map_of_mem hproperty)
    simp [hne]
  rw [stringProperty, hnone]

/-- Keys that mean nothing in an untyped value. -/
def Unmarked (properties : List (String × HostValue)) : Prop :=
  ∀ key ∈ properties.map Prod.fst, isMarkerKey key = false

theorem ne_of_not_isMarkerKey (h : isMarkerKey key = false) :
    key ≠ numericMarkerKey ∧ key ≠ partyMarkerKey ∧ key ≠ recordIdMarkerKey := by
  simpa [isMarkerKey] using h

theorem isPositionalKey_of_isCanonicalDecimal (h : isCanonicalDecimal key = true) :
    isPositionalKey key = true := by
  rw [isCanonicalDecimal] at h
  rw [isPositionalKey]
  cases hchars : key.toList with
  | nil => exact absurd hchars (canonicalDigits_ne_nil h)
  | cons first rest =>
      have hempty : key.isEmpty = false := by
        rw [Bool.eq_false_iff, ne_eq, String.isEmpty_iff]
        intro hempty
        subst hempty
        cases hchars
      rw [hchars, canonicalDigits] at h
      simp only [Bool.and_eq_true] at h
      rw [hempty, List.all_cons, h.1.1, h.1.2]
      rfl

theorem isPositionalKey_toString (index : Nat) : isPositionalKey (toString index) = true :=
  isPositionalKey_of_isCanonicalDecimal (isCanonicalDecimal_toString index)

theorem arrayIndex_of_not_isPositionalKey (h : isPositionalKey key = false) : arrayIndex key = none := by
  have hcanonical : ¬ isCanonicalDecimal key = true := by
    intro hcanonical
    rw [isPositionalKey_of_isCanonicalDecimal hcanonical] at h
    cases h
  rw [arrayIndex, if_neg hcanonical]

/-- The comparison sees an object as the properties that it shows. -/
theorem normalizeComparableValue_object {marker : List (String × HostValue)}
    (hnodup : (properties.map Prod.fst).Nodup) (hunmarked : Unmarked properties)
    (hmarker : marker = [] ∨ ∃ recordId, marker = [(recordIdMarkerKey, recordId)]) :
    ∃ shown, normalizeComparableValue (.object (ownOrder (properties ++ marker))) = .object shown ∧
      shown.Perm (normalizeComparableProperties properties) ∧
      ((∀ key ∈ properties.map Prod.fst, isPositionalKey key = false) →
        shown = normalizeComparableProperties properties) := by
  have hperm := perm_ownOrder (properties ++ marker)
  have hkeys : ∀ key ∈ (ownOrder (properties ++ marker)).map Prod.fst,
      key ∈ properties.map Prod.fst ∨ key = recordIdMarkerKey := by
    intro key hkey
    rw [(hperm.map _).mem_iff, List.map_append, List.mem_append] at hkey
    refine hkey.imp_right ?_
    intro hlast
    rcases hmarker with hnone | hsome
    · rw [hnone] at hlast
      cases hlast
    · obtain ⟨recordId, hrecord⟩ := hsome
      rw [hrecord] at hlast
      simpa using hlast
  have hfresh : ∀ key, isMarkerKey key = true → key ≠ recordIdMarkerKey →
      key ∉ (ownOrder (properties ++ marker)).map Prod.fst := by
    intro key hmark hne hkey
    rcases hkeys key hkey with hmem | heq
    · rw [hunmarked key hmem] at hmark
      cases hmark
    · exact hne heq
  have hmarkerShown : normalizeComparableProperties marker = [] := by
    rcases hmarker with rfl | ⟨recordId, rfl⟩
    · rfl
    · rw [normalizeComparableProperties, if_pos (Or.inl rfl)]
      rfl
  have hshown : normalizeComparableProperties (properties ++ marker)
      = normalizeComparableProperties properties := by
    rw [normalizeComparableProperties_eq, List.filterMap_append, ← normalizeComparableProperties_eq,
      ← normalizeComparableProperties_eq, hmarkerShown, List.append_nil]
  have hshownPerm : (normalizeComparableProperties (ownOrder (properties ++ marker))).Perm
      (normalizeComparableProperties properties) :=
    hshown ▸ perm_normalizeComparableProperties hperm
  have hshownNodup : ((normalizeComparableProperties (ownOrder (properties ++ marker))).map Prod.fst).Nodup :=
    (hshownPerm.map _).nodup_iff.mpr (hnodup.sublist (keys_normalizeComparableProperties properties))
  have hnumeric := stringProperty_of_fresh (hfresh numericMarkerKey (by decide) (by decide))
  have hparty := stringProperty_of_fresh (hfresh partyMarkerKey (by decide) (by decide))
  refine ⟨ownOrder (normalizeComparableProperties (ownOrder (properties ++ marker))), ?_, ?_, ?_⟩
  · rw [normalizeComparableValue, hnumeric, hparty]
    dsimp only
    rw [fromEntries, KeyedMap.entries_ofEntries hshownNodup]
  · exact (perm_ownOrder _).trans hshownPerm
  · intro hnamed
    have hself : ownOrder (properties ++ marker) = properties ++ marker := by
      refine ownOrder_eq_self fun property hproperty => ?_
      rcases hkeys property.1 (List.mem_map_of_mem (hperm.mem_iff.mpr hproperty)) with hmem | heq
      · exact arrayIndex_of_not_isPositionalKey (hnamed _ hmem)
      · rw [heq]
        decide
    rw [hself, hshown]
    refine ownOrder_eq_self fun property hproperty => ?_
    exact arrayIndex_of_not_isPositionalKey
      (hnamed _ ((keys_normalizeComparableProperties properties).subset (List.mem_map_of_mem hproperty)))

/-! ## Equal objects -/

theorem propertiesEqual_map {f : String × HostValue → HostValue} :
    propertiesEqual properties (properties.map f) = true ↔
      ∀ property ∈ properties, valuesEqual property.2 (f property) = true := by
  induction properties with
  | nil => simp [propertiesEqual]
  | cons property rest ih =>
      rw [List.map_cons, propertiesEqual, Bool.and_eq_true, ih, List.forall_mem_cons]

theorem forall₂_of_propertiesEqual {others : List HostValue} (hlength : properties.length = others.length)
    (h : propertiesEqual properties others = true) :
    List.Forall₂ (fun left right => valuesEqual left right = true) (properties.map Prod.snd) others := by
  induction properties generalizing others with
  | nil =>
      rw [List.length_nil, eq_comm, List.length_eq_zero_iff] at hlength
      subst hlength
      exact .nil
  | cons property rest ih =>
      cases others with
      | nil => cases hlength
      | cons other others =>
          rw [propertiesEqual, Bool.and_eq_true] at h
          exact .cons h.1 (ih (Nat.succ.inj hlength) h.2)

theorem forall₂_of_itemsEqual {items others : List HostValue} (hlength : items.length = others.length)
    (h : itemsEqual items others = true) :
    List.Forall₂ (fun left right => valuesEqual left right = true) items others := by
  induction items generalizing others with
  | nil =>
      rw [List.length_nil, eq_comm, List.length_eq_zero_iff] at hlength
      subst hlength
      exact .nil
  | cons item rest ih =>
      cases others with
      | nil => cases hlength
      | cons other others =>
          rw [itemsEqual, Bool.and_eq_true] at h
          exact .cons h.1 (ih (Nat.succ.inj hlength) h.2)

theorem lookup_eq_some (hnodup : (properties.map Prod.fst).Nodup) :
    lookup properties key = some value ↔ (key, value) ∈ properties :=
  KeyedMap.get_eq_some (m := ⟨properties, hnodup⟩)

theorem exists_partners (h : valuesEqual (.object left) (.object right) = true) :
    ∃ others, partners left right = some others ∧ propertiesEqual left others = true := by
  rw [valuesEqual] at h
  split at h
  · exact ⟨_, by assumption, h⟩
  · cases h

theorem length_eq_of_valuesEqual (h : valuesEqual (.object left) (.object right) = true) :
    left.length = right.length := by
  obtain ⟨others, hothers, _⟩ := exists_partners h
  rw [partners] at hothers
  split at hothers
  · rw [Option.ite_none_right_eq_some] at hothers
    have hlengths := congrArg List.length hothers.1
    unfold sortedKeys at hlengths
    rwa [(perm_sortBy _ _).length_eq, (perm_sortBy _ _).length_eq, List.length_map,
      List.length_map] at hlengths
  · rw [Option.ite_none_right_eq_some] at hothers
    exact hothers.1

/-- Objects of one shape are compared key by key. -/
theorem valuesEqual_keyed (hshape : isPositional left = isPositional right)
    (hnodup : (right.map Prod.fst).Nodup) (h : valuesEqual (.object left) (.object right) = true) :
    (left.map Prod.fst).Perm (right.map Prod.fst) ∧
      ∀ key value other, (key, value) ∈ left → (key, other) ∈ right → valuesEqual value other = true := by
  obtain ⟨others, hothers, hequal⟩ := exists_partners h
  rw [partners, if_pos hshape, Option.ite_none_right_eq_some, Option.some.injEq] at hothers
  obtain ⟨hkeys, rfl⟩ := hothers
  refine ⟨(perm_sortBy _ _).symm.trans ((List.Perm.of_eq hkeys).trans (perm_sortBy _ _)), ?_⟩
  intro key value other hvalue hother
  have hpair := propertiesEqual_map.mp hequal (key, value) hvalue
  rwa [(lookup_eq_some hnodup).mpr hother] at hpair

/-- Properties in the order of their numeric keys are sorted, whatever order they are in. -/
theorem sortPositional_eq {listed : List (String × HostValue)} (hperm : listed.Perm properties)
    (hsorted : properties.Pairwise fun first second => decimalValue first.1 < decimalValue second.1) :
    sortPositional listed = properties := by
  have hstrict : ∀ a ∈ listed, ∀ b ∈ listed,
      compareKey compare (fun property : String × HostValue => decimalValue property.1) a b = .eq → a = b := by
    intro a ha b hb hab
    rw [compareKey, Nat.compare_eq_eq] at hab
    rw [hperm.mem_iff] at ha hb
    have hvalues : (properties.map fun property => decimalValue property.1).Nodup :=
      List.pairwise_map.mpr (hsorted.imp Nat.ne_of_lt)
    exact List.inj_on_of_nodup_map hvalues ha hb hab
  unfold sortPositional
  rw [sortBy_eq_of_perm hstrict hperm]
  refine List.Pairwise.insertionSort_eq (hsorted.imp ?_)
  intro first second hlt
  rw [compareKey, Nat.compare_eq_lt.mpr hlt]
  rfl

/-- An object with numeric keys and one with others are compared in the order of the numbers. -/
theorem valuesEqual_ordered (hleft : isPositional left = true) (hright : isPositional right = false)
    (hnodup : (left.map Prod.fst).Nodup) (h : valuesEqual (.object left) (.object right) = true) :
    List.Forall₂ (fun value other => valuesEqual value other = true)
      ((sortPositional left).map Prod.snd) (right.map Prod.snd) := by
  obtain ⟨others, hothers, hequal⟩ := exists_partners h
  have hshape : ¬ isPositional left = isPositional right := by
    rw [hleft, hright]
    exact nofun
  rw [partners, if_neg hshape, Option.ite_none_right_eq_some, if_pos hleft, Option.some.injEq] at hothers
  obtain ⟨hlength, rfl⟩ := hothers
  have hperm : (sortPositional left).Perm left := perm_sortBy _ _
  have hsortedNodup : ((sortPositional left).map Prod.fst).Nodup := (hperm.map _).nodup_iff.mpr hnodup
  rw [List.forall₂_iff_get]
  refine ⟨by rw [List.length_map, List.length_map, hperm.length_eq, hlength], ?_⟩
  intro index hindex hindex'
  rw [List.length_map] at hindex hindex'
  have hpair := propertiesEqual_map.mp hequal ((sortPositional left)[index])
    (hperm.mem_iff.mp (List.getElem_mem hindex))
  have hidx : ((sortPositional left).map Prod.fst).idxOf (sortPositional left)[index].1 = index := by
    have hbound : index < ((sortPositional left).map Prod.fst).length := by rwa [List.length_map]
    have hget : ((sortPositional left).map Prod.fst)[index] = (sortPositional left)[index].1 := List.getElem_map ..
    rw [← hget]
    exact hsortedNodup.idxOf_getElem index hbound
  rw [hidx, List.getD_eq_getElem?_getD, List.getElem?_eq_getElem (by rwa [List.length_map])] at hpair
  simpa using hpair

theorem valuesEqual_ordered_right (hleft : isPositional left = false) (hright : isPositional right = true)
    (h : valuesEqual (.object left) (.object right) = true) :
    List.Forall₂ (fun value other => valuesEqual value other = true)
      (left.map Prod.snd) ((sortPositional right).map Prod.snd) := by
  obtain ⟨others, hothers, hequal⟩ := exists_partners h
  have hshape : ¬ isPositional left = isPositional right := by
    rw [hleft, hright]
    exact nofun
  have hflag : ¬ isPositional left = true := by
    rw [hleft]
    exact nofun
  rw [partners, if_neg hshape, Option.ite_none_right_eq_some, if_neg hflag, Option.some.injEq] at hothers
  obtain ⟨hlength, rfl⟩ := hothers
  refine forall₂_of_propertiesEqual ?_ hequal
  rw [List.length_map, hlength]
  exact (perm_sortBy _ _).length_eq.symm

/-! ## Matching properties -/

/-- Two values that the comparison of the objects around them does not tell apart. -/
def Matches (value other : HostValue) : Prop :=
  (isNullish value = true ∧ isNullish other = true) ∨
    valuesEqual (normalizeComparableValue value) (normalizeComparableValue other) = true

/-- One shape: both sides have numeric keys only, or neither does. -/
def SameShape (left right : List (String × HostValue)) : Prop :=
  isPositional (normalizeComparableProperties left) = isPositional (normalizeComparableProperties right) ∨
    (normalizeComparableProperties left).length ≠ (normalizeComparableProperties right).length

section Matching

variable {shownLeft shownRight : List (String × HostValue)}

theorem isPositional_perm (hperm : left.Perm right) : isPositional left = isPositional right := by
  rw [Bool.eq_iff_iff, isPositional, isPositional, List.all_eq_true, List.all_eq_true]
  simp only [hperm.mem_iff]

variable (hleft : shownLeft.Perm (normalizeComparableProperties left))
  (hright : shownRight.Perm (normalizeComparableProperties right))
  (hnodup : (left.map Prod.fst).Nodup) (hnodup' : (right.map Prod.fst).Nodup)
  (h : valuesEqual (.object shownLeft) (.object shownRight) = true)

include hleft hright h in
theorem isPositional_eq (hshape : SameShape left right) : isPositional shownLeft = isPositional shownRight := by
  have hlength := length_eq_of_valuesEqual h
  rw [hleft.length_eq, hright.length_eq] at hlength
  rw [isPositional_perm hleft, isPositional_perm hright]
  exact hshape.resolve_right (not_not_intro hlength)

include hleft hright hnodup' h in
/-- Objects of one shape that are equal show the same keys. -/
theorem shown_iff (hshape : SameShape left right) (hkey : key ≠ recordIdMarkerKey) :
    (∃ value, (key, value) ∈ left ∧ isNullish value = false) ↔
      ∃ value, (key, value) ∈ right ∧ isNullish value = false := by
  have hnodupRight : (shownRight.map Prod.fst).Nodup :=
    (hright.map _).nodup_iff.mpr (hnodup'.sublist (keys_normalizeComparableProperties right))
  have hperm := (valuesEqual_keyed (isPositional_eq hleft hright h hshape) hnodupRight h).1
  have hkeys := (((hleft.map Prod.fst).symm.trans hperm).trans (hright.map Prod.fst)).mem_iff (a := key)
  have hshown : ∀ properties : List (String × HostValue),
      key ∈ (normalizeComparableProperties properties).map Prod.fst ↔
        ∃ value, (key, value) ∈ properties ∧ isNullish value = false := by
    intro properties
    rw [List.mem_map]
    constructor
    · intro hmem
      obtain ⟨property, hproperty, rfl⟩ := hmem
      obtain ⟨value, hvalue, hshow, _⟩ := (mem_normalizeComparableProperties hkey).mp hproperty
      exact ⟨value, hvalue, hshow⟩
    · intro hmem
      obtain ⟨value, hvalue, hshow⟩ := hmem
      exact ⟨_, (mem_normalizeComparableProperties hkey).mpr ⟨value, hvalue, hshow, rfl⟩, rfl⟩
  rw [← hshown left, ← hshown right]
  exact hkeys

include hleft hright hnodup hnodup' h in
/-- Objects of one shape that are equal match at every key they have in common. -/
theorem matches_of_mem (hshape : SameShape left right) (hkey : key ≠ recordIdMarkerKey) {other : HostValue}
    (hvalue : (key, value) ∈ left) (hother : (key, other) ∈ right) : Matches value other := by
  have hnodupRight : (shownRight.map Prod.fst).Nodup :=
    (hright.map _).nodup_iff.mpr (hnodup'.sublist (keys_normalizeComparableProperties right))
  have hiff := shown_iff hleft hright hnodup' h hshape hkey
  have honly : ∀ {properties : List (String × HostValue)} {value : HostValue},
      (properties.map Prod.fst).Nodup → (key, value) ∈ properties →
      ((∃ shown, (key, shown) ∈ properties ∧ isNullish shown = false) ↔ isNullish value = false) := by
    intro properties value hdistinct hmem
    constructor
    · intro hshown
      obtain ⟨shown, hshownMem, hshow⟩ := hshown
      obtain rfl := Option.some.inj
        (((lookup_eq_some hdistinct).mpr hmem).symm.trans ((lookup_eq_some hdistinct).mpr hshownMem))
      exact hshow
    · intro hshow
      exact ⟨value, hmem, hshow⟩
  rw [honly hnodup hvalue, honly hnodup' hother] at hiff
  cases hnull : isNullish value with
  | true =>
      refine Or.inl ⟨hnull, ?_⟩
      rw [hnull] at hiff
      simpa using hiff
  | false =>
      have hnull' := hiff.mp hnull
      refine Or.inr ?_
      refine (valuesEqual_keyed (isPositional_eq hleft hright h hshape) hnodupRight h).2 key _ _
        (hleft.mem_iff.mpr ?_) (hright.mem_iff.mpr ?_)
      · exact (mem_normalizeComparableProperties hkey).mpr ⟨value, hvalue, hnull, rfl⟩
      · exact (mem_normalizeComparableProperties hkey).mpr ⟨other, hother, hnull', rfl⟩

end Matching

/-- Properties with the same keys match one by one where they match at every key. -/
theorem forall₂_of_mem {R : HostValue → HostValue → Prop} (hkeys : left.map Prod.fst = right.map Prod.fst)
    (h : ∀ key value other, (key, value) ∈ left → (key, other) ∈ right → R value other) :
    List.Forall₂ R (left.map Prod.snd) (right.map Prod.snd) := by
  induction left generalizing right with
  | nil =>
      rw [List.map_nil, eq_comm, List.map_eq_nil_iff] at hkeys
      subst hkeys
      exact .nil
  | cons property rest ih =>
      cases right with
      | nil => cases hkeys
      | cons other others =>
          rw [List.map_cons, List.map_cons, List.cons.injEq] at hkeys
          refine .cons ?_ (ih hkeys.2 ?_)
          · refine h property.1 _ _ List.mem_cons_self ?_
            rw [hkeys.1]
            exact List.mem_cons_self
          · intro key value other hvalue hother
            exact h key value other (List.mem_cons_of_mem _ hvalue) (List.mem_cons_of_mem _ hother)

/-- Properties that are shown at the same places match one by one where those that are shown are equal one by
one. -/
theorem forall₂_of_shown (hleft : ∀ key ∈ left.map Prod.fst, key ≠ recordIdMarkerKey)
    (hright : ∀ key ∈ right.map Prod.fst, key ≠ recordIdMarkerKey)
    (hplaces : left.map (fun property => isNullish property.2) = right.map fun property => isNullish property.2)
    (h : List.Forall₂ (fun value other => valuesEqual value other = true)
      ((normalizeComparableProperties left).map Prod.snd) ((normalizeComparableProperties right).map Prod.snd)) :
    List.Forall₂ Matches (left.map Prod.snd) (right.map Prod.snd) := by
  induction left generalizing right with
  | nil =>
      rw [List.map_nil, eq_comm, List.map_eq_nil_iff] at hplaces
      subst hplaces
      exact .nil
  | cons property rest ih =>
      cases right with
      | nil => cases hplaces
      | cons other others =>
          rw [List.map_cons, List.map_cons, List.cons.injEq] at hplaces
          rw [List.map_cons, List.forall_mem_cons] at hleft hright
          rw [normalizeComparableProperties, normalizeComparableProperties] at h
          cases hnull : isNullish property.2 with
          | true =>
              have hnull' : isNullish other.2 = true := hplaces.1.symm.trans hnull
              rw [if_pos (Or.inr hnull), if_pos (Or.inr hnull')] at h
              exact .cons (Or.inl ⟨hnull, hnull'⟩) (ih hleft.2 hright.2 hplaces.2 h)
          | false =>
              have hnull' : isNullish other.2 = false := hplaces.1.symm.trans hnull
              rw [if_neg (by simp [hleft.1, hnull]), if_neg (by simp [hright.1, hnull']), List.map_cons,
                List.map_cons, List.forall₂_cons] at h
              exact .cons (Or.inr h.1) (ih hleft.2 hright.2 hplaces.2 h.2)

end CantonSdk.Debugger
