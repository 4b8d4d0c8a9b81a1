import CantonSdk.Base.HostValue

/-!
# Shapes of host values

How deep a value is, what is left of it when the properties that are undefined are dropped from its objects,
and what it means that the properties of an object stand in the order in which the host enumerates them.
-/

set_option linter.all false

namespace CantonSdk.Base

/-! ## Properties in order -/

/-- The host enumerates the first key before the second wherever it enumerates both. -/
def ComesBefore (key other : String) : Prop :=
  match arrayIndex key, arrayIndex other with
  | some index, some index' => index < index'
  | none, some _ => False
  | _, none => key ≠ other

/-- Properties with distinct keys, as the host enumerates them. -/
def InOwnOrder {α : Type} (properties : List (String × α)) : Prop :=
  (properties.map Prod.fst).Pairwise ComesBefore

theorem ComesBefore.ne {key other : String} (h : ComesBefore key other) : key ≠ other := by
  rintro rfl
  rw [ComesBefore] at h
  cases hindex : arrayIndex key with
  | none =>
      rw [hindex] at h
      exact h rfl
  | some index =>
      rw [hindex] at h
      exact lt_irrefl _ h

theorem InOwnOrder.nodup {α : Type} {properties : List (String × α)} (h : InOwnOrder properties) :
    (properties.map Prod.fst).Nodup :=
  h.imp fun hbefore => hbefore.ne

theorem InOwnOrder.filter {α : Type} {properties : List (String × α)} (h : InOwnOrder properties)
    (p : String × α → Bool) : InOwnOrder (properties.filter p) :=
  h.sublist (List.filter_sublist.map Prod.fst)

theorem InOwnOrder.of_keys {α β : Type} {properties : List (String × α)} {others : List (String × β)}
    (h : InOwnOrder properties) (hkeys : others.map Prod.fst = properties.map Prod.fst) : InOwnOrder others := by
  rw [InOwnOrder, hkeys]
  exact h

theorem inOwnOrder_ownOrder {α : Type} {properties : List (String × α)} (hnodup : (properties.map Prod.fst).Nodup) :
    InOwnOrder (ownOrder properties) := by
  have hkeys : ((ownOrder properties).map Prod.fst).Nodup := ((perm_ownOrder properties).map Prod.fst).nodup_iff.mpr hnodup
  rw [InOwnOrder, List.pairwise_map]
  have hdistinct : (ownOrder properties).Pairwise fun property other => property.1 ≠ other.1 :=
    List.pairwise_map.mp hkeys
  rw [ownOrder, List.pairwise_append] at hdistinct ⊢
  obtain ⟨hindices, hothers, hacross⟩ := hdistinct
  have hindex : ∀ property ∈ sortBy (compareKey compare fun property : String × α => (arrayIndex property.1).getD 0)
      (properties.filter fun property => (arrayIndex property.1).isSome), ∃ index, arrayIndex property.1 = some index := by
    intro property hproperty
    exact Option.isSome_iff_exists.mp (List.mem_filter.mp (mem_sortBy.mp hproperty)).2
  have hnone : ∀ property ∈ properties.filter fun property => !(arrayIndex property.1).isSome,
      arrayIndex property.1 = none := by
    intro property hproperty
    simpa using (List.mem_filter.mp hproperty).2
  refine ⟨?_, ?_, ?_⟩
  · have hsorted := pairwise_sortBy (compareKey compare fun property : String × α => (arrayIndex property.1).getD 0)
      (properties.filter fun property => (arrayIndex property.1).isSome)
    refine (hsorted.and hindices).imp_of_mem ?_
    intro property other hproperty hother h
    obtain ⟨index, hfirst⟩ := hindex property hproperty
    obtain ⟨index', hsecond⟩ := hindex other hother
    obtain ⟨hle, hne⟩ := h
    rw [compareKey, hfirst, hsecond, Option.getD_some, Option.getD_some, Nat.isLE_compare] at hle
    rw [ComesBefore, hfirst, hsecond]
    have hdiffer : index ≠ index' := by
      rintro rfl
      exact hne (arrayIndex_injective hfirst hsecond)
    dsimp only
    omega
  · refine hothers.imp_of_mem ?_
    intro property other hproperty hother hne
    rw [ComesBefore, hnone property hproperty, hnone other hother]
    exact hne
  · intro property hproperty other hother
    obtain ⟨index, hfirst⟩ := hindex property hproperty
    rw [ComesBefore, hfirst, hnone other hother]
    exact hacross property hproperty other hother

theorem ownOrder_of_inOwnOrder {α : Type} {properties : List (String × α)} (h : InOwnOrder properties) :
    ownOrder properties = properties := by
  induction properties with
  | nil => rfl
  | cons property rest ih =>
      rw [InOwnOrder, List.map_cons, List.pairwise_cons] at h
      obtain ⟨hfirst, hrest⟩ := h
      cases hindex : arrayIndex property.1 with
      | none =>
          refine ownOrder_eq_self ?_
          intro other hother
          rcases List.mem_cons.mp hother with rfl | hmem
          · exact hindex
          · have hbefore := hfirst other.1 (List.mem_map_of_mem hmem)
            rw [ComesBefore, hindex] at hbefore
            cases hother : arrayIndex other.1 with
            | none => rfl
            | some index =>
                rw [hother] at hbefore
                exact hbefore.elim
      | some index =>
          have hsplit : ownOrder (property :: rest) = property :: ownOrder rest := by
            rw [ownOrder, ownOrder, List.filter_cons_of_pos (by rw [hindex]; rfl),
              List.filter_cons_of_neg (by rw [hindex]; simp), ← List.cons_append]
            congr 1
            apply List.insertionSort_cons_of_forall_rel
            intro other hother
            obtain ⟨hmem, hsome⟩ := List.mem_filter.mp hother
            obtain ⟨index', hindex'⟩ := Option.isSome_iff_exists.mp hsome
            have hbefore := hfirst other.1 (List.mem_map_of_mem hmem)
            rw [ComesBefore, hindex, hindex'] at hbefore
            rw [compareKey, hindex, hindex', Option.getD_some, Option.getD_some, Nat.isLE_compare]
            exact hbefore.le
          rw [hsplit, ih hrest]

namespace HostValue

def isUndefined : HostValue → Bool
  | .undefined => true
  | _ => false

/-! ## Depth -/

mutual

def depth : HostValue → Nat
  | .array items => depthOfItems items + 1
  | .object properties => depthOfProperties properties + 1
  | _ => 0

def depthOfItems : List HostValue → Nat
  | [] => 0
  | item :: rest => max item.depth (depthOfItems rest)

def depthOfProperties : List (String × HostValue) → Nat
  | [] => 0
  | (_, child) :: rest => max child.depth (depthOfProperties rest)

end

theorem depthOfItems_le {items : List HostValue} {bound : Nat} :
    depthOfItems items ≤ bound ↔ ∀ item ∈ items, item.depth ≤ bound := by
  induction items with
  | nil => simp [depthOfItems]
  | cons item rest ih => rw [depthOfItems, max_le_iff, ih, List.forall_mem_cons]

theorem depthOfProperties_le {properties : List (String × HostValue)} {bound : Nat} :
    depthOfProperties properties ≤ bound ↔ ∀ property ∈ properties, property.2.depth ≤ bound := by
  induction properties with
  | nil => simp [depthOfProperties]
  | cons property rest ih => rw [depthOfProperties, max_le_iff, ih, List.forall_mem_cons]

theorem depth_array_le {items : List HostValue} {bound : Nat} :
    (HostValue.array items).depth ≤ bound + 1 ↔ ∀ item ∈ items, item.depth ≤ bound := by
  rw [depth, Nat.add_le_add_iff_right, depthOfItems_le]

theorem depth_object_le {properties : List (String × HostValue)} {bound : Nat} :
    (HostValue.object properties).depth ≤ bound + 1 ↔ ∀ property ∈ properties, property.2.depth ≤ bound := by
  rw [depth, Nat.add_le_add_iff_right, depthOfProperties_le]

/-! ## Without undefined properties -/

mutual

/-- The value without the properties that are undefined, at any depth. -/
def compact : HostValue → HostValue
  | .array items => .array (compactItems items)
  | .object properties => .object (compactProperties properties)
  | value => value

def compactItems : List HostValue → List HostValue
  | [] => []
  | item :: rest => compact item :: compactItems rest

def compactProperties : List (String × HostValue) → List (String × HostValue)
  | [] => []
  | (key, child) :: rest =>
      if isUndefined child then compactProperties rest else (key, compact child) :: compactProperties rest

end

theorem compactItems_eq (items : List HostValue) : compactItems items = items.map compact := by
  induction items with
  | nil => rfl
  | cons item rest ih => rw [compactItems, ih, List.map_cons]

theorem compactProperties_eq (properties : List (String × HostValue)) :
    compactProperties properties
      = (properties.filter fun property => !isUndefined property.2).map fun property =>
          (property.1, compact property.2) := by
  induction properties with
  | nil => rfl
  | cons property rest ih =>
      rw [compactProperties]
      cases hchild : isUndefined property.2 with
      | true => rw [List.filter_cons_of_neg (by simp [hchild]), if_pos rfl, ih]
      | false =>
          rw [List.filter_cons_of_pos (by simp [hchild]), if_neg (by simp), ih, List.map_cons]

theorem depth_of_isUndefined {value : HostValue} (h : isUndefined value = true) : value.depth = 0 := by
  cases value with
  | undefined => rfl
  | _ => simp [isUndefined] at h

mutual

/-- Undefined properties add nothing to the depth. -/
theorem depth_compact (value : HostValue) : (compact value).depth = value.depth := by
  cases value with
  | array items => rw [compact, depth, depth, depth_compactItems]
  | object properties => rw [compact, depth, depth, depth_compactProperties]
  | _ => rfl

theorem depth_compactItems (items : List HostValue) : depthOfItems (compactItems items) = depthOfItems items := by
  cases items with
  | nil => rfl
  | cons item rest => rw [compactItems, depthOfItems, depthOfItems, depth_compact, depth_compactItems]

theorem depth_compactProperties (properties : List (String × HostValue)) :
    depthOfProperties (compactProperties properties) = depthOfProperties properties := by
  cases properties with
  | nil => rfl
  | cons property rest =>
      obtain ⟨key, child⟩ := property
      rw [compactProperties, depthOfProperties]
      split
      · next hchild => rw [depth_compactProperties, depth_of_isUndefined hchild, Nat.zero_max]
      · rw [depthOfProperties, depth_compact, depth_compactProperties]

end

theorem isUndefined_compact (value : HostValue) : isUndefined (compact value) = isUndefined value := by
  cases value <;> rfl

/-! ## Objects at any depth -/

mutual

/-- The properties of every object in the value, at any depth, are as `p` says. -/
def EveryObject (p : List (String × HostValue) → Prop) : HostValue → Prop
  | .array items => EveryObjectOfItems p items
  | .object properties => p properties ∧ EveryObjectOfProperties p properties
  | _ => True

def EveryObjectOfItems (p : List (String × HostValue) → Prop) : List HostValue → Prop
  | [] => True
  | item :: rest => EveryObject p item ∧ EveryObjectOfItems p rest

def EveryObjectOfProperties (p : List (String × HostValue) → Prop) : List (String × HostValue) → Prop
  | [] => True
  | (_, child) :: rest => EveryObject p child ∧ EveryObjectOfProperties p rest

end

variable {p : List (String × HostValue) → Prop}

theorem everyObject_array {items : List HostValue} :
    EveryObject p (.array items) ↔ ∀ item ∈ items, EveryObject p item := by
  rw [EveryObject]
  induction items with
  | nil => simp [EveryObjectOfItems]
  | cons item rest ih => rw [EveryObjectOfItems, ih, List.forall_mem_cons]

theorem everyObject_object {properties : List (String × HostValue)} :
    EveryObject p (.object properties) ↔ p properties ∧ ∀ property ∈ properties, EveryObject p property.2 := by
  rw [EveryObject]
  refine and_congr_right fun hproperties => ?_
  clear hproperties
  induction properties with
  | nil => simp [EveryObjectOfProperties]
  | cons property rest ih => rw [EveryObjectOfProperties, ih, List.forall_mem_cons]

/-! ## Lookup -/

theorem lookup_mem {properties : List (String × HostValue)} {key : String} {value : HostValue}
    (h : lookup properties key = some value) : (key, value) ∈ properties := by
  rw [lookup, Option.map_eq_some_iff] at h
  obtain ⟨property, hfind, rfl⟩ := h
  have hkey := List.find?_some hfind
  rw [decide_eq_true_eq] at hkey
  subst hkey
  exact List.mem_of_find?_eq_some hfind

theorem lookup_of_mem {properties : List (String × HostValue)} {key : String} {value : HostValue}
    (hnodup : (properties.map Prod.fst).Nodup) (h : (key, value) ∈ properties) : lookup properties key = some value := by
  have hfind : properties.find? (fun property => decide (property.1 = key)) = some (key, value) :=
    (KeyedMap.find_eq_some hnodup).mpr h
  rw [lookup, hfind, Option.map_some]

end HostValue

end CantonSdk.Base
