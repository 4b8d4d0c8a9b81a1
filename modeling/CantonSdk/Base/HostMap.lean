import CantonSdk.Base.HostShape

/-!
# Objects as maps

An object whose properties are set and deleted one after another holds what a map in insertion order holds, in the
order in which the host enumerates it.
-/

set_option linter.all false

namespace CantonSdk.Base

variable {α β : Type}

theorem others_ownOrder (properties : List (String × α)) :
    (ownOrder properties).filter (fun property => !(arrayIndex property.1).isSome)
      = properties.filter fun property => !(arrayIndex property.1).isSome := by
  have hsorted : (sortBy (compareKey compare fun property : String × α => (arrayIndex property.1).getD 0)
      (properties.filter fun property => (arrayIndex property.1).isSome)).filter
        (fun property => !(arrayIndex property.1).isSome) = [] := by
    rw [List.filter_eq_nil_iff]
    intro property hproperty
    simp [(List.mem_filter.mp (mem_sortBy.mp hproperty)).2]
  rw [ownOrder, List.filter_append, hsorted, List.filter_filter, List.nil_append]
  simp only [Bool.and_self]

/-- How properties are enumerated depends on which there are, and on the order of those whose keys are no indices. -/
theorem ownOrder_congr {properties others : List (String × α)} (hnodup : (properties.map Prod.fst).Nodup)
    (hperm : properties.Perm others)
    (hothers : properties.filter (fun property => !(arrayIndex property.1).isSome)
      = others.filter fun property => !(arrayIndex property.1).isSome) :
    ownOrder properties = ownOrder others := by
  have hstrict : ∀ a ∈ properties.filter (fun property => (arrayIndex property.1).isSome),
      ∀ b ∈ properties.filter (fun property => (arrayIndex property.1).isSome),
      compareKey compare (fun property : String × α => (arrayIndex property.1).getD 0) a b = .eq → a = b := by
    intro a ha b hb hab
    rw [List.mem_filter] at ha hb
    obtain ⟨index, hindex⟩ := Option.isSome_iff_exists.mp ha.2
    obtain ⟨index', hindex'⟩ := Option.isSome_iff_exists.mp hb.2
    simp only [compareKey, hindex, hindex', Option.getD_some, Nat.compare_eq_eq] at hab
    subst hab
    exact List.inj_on_of_nodup_map hnodup ha.1 hb.1 (arrayIndex_injective hindex hindex')
  rw [ownOrder, ownOrder, sortBy_eq_of_perm hstrict (hperm.filter _), hothers]

theorem nodup_ownOrder {properties : List (String × α)} (hnodup : (properties.map Prod.fst).Nodup) :
    ((ownOrder properties).map Prod.fst).Nodup :=
  ((perm_ownOrder properties).map Prod.fst).nodup_iff.mpr hnodup

/-- Values are replaced without changing the order of the keys. -/
theorem map_ownOrder {f : String × α → String × β} (hf : ∀ property, (f property).1 = property.1)
    (properties : List (String × α)) : (ownOrder properties).map f = ownOrder (properties.map f) := by
  have hfilter : ∀ p : String → Bool, (properties.filter fun property => p property.1).map f
      = (properties.map f).filter fun property => p property.1 := by
    intro p
    rw [List.filter_map]
    congr 1
    apply List.filter_congr
    intro property _
    exact congrArg p (hf property).symm
  have hsort := List.map_insertionSort
    (fun left right : String × α => (compareKey compare (fun property : String × α => (arrayIndex property.1).getD 0) left right).isLE)
    (fun left right : String × β => (compareKey compare (fun property : String × β => (arrayIndex property.1).getD 0) left right).isLE)
    f (properties.filter fun property => (arrayIndex property.1).isSome)
    (fun left _ right _ => by simp only [compareKey, hf])
  rw [ownOrder, ownOrder, List.map_append, hfilter fun key => !(arrayIndex key).isSome]
  congr 1
  rw [sortBy, hsort, hfilter fun key => (arrayIndex key).isSome]
  rfl

section Map

variable (m : KeyedMap String α) (key : String) (value : α)

theorem ofEntries_ownOrder : (KeyedMap.ofEntries (ownOrder m.entries)).entries = ownOrder m.entries :=
  KeyedMap.entries_ofEntries (nodup_ownOrder m.keys_nodup)

/-- `{ ...object, [key]: value }`. -/
theorem assigned_ownOrder : assigned (ownOrder m.entries ++ [(key, value)]) = ownOrder (m.set key value).entries := by
  have hset : KeyedMap.ofEntries (ownOrder m.entries ++ [(key, value)])
      = (KeyedMap.ofEntries (ownOrder m.entries)).set key value := by
    rw [KeyedMap.ofEntries, KeyedMap.ofEntries, List.foldl_append]
    rfl
  have hkeys : key ∈ (KeyedMap.ofEntries (ownOrder m.entries)).keys ↔ key ∈ m.keys := by
    rw [KeyedMap.keys, ofEntries_ownOrder]
    exact ((perm_ownOrder m.entries).map Prod.fst).mem_iff
  rw [assigned, hset]
  by_cases hkey : key ∈ m.keys
  · have hreplaced := map_ownOrder (f := fun entry : String × α => if entry.1 = key then (key, value) else entry)
      (fun entry => by split <;> simp [*]) m.entries
    rw [KeyedMap.entries_set_of_mem (hkeys.mpr hkey), KeyedMap.entries_set_of_mem hkey, ofEntries_ownOrder,
      KeyedMap.replaceEntry, hreplaced]
    refine ownOrder_congr ?_ (perm_ownOrder _) (others_ownOrder _)
    apply nodup_ownOrder
    exact (KeyedMap.keys_replaceEntry key value m.entries).symm ▸ m.keys_nodup
  · have hfresh : m.get key = none := KeyedMap.get_eq_none.mpr hkey
    have hfresh' : (KeyedMap.ofEntries (ownOrder m.entries)).get key = none :=
      KeyedMap.get_eq_none.mpr fun hmem => hkey (hkeys.mp hmem)
    rw [KeyedMap.entries_set_of_fresh hfresh, KeyedMap.entries_set_of_fresh hfresh', ofEntries_ownOrder]
    refine ownOrder_congr ?_ ((perm_ownOrder m.entries).append_right _) ?_
    · rw [List.map_append]
      refine (nodup_ownOrder m.keys_nodup).append (List.nodup_singleton key) ?_
      rw [List.map_singleton, List.disjoint_singleton, ((perm_ownOrder m.entries).map Prod.fst).mem_iff]
      exact hkey
    · rw [List.filter_append, List.filter_append, others_ownOrder]

/-- `delete object[key]`. -/
theorem filter_ownOrder :
    (ownOrder m.entries).filter (fun entry => decide (entry.1 ≠ key)) = ownOrder (m.delete key).entries := by
  have horder := (inOwnOrder_ownOrder m.keys_nodup).filter fun entry => decide (entry.1 ≠ key)
  rw [← ownOrder_of_inOwnOrder horder]
  refine ownOrder_congr horder.nodup ((perm_ownOrder m.entries).filter _) ?_
  rw [List.filter_comm, others_ownOrder, KeyedMap.delete, List.filter_comm]

/-- What a list of entries with distinct keys has under a key. -/
theorem lookup_iff_mem {entries : List (String × α)} (hnodup : (entries.map Prod.fst).Nodup) :
    entries.lookup key = some value ↔ (key, value) ∈ entries := by
  induction entries with
  | nil => simp
  | cons entry rest ih =>
      obtain ⟨name, found⟩ := entry
      rw [List.map_cons, List.nodup_cons] at hnodup
      rw [List.lookup_cons, List.mem_cons, Prod.mk.injEq]
      by_cases hname : key = name
      · subst hname
        have habsent : (key, value) ∉ rest := fun hmem => hnodup.1 (List.mem_map.mpr ⟨_, hmem, rfl⟩)
        simp [habsent, eq_comm]
      · rw [beq_eq_false_iff_ne.mpr hname]
        simp only [hname, false_and, false_or]
        exact ih hnodup.2

/-- `object[key]`, of a key that the object defines itself. -/
theorem lookup_ownOrder : (ownOrder m.entries).lookup key = m.get key := by
  refine Option.ext fun found => ?_
  rw [lookup_iff_mem _ _ (nodup_ownOrder m.keys_nodup), KeyedMap.get_eq_some, (perm_ownOrder m.entries).mem_iff]

end Map

end CantonSdk.Base
