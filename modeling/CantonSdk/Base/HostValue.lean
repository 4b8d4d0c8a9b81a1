import CantonSdk.Base.Decimal
import CantonSdk.Base.KeyedMap
import CantonSdk.Base.Sorting

/-!
# Values of the host language

What code that works on untyped values can meet. An object holds its own properties in the order in which
the host enumerates them: first the keys that are array indices, in ascending order, then the others in the
order in which they were defined.
-/

set_option linter.all false

namespace CantonSdk.Base

inductive HostValue
  | undefined
  | null
  | bool (value : Bool)
  | number (value : Int)
  | string (value : String)
  | array (items : List HostValue)
  | object (properties : List (String × HostValue))

/-- The index that a property key stands for, if it is an array index. -/
def arrayIndex (key : String) : Option Nat :=
  if isCanonicalDecimal key then
    if decimalValue key < 4294967295 then some (decimalValue key) else none
  else none

/-- Properties in the order in which the host enumerates them. -/
def ownOrder {α : Type} (properties : List (String × α)) : List (String × α) :=
  sortBy (compareKey compare fun property => (arrayIndex property.1).getD 0)
      (properties.filter fun property => (arrayIndex property.1).isSome)
    ++ properties.filter fun property => !(arrayIndex property.1).isSome

theorem perm_ownOrder {α : Type} (properties : List (String × α)) :
    (ownOrder properties).Perm properties :=
  ((perm_sortBy _ _).append_right _).trans (List.filter_append_perm _ _)

/-- Properties whose keys are no indices stay as they were defined. -/
theorem ownOrder_eq_self {α : Type} {properties : List (String × α)}
    (h : ∀ property ∈ properties, arrayIndex property.1 = none) : ownOrder properties = properties := by
  have hnone : properties.filter (fun property => (arrayIndex property.1).isSome) = [] := by
    rw [List.filter_eq_nil_iff]
    intro property hproperty
    simp [h property hproperty]
  have hall : properties.filter (fun property => !(arrayIndex property.1).isSome) = properties := by
    rw [List.filter_eq_self]
    intro property hproperty
    simp [h property hproperty]
  rw [ownOrder, hnone, hall]
  rfl

theorem arrayIndex_injective {left right : String} {index : Nat} (hleft : arrayIndex left = some index)
    (hright : arrayIndex right = some index) : left = right := by
  unfold arrayIndex at hleft hright
  simp only [Option.ite_none_right_eq_some, Option.some.injEq] at hleft hright
  exact decimalValue_injective hleft.1 hright.1 (hleft.2.2.trans hright.2.2.symm)

/-- A property that is added to properties in order goes where it would have gone before. -/
theorem ownOrder_append {α : Type} {properties added : List (String × α)}
    (hnodup : (properties.map Prod.fst).Nodup) (hadded : ∀ property ∈ added, arrayIndex property.1 = none) :
    ownOrder (ownOrder properties ++ added) = ownOrder (properties ++ added) := by
  have hnone : added.filter (fun property => (arrayIndex property.1).isSome) = [] := by
    rw [List.filter_eq_nil_iff]
    intro property hproperty
    simp [hadded property hproperty]
  have hindices : (ownOrder properties).filter (fun property => (arrayIndex property.1).isSome)
      = sortBy (compareKey compare fun property => (arrayIndex property.1).getD 0)
          (properties.filter fun property => (arrayIndex property.1).isSome) := by
    rw [ownOrder, List.filter_append, List.filter_filter]
    simp only [Bool.and_not_self, List.filter_false, List.append_nil]
    rw [List.filter_eq_self]
    intro property hproperty
    exact (List.mem_filter.mp (mem_sortBy.mp hproperty)).2
  have hothers : (ownOrder properties).filter (fun property => !(arrayIndex property.1).isSome)
      = properties.filter fun property => !(arrayIndex property.1).isSome := by
    have hsorted : (sortBy (compareKey compare fun property : String × α => (arrayIndex property.1).getD 0)
        (properties.filter fun property => (arrayIndex property.1).isSome)).filter
          (fun property => !(arrayIndex property.1).isSome) = [] := by
      rw [List.filter_eq_nil_iff]
      intro property hproperty
      simp [(List.mem_filter.mp (mem_sortBy.mp hproperty)).2]
    rw [ownOrder, List.filter_append, hsorted, List.filter_filter, List.nil_append]
    simp only [Bool.and_self]
  have hstrict : ∀ a ∈ properties.filter (fun property => (arrayIndex property.1).isSome),
      ∀ b ∈ properties.filter (fun property => (arrayIndex property.1).isSome),
      compareKey compare (fun property : String × α => (arrayIndex property.1).getD 0) a b = .eq → a = b := by
    intro a ha b hb hab
    rw [List.mem_filter] at ha hb
    obtain ⟨index, hindex⟩ := Option.isSome_iff_exists.mp ha.2
    obtain ⟨index', hindex'⟩ := Option.isSome_iff_exists.mp hb.2
    simp only [compareKey, hindex, hindex', Option.getD_some, Nat.compare_eq_eq] at hab
    subst hab
    exact List.inj_on_of_nodup_map hnodup ha.1 hb.1 (arrayIndex_injective hindex hindex')
  change sortBy _ ((ownOrder properties ++ added).filter _) ++ (ownOrder properties ++ added).filter _
    = sortBy _ ((properties ++ added).filter _) ++ (properties ++ added).filter _
  rw [List.filter_append, List.filter_append, List.filter_append, List.filter_append, hindices, hothers, hnone,
    List.append_nil, List.append_nil, sortBy_sortBy hstrict]

/-- The keys in the order in which the host enumerates properties with them. -/
def ownKeys (keys : List String) : List String :=
  sortBy (compareKey compare fun key => (arrayIndex key).getD 0) (keys.filter fun key => (arrayIndex key).isSome)
    ++ keys.filter fun key => !(arrayIndex key).isSome

theorem keys_ownOrder {α : Type} (properties : List (String × α)) :
    (ownOrder properties).map Prod.fst = ownKeys (properties.map Prod.fst) := by
  have hsort := map_sortBy (compareKey compare fun key => (arrayIndex key).getD 0) (Prod.fst : String × α → String)
    (properties.filter fun property => (arrayIndex property.1).isSome)
  rw [ownOrder, ownKeys, List.map_append, List.filter_map, List.filter_map]
  exact congrArg₂ (· ++ ·) hsort rfl

/-- Properties whose keys are in order are in order. -/
theorem ownOrder_of_ownKeys {α : Type} {properties : List (String × α)}
    (hnodup : (properties.map Prod.fst).Nodup) (h : ownKeys (properties.map Prod.fst) = properties.map Prod.fst) :
    ownOrder properties = properties := by
  have hkeys : (ownOrder properties).map Prod.fst = properties.map Prod.fst := (keys_ownOrder _).trans h
  have hlength := congrArg List.length hkeys
  rw [List.length_map, List.length_map] at hlength
  refine List.ext_getElem hlength fun index hindex hindex' => ?_
  refine List.inj_on_of_nodup_map hnodup ((perm_ownOrder properties).mem_iff.mp (List.getElem_mem hindex))
    (List.getElem_mem hindex') ?_
  have hkey := congrArg (fun keys => keys[index]?) hkeys
  simpa [List.getElem?_map, List.getElem?_eq_getElem hindex, List.getElem?_eq_getElem hindex'] using hkey

/-- The properties of an object to which these are assigned one after another. -/
def assigned {α : Type} (properties : List (String × α)) : List (String × α) :=
  ownOrder (KeyedMap.ofEntries properties).entries

/-- Properties with distinct keys are all there. -/
theorem perm_assigned {α : Type} {properties : List (String × α)} (hnodup : (properties.map Prod.fst).Nodup) :
    (assigned properties).Perm properties := by
  rw [assigned, KeyedMap.entries_ofEntries hnodup]
  exact perm_ownOrder properties

section Assigned

variable {α : Type} {key : String} {first last : List (String × α)}

theorem get_ofEntries_cons (entry : String × α) (rest : List (String × α)) (key : String) :
    (KeyedMap.ofEntries (entry :: rest)).get key
      = ((KeyedMap.ofEntries rest).get key).or (if entry.1 = key then some entry.2 else none) := by
  rw [KeyedMap.get_ofEntries, KeyedMap.get_ofEntries, List.reverse_cons, List.find?_append]
  by_cases hkey : entry.1 = key
  · rw [List.find?_cons_of_pos (by simpa using hkey), if_pos hkey]
    cases rest.reverse.find? fun entry => decide (entry.1 = key) <;> rfl
  · rw [List.find?_cons_of_neg (by simpa using hkey), if_neg hkey]
    cases rest.reverse.find? fun entry => decide (entry.1 = key) <;> rfl

theorem keys_ofEntries_congr {last : List (String × α)} (hkeys : first.map Prod.fst = last.map Prod.fst) :
    (KeyedMap.ofEntries first).keys = (KeyedMap.ofEntries last).keys := by
  induction first using List.reverseRecOn generalizing last with
  | nil =>
      rw [List.map_nil, eq_comm, List.map_eq_nil_iff] at hkeys
      rw [hkeys]
  | append_singleton front entry ih =>
      obtain ⟨front', tail, rfl, hfront, htail⟩ := List.map_eq_append_iff.mp (hkeys.symm.trans (List.map_append ..))
      obtain ⟨entry', rest, rfl, hentry, hrest⟩ := List.map_eq_cons_iff.mp htail
      obtain rfl := List.map_eq_nil_iff.mp hrest
      rw [KeyedMap.get_ofEntries_append, KeyedMap.get_ofEntries_append, KeyedMap.keys_set, KeyedMap.keys_set,
        ih hfront.symm, hentry]

/-- Objects with the same keys are equal when they hold the same at each key. -/
theorem assigned_eq_iff (hkeys : first.map Prod.fst = last.map Prod.fst) :
    assigned first = assigned last ↔
      ∀ key, (KeyedMap.ofEntries first).get key = (KeyedMap.ofEntries last).get key := by
  constructor
  · intro h key
    refine Option.ext fun value => ?_
    have hmem : (key, value) ∈ assigned first ↔ (key, value) ∈ assigned last := by rw [h]
    unfold assigned at hmem
    rwa [(perm_ownOrder _).mem_iff, (perm_ownOrder _).mem_iff, ← KeyedMap.get_eq_some,
      ← KeyedMap.get_eq_some] at hmem
  · intro h
    have hentries : (KeyedMap.ofEntries first).entries = (KeyedMap.ofEntries last).entries := by
      have hsame := keys_ofEntries_congr hkeys
      have hperm := KeyedMap.entries_perm_of_get_eq h
      have hlength := hperm.length_eq
      refine List.ext_getElem hlength fun index hindex hindex' => ?_
      refine List.inj_on_of_nodup_map (KeyedMap.ofEntries last).keys_nodup (hperm.mem_iff.mp (List.getElem_mem hindex))
        (List.getElem_mem hindex') ?_
      have hkey := congrArg (fun keys => keys[index]?) hsame
      simpa [KeyedMap.keys, List.getElem?_map, List.getElem?_eq_getElem hindex,
        List.getElem?_eq_getElem hindex'] using hkey
    rw [assigned, assigned, hentries]

/-- The first of some properties that are assigned shows only if none of the others has its key. -/
theorem assigned_cons_eq_iff {value other : α} (hkeys : first.map Prod.fst = last.map Prod.fst) :
    assigned ((key, value) :: first) = assigned ((key, other) :: last) ↔
      assigned first = assigned last ∧ (key ∉ first.map Prod.fst → value = other) := by
  have hnone : ∀ properties : List (String × α),
      (KeyedMap.ofEntries properties).get key = none ↔ key ∉ properties.map Prod.fst := by
    intro properties
    rw [KeyedMap.get_eq_none, KeyedMap.mem_keys_ofEntries, List.mem_map, Prod.exists]
    simp
  rw [assigned_eq_iff (by rw [List.map_cons, List.map_cons, hkeys]), assigned_eq_iff hkeys]
  simp only [get_ofEntries_cons]
  constructor
  · intro h
    have hshow : key ∉ first.map Prod.fst → value = other := by
      intro hfresh
      have hkey := h key
      rw [(hnone first).mpr hfresh, (hnone last).mpr (hkeys ▸ hfresh), if_pos rfl, if_pos rfl] at hkey
      exact Option.some.inj hkey
    refine ⟨fun other' => ?_, hshow⟩
    by_cases hfresh : key ∉ first.map Prod.fst
    · have hsame := h other'
      obtain rfl := hshow hfresh
      by_cases hother : key = other'
      · subst hother
        rw [(hnone first).mpr hfresh, (hnone last).mpr (hkeys ▸ hfresh)]
      · rwa [if_neg hother, Option.or_none, Option.or_none] at hsame
    · have hsame := h other'
      by_cases hother : key = other'
      · subst hother
        cases hfirst : (KeyedMap.ofEntries first).get key with
        | none => exact absurd ((hnone first).mp hfirst) hfresh
        | some a =>
            cases hlast : (KeyedMap.ofEntries last).get key with
            | none => exact absurd (hkeys ▸ (hnone last).mp hlast) hfresh
            | some b => rwa [hfirst, hlast] at hsame
      · rwa [if_neg hother, if_neg hother, Option.or_none, Option.or_none] at hsame
  · intro h
    obtain ⟨hrest, hshow⟩ := h
    intro other'
    rw [hrest other']
    by_cases hother : key = other'
    · subst hother
      cases hlast : (KeyedMap.ofEntries last).get key with
      | none => rw [hshow (hkeys ▸ (hnone last).mp hlast)]
      | some b => rfl
    · rw [if_neg hother, if_neg hother]

end Assigned

namespace HostValue

/-- `Object.fromEntries(entries)`. -/
def fromEntries (entries : List (String × HostValue)) : HostValue :=
  .object (ownOrder (KeyedMap.ofEntries entries).entries)

/-- `value[key]`, of the properties of an object. -/
def lookup (properties : List (String × HostValue)) (key : String) : Option HostValue :=
  (properties.find? fun property => decide (property.1 = key)).map Prod.snd

/-- `{ ...value, [key]: property }`. -/
def withProperty (properties : List (String × HostValue)) (key : String) (property : HostValue) :
    HostValue :=
  .object (ownOrder ((KeyedMap.ofEntries properties).set key property).entries)

/-- The property, where it is a string. -/
def stringProperty (properties : List (String × HostValue)) (key : String) : Option String :=
  match lookup properties key with
  | some (.string text) => some text
  | _ => none

end HostValue

end CantonSdk.Base
