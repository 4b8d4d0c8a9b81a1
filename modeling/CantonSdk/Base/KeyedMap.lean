import Mathlib.Data.List.Induction
import Mathlib.Data.List.Nodup
import Mathlib.Data.List.Perm.Basic

/-!
# Maps in insertion order

Entries stand in the order in which their keys were first set; setting a key again replaces the value
where it stands. A map is known up to the order of its entries by what it holds at each key.
-/

set_option linter.all false

namespace CantonSdk.Base

universe u v

structure KeyedMap (κ : Type u) (υ : Type v) where
  entries : List (κ × υ)
  keys_nodup : (entries.map Prod.fst).Nodup

namespace KeyedMap

variable {κ : Type u} {υ : Type v} [DecidableEq κ]

def empty : KeyedMap κ υ := ⟨[], List.nodup_nil⟩

def keys (m : KeyedMap κ υ) : List κ := m.entries.map Prod.fst

def values (m : KeyedMap κ υ) : List υ := m.entries.map Prod.snd

/-- `map.get(key)`. -/
def get (m : KeyedMap κ υ) (key : κ) : Option υ :=
  (m.entries.find? fun entry => decide (entry.1 = key)).map Prod.snd

/-- `map.has(key)`. -/
def has (m : KeyedMap κ υ) (key : κ) : Bool := decide (key ∈ m.keys)

/-- The entries after a value has been replaced where its key stands. -/
def replaceEntry (key : κ) (value : υ) (entries : List (κ × υ)) : List (κ × υ) :=
  entries.map fun entry => if entry.1 = key then (key, value) else entry

theorem keys_replaceEntry (key : κ) (value : υ) (entries : List (κ × υ)) :
    (replaceEntry key value entries).map Prod.fst = entries.map Prod.fst := by
  rw [replaceEntry, List.map_map]
  apply List.map_congr_left
  intro entry _
  by_cases hkey : entry.1 = key
  · simp [hkey]
  · simp [hkey]

/-- `map.set(key, value)`. -/
def set (m : KeyedMap κ υ) (key : κ) (value : υ) : KeyedMap κ υ :=
  if hkey : key ∈ m.entries.map Prod.fst then
    ⟨replaceEntry key value m.entries, by
      rw [keys_replaceEntry]
      exact m.keys_nodup⟩
  else
    ⟨m.entries ++ [(key, value)], by
      rw [List.map_append]
      exact m.keys_nodup.append (List.nodup_singleton _) (by simpa using hkey)⟩

/-- `new Map(entries)`. -/
def ofEntries (entries : List (κ × υ)) : KeyedMap κ υ :=
  entries.foldl (fun m entry => m.set entry.1 entry.2) empty

variable {m n : KeyedMap κ υ} {key other : κ} {value : υ}

omit [DecidableEq κ] in
@[simp] theorem keys_empty : (empty : KeyedMap κ υ).keys = [] := rfl

@[simp] theorem get_empty (key : κ) : (empty : KeyedMap κ υ).get key = none := rfl

omit [DecidableEq κ] in
theorem keys_nodup' (m : KeyedMap κ υ) : m.keys.Nodup := m.keys_nodup

/-- In a list of entries with distinct keys, finding a key finds its only entry. -/
theorem find_eq_some {entries : List (κ × υ)} (hnodup : (entries.map Prod.fst).Nodup) :
    (entries.find? fun entry => decide (entry.1 = key)) = some (key, value) ↔
      (key, value) ∈ entries := by
  constructor
  · exact List.mem_of_find?_eq_some
  · intro hmem
    induction entries with
    | nil => cases hmem
    | cons entry rest ih =>
        obtain ⟨hentry, hrest⟩ := List.nodup_cons.mp hnodup
        rcases List.mem_cons.mp hmem with rfl | hmem
        · simp
        · have hne : entry.1 ≠ key := by
            intro heq
            exact hentry (List.mem_map.mpr ⟨(key, value), hmem, heq.symm⟩)
          rw [List.find?_cons_of_neg (by simpa using hne)]
          exact ih hrest hmem

/-- In a list whose entries have distinct keys, the entries with the key of one of them are that one. -/
theorem filter_eq_singleton {α : Type u} {f : α → κ} {list : List α} {a : α}
    (hnodup : (list.map f).Nodup) (hmem : a ∈ list) :
    list.filter (fun other => decide (f other = f a)) = [a] := by
  induction list with
  | nil => cases hmem
  | cons first rest ih =>
      obtain ⟨hfirst, hrest⟩ := List.nodup_cons.mp hnodup
      cases List.mem_cons.mp hmem with
      | inl heq =>
          have hnone : rest.filter (fun other => decide (f other = f first)) = [] := by
            rw [List.filter_eq_nil_iff]
            intro other hother heq'
            exact hfirst (List.mem_map.mpr ⟨other, hother, of_decide_eq_true heq'⟩)
          rw [heq, List.filter_cons_of_pos (by simp), hnone]
      | inr hmem =>
          have hne : f first ≠ f a := by
            intro heq
            exact hfirst (heq ▸ List.mem_map_of_mem hmem)
          rw [List.filter_cons_of_neg (by simpa using hne), ih hrest hmem]

theorem get_eq_some : m.get key = some value ↔ (key, value) ∈ m.entries := by
  rw [← find_eq_some m.keys_nodup, get]
  constructor
  · intro hget
    obtain ⟨entry, hfind, hvalue⟩ := Option.map_eq_some_iff.mp hget
    have hkey : entry.1 = key := by simpa using List.find?_some hfind
    rw [hfind]
    congr 1
    exact Prod.ext hkey hvalue
  · intro hfind
    rw [hfind]
    rfl

theorem mem_keys : key ∈ m.keys ↔ ∃ value, m.get key = some value := by
  simp only [get_eq_some, keys, List.mem_map, Prod.exists, exists_and_right, exists_eq_right]

theorem get_eq_none : m.get key = none ↔ key ∉ m.keys := by
  rw [mem_keys, not_exists]
  constructor
  · intro hnone value hvalue
    rw [hnone] at hvalue
    cases hvalue
  · intro hnone
    cases hget : m.get key with
    | none => rfl
    | some value => exact absurd hget (hnone value)

theorem has_iff : m.has key = true ↔ ∃ value, m.get key = some value := by
  rw [has, decide_eq_true_iff, mem_keys]

theorem keys_set : (m.set key value).keys = if key ∈ m.keys then m.keys else m.keys ++ [key] := by
  by_cases hkey : key ∈ m.keys
  · have hentries : key ∈ m.entries.map Prod.fst := hkey
    rw [if_pos hkey, set, dif_pos hentries]
    exact keys_replaceEntry key value m.entries
  · have hentries : key ∉ m.entries.map Prod.fst := hkey
    rw [if_neg hkey, set, dif_neg hentries]
    simp [keys]

theorem mem_keys_set : other ∈ (m.set key value).keys ↔ other = key ∨ other ∈ m.keys := by
  rw [keys_set]
  by_cases hkey : key ∈ m.keys
  · rw [if_pos hkey]
    constructor
    · exact Or.inr
    · intro h
      rcases h with rfl | h
      · exact hkey
      · exact h
  · rw [if_neg hkey, List.mem_append, List.mem_singleton, or_comm]

@[simp] theorem get_set_self (m : KeyedMap κ υ) (key : κ) (value : υ) :
    (m.set key value).get key = some value := by
  rw [get_eq_some]
  by_cases hkey : key ∈ m.entries.map Prod.fst
  · rw [set, dif_pos hkey]
    obtain ⟨entry, hentry, rfl⟩ := List.mem_map.mp hkey
    exact List.mem_map.mpr ⟨entry, hentry, by simp⟩
  · rw [set, dif_neg hkey]
    simp

theorem mem_entries_set_of_ne {entry : κ × υ} (hne : entry.1 ≠ key) :
    entry ∈ (m.set key value).entries ↔ entry ∈ m.entries := by
  by_cases hkey : key ∈ m.entries.map Prod.fst
  · rw [set, dif_pos hkey]
    constructor
    · intro hmem
      obtain ⟨before, hbefore, hentry⟩ := List.mem_map.mp hmem
      by_cases hbeforeKey : before.1 = key
      · rw [if_pos hbeforeKey] at hentry
        exact absurd (congrArg Prod.fst hentry).symm hne
      · rw [if_neg hbeforeKey] at hentry
        rwa [← hentry]
    · intro hmem
      exact List.mem_map.mpr ⟨entry, hmem, if_neg hne⟩
  · rw [set, dif_neg hkey]
    constructor
    · intro hmem
      rcases List.mem_append.mp hmem with hmem | hmem
      · exact hmem
      · exact absurd (congrArg Prod.fst (List.mem_singleton.mp hmem)) hne
    · exact List.mem_append_left _

theorem get_set_ne (hne : other ≠ key) : (m.set key value).get other = m.get other := by
  apply Option.ext
  intro found
  rw [get_eq_some, get_eq_some]
  exact mem_entries_set_of_ne hne

theorem get_set : (m.set key value).get other = if other = key then some value else m.get other := by
  by_cases hkey : other = key
  · rw [if_pos hkey, hkey, get_set_self]
  · rw [if_neg hkey, get_set_ne hkey]

/-- Setting a key twice is setting it to the second value. -/
theorem set_set (m : KeyedMap κ υ) (key : κ) (first second : υ) :
    (m.set key first).set key second = m.set key second := by
  have hreplace : ∀ entries : List (κ × υ),
      replaceEntry key second (replaceEntry key first entries) = replaceEntry key second entries := by
    intro entries
    rw [replaceEntry, replaceEntry, replaceEntry, List.map_map]
    apply List.map_congr_left
    intro entry _
    by_cases hkey : entry.1 = key
    · simp [hkey]
    · simp [hkey]
  have hpresent : key ∈ (m.set key first).entries.map Prod.fst :=
    mem_keys_set.mpr (Or.inl rfl)
  by_cases hkey : key ∈ m.entries.map Prod.fst
  · simp only [set, dif_pos hkey, keys_replaceEntry, hreplace]
  · have habsent : replaceEntry key second m.entries = m.entries := by
      refine (List.map_congr_left fun entry hentry => ?_).trans (List.map_id _)
      have hne : entry.1 ≠ key := fun heq => hkey (List.mem_map.mpr ⟨entry, hentry, heq⟩)
      exact if_neg hne
    have hentries : replaceEntry key second (m.entries ++ [(key, first)])
        = m.entries ++ [(key, second)] := by
      rw [replaceEntry, List.map_append]
      change replaceEntry key second m.entries ++ _ = _
      rw [habsent]
      simp
    rw [set, dif_pos hpresent]
    simp only [set, dif_neg hkey, hentries]

/-- Maps that hold the same at every key have the same entries, in some order. -/
theorem entries_perm_of_get_eq (hget : ∀ key, m.get key = n.get key) : m.entries.Perm n.entries := by
  rw [List.perm_ext_iff_of_nodup m.keys_nodup.of_map n.keys_nodup.of_map]
  intro entry
  rw [← get_eq_some (m := m), ← get_eq_some (m := n), hget]

theorem values_perm_of_get_eq (hget : ∀ key, m.get key = n.get key) : m.values.Perm n.values :=
  (entries_perm_of_get_eq hget).map _

theorem mem_values : value ∈ m.values ↔ ∃ key, m.get key = some value := by
  simp only [values, List.mem_map, get_eq_some, Prod.exists, exists_eq_right]

/-- A value set last for its key is what the map holds there. -/
theorem get_ofEntries_append (entries : List (κ × υ)) (key : κ) (value : υ) :
    ofEntries (entries ++ [(key, value)]) = (ofEntries entries).set key value := by
  rw [ofEntries, List.foldl_append]
  rfl

theorem get_ofEntries (entries : List (κ × υ)) (key : κ) :
    (ofEntries entries).get key
      = (entries.reverse.find? fun entry => decide (entry.1 = key)).map Prod.snd := by
  induction entries using List.reverseRecOn with
  | nil => rfl
  | append_singleton front last ih =>
      rw [get_ofEntries_append, get_set, List.reverse_append, List.reverse_singleton,
        List.singleton_append]
      by_cases hkey : key = last.1
      · rw [if_pos hkey, List.find?_cons_of_pos (by simp [hkey])]
        rfl
      · rw [if_neg hkey, List.find?_cons_of_neg (by simpa using Ne.symm hkey), ih]

/-- `map.delete(key)`. -/
def delete (m : KeyedMap κ υ) (key : κ) : KeyedMap κ υ where
  entries := m.entries.filter fun entry => decide (entry.1 ≠ key)
  keys_nodup := m.keys_nodup.sublist (List.filter_sublist.map _)

theorem mem_entries_delete {entry : κ × υ} :
    entry ∈ (m.delete key).entries ↔ entry ∈ m.entries ∧ entry.1 ≠ key := by
  rw [delete, List.mem_filter, decide_eq_true_iff]

theorem mem_keys_delete : other ∈ (m.delete key).keys ↔ other ∈ m.keys ∧ other ≠ key := by
  constructor
  · intro hother
    obtain ⟨entry, hentry, rfl⟩ := List.mem_map.mp hother
    obtain ⟨hmem, hne⟩ := mem_entries_delete.mp hentry
    exact ⟨List.mem_map_of_mem hmem, hne⟩
  · rintro ⟨hother, hne⟩
    obtain ⟨entry, hentry, rfl⟩ := List.mem_map.mp hother
    exact List.mem_map_of_mem (mem_entries_delete.mpr ⟨hentry, hne⟩)

/-- A key that is not there is set at the end. -/
theorem entries_set_of_fresh (h : m.get key = none) :
    (m.set key value).entries = m.entries ++ [(key, value)] := by
  have hkey : key ∉ m.entries.map Prod.fst := get_eq_none.mp h
  rw [set, dif_neg hkey]

/-- A key that is there keeps its place. -/
theorem entries_set_of_mem (h : key ∈ m.keys) :
    (m.set key value).entries = replaceEntry key value m.entries := by
  have hkey : key ∈ m.entries.map Prod.fst := h
  rw [set, dif_pos hkey]

omit [DecidableEq κ] in
theorem ext_entries (h : m.entries = n.entries) : m = n := by
  cases m
  cases n
  cases h
  rfl

theorem mem_of_get_ofEntries {entries : List (κ × υ)} (h : (ofEntries entries).get key = some value) :
    (key, value) ∈ entries := by
  rw [get_ofEntries, Option.map_eq_some_iff] at h
  obtain ⟨entry, hfind, rfl⟩ := h
  have hkey : entry.1 = key := by simpa using List.find?_some hfind
  rw [← hkey, ← List.mem_reverse]
  exact List.mem_of_find?_eq_some hfind

theorem mem_keys_ofEntries {entries : List (κ × υ)} :
    key ∈ (ofEntries entries).keys ↔ ∃ value, (key, value) ∈ entries := by
  constructor
  · intro h
    obtain ⟨value, hvalue⟩ := mem_keys.mp h
    exact ⟨value, mem_of_get_ofEntries hvalue⟩
  · intro h
    obtain ⟨value, hvalue⟩ := h
    rw [mem_keys]
    have hfound : (entries.reverse.find? fun entry => decide (entry.1 = key)).isSome = true :=
      List.find?_isSome.mpr ⟨(key, value), List.mem_reverse.mpr hvalue, by simp⟩
    obtain ⟨entry, hentry⟩ := Option.isSome_iff_exists.mp hfound
    exact ⟨entry.2, by rw [get_ofEntries, hentry]; rfl⟩

/-- Entries with distinct keys stay as they are given. -/
theorem entries_ofEntries {entries : List (κ × υ)} (hnodup : (entries.map Prod.fst).Nodup) :
    (ofEntries entries).entries = entries := by
  induction entries using List.reverseRecOn with
  | nil => rfl
  | append_singleton front last ih =>
      rw [List.map_append, List.nodup_append] at hnodup
      have hfront := ih hnodup.1
      have hfresh : (ofEntries front).get last.1 = none := by
        rw [get_eq_none, keys, hfront]
        intro hmem
        exact hnodup.2.2 last.1 hmem last.1 (by simp) rfl
      rw [get_ofEntries_append, entries_set_of_fresh hfresh, hfront]

/-- Reordering the last entries changes nothing where those of one key are the same. -/
theorem get_ofEntries_of_perm {front back other : List (κ × υ)} (hperm : back.Perm other)
    (hagree : ∀ a ∈ back, ∀ b ∈ back, a.1 = b.1 → a = b) (key : κ) :
    (ofEntries (front ++ back)).get key = (ofEntries (front ++ other)).get key := by
  have hfind : ∀ list : List (κ × υ), (∀ entry, entry ∈ list ↔ entry ∈ back) → ∀ found,
      list.find? (fun entry => decide (entry.1 = key)) = some found ↔
        found ∈ back ∧ found.1 = key := by
    intro list hlist found
    constructor
    · intro h
      exact ⟨(hlist found).mp (List.mem_of_find?_eq_some h), by simpa using List.find?_some h⟩
    · intro h
      have hsome : (list.find? fun entry => decide (entry.1 = key)).isSome = true :=
        List.find?_isSome.mpr ⟨found, (hlist found).mpr h.1, by simp [h.2]⟩
      obtain ⟨first, hfirst⟩ := Option.isSome_iff_exists.mp hsome
      have hkey : first.1 = key := by simpa using List.find?_some hfirst
      have hmem := (hlist first).mp (List.mem_of_find?_eq_some hfirst)
      rw [hfirst, hagree first hmem found h.1 (hkey.trans h.2.symm)]
  have hsame : back.reverse.find? (fun entry => decide (entry.1 = key))
      = other.reverse.find? fun entry => decide (entry.1 = key) := by
    apply Option.ext
    intro found
    rw [hfind back.reverse (fun _ => List.mem_reverse),
      hfind other.reverse fun _ => List.mem_reverse.trans hperm.mem_iff.symm]
  rw [get_ofEntries, get_ofEntries, List.reverse_append, List.reverse_append, List.find?_append,
    List.find?_append, hsame]

/-- The same keys with other values. -/
def mapValues {ω : Type v} (f : υ → ω) (m : KeyedMap κ υ) : KeyedMap κ ω where
  entries := m.entries.map fun entry => (entry.1, f entry.2)
  keys_nodup := by
    rw [List.map_map]
    exact m.keys_nodup

theorem get_mapValues {ω : Type v} (f : υ → ω) (m : KeyedMap κ υ) (key : κ) :
    (m.mapValues f).get key = (m.get key).map f := by
  rw [get, mapValues, List.find?_map, Option.map_map, get, Option.map_map]
  rfl

theorem mapValues_set {ω : Type v} (f : υ → ω) (m : KeyedMap κ υ) (key : κ) (value : υ) :
    (m.set key value).mapValues f = (m.mapValues f).set key (f value) := by
  apply ext_entries
  change ((m.set key value).entries.map fun entry => (entry.1, f entry.2)) = _
  by_cases hkey : key ∈ m.keys
  · have hkey' : key ∈ (m.mapValues f).keys := by
      obtain ⟨found, hfound⟩ := mem_keys.mp hkey
      exact mem_keys.mpr ⟨f found, by rw [get_mapValues, hfound]; rfl⟩
    rw [entries_set_of_mem hkey, entries_set_of_mem hkey', replaceEntry, replaceEntry, mapValues,
      List.map_map, List.map_map]
    apply List.map_congr_left
    intro entry _
    by_cases hentry : entry.1 = key
    · simp [hentry]
    · simp [hentry]
  · have hnone : m.get key = none := get_eq_none.mpr hkey
    rw [entries_set_of_fresh hnone, entries_set_of_fresh (by rw [get_mapValues, hnone]; rfl),
      List.map_append]
    rfl

/-- The entries of a list by key, each key with its entries in order. -/
def groupBy {α : Type u} (key : α → κ) (list : List α) : KeyedMap κ (List α) :=
  list.foldl (fun m entry => m.set (key entry) ((m.get (key entry)).getD [] ++ [entry])) empty

theorem get_groupBy {α : Type u} (key : α → κ) (list : List α) (k : κ) :
    (groupBy key list).get k
      = if list.filter (fun entry => decide (key entry = k)) = [] then none
        else some (list.filter fun entry => decide (key entry = k)) := by
  induction list using List.reverseRecOn with
  | nil => rfl
  | append_singleton front last ih =>
      have hlast : groupBy key (front ++ [last])
          = (groupBy key front).set (key last)
              (((groupBy key front).get (key last)).getD [] ++ [last]) := by
        rw [groupBy, List.foldl_append]
        rfl
      rw [hlast, get_set, List.filter_append]
      by_cases hkey : k = key last
      · subst hkey
        rw [if_pos rfl, ih]
        by_cases hempty : front.filter (fun entry => decide (key entry = key last)) = []
        · simp [hempty]
        · simp [hempty]
      · rw [if_neg hkey, ih]
        simp [Ne.symm hkey]

/-- Grouping a mapped list maps every group. -/
theorem groupBy_map {α β : Type u} (key : β → κ) (f : α → β) (list : List α) :
    groupBy key (list.map f) = (groupBy (fun entry => key (f entry)) list).mapValues (List.map f) := by
  induction list using List.reverseRecOn with
  | nil => rfl
  | append_singleton front last ih =>
      have hlast : ∀ {φ : Type u} (k : φ → κ) (init : List φ) (entry : φ),
          groupBy k (init ++ [entry])
            = (groupBy k init).set (k entry) (((groupBy k init).get (k entry)).getD [] ++ [entry]) := by
        intro φ k init entry
        rw [groupBy, List.foldl_append]
        rfl
      rw [List.map_append, List.map_singleton, hlast, hlast, mapValues_set, ih, get_mapValues]
      congr 1
      rw [List.map_append, List.map_singleton]
      cases (groupBy (fun entry => key (f entry)) front).get (key (f last)) <;> rfl

theorem mem_groupBy {α : Type u} {key : α → κ} {list : List α} {k : κ} {group : List α}
    (h : (k, group) ∈ (groupBy key list).entries) :
    group = list.filter (fun entry => decide (key entry = k)) ∧ group ≠ [] := by
  rw [← get_eq_some, get_groupBy] at h
  split at h
  · cases h
  · rename_i hne
    obtain rfl := Option.some.inj h
    exact ⟨rfl, hne⟩

end KeyedMap

end CantonSdk.Base
