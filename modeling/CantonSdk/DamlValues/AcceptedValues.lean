import CantonSdk.Base.Related
import CantonSdk.DamlValues.Likeness
import CantonSdk.DamlValues.MappedValues

/-!
# Accepted values

What the mapping of query values has checked of a value that it accepts: its parts are accepted, nothing is
missing, numbers are spelled as numbers and names are distinct.
-/

set_option linter.all false

namespace CantonSdk.DamlValues

open CantonSdk.Base CantonSdk.Query.Canonical CantonSdk.Query.Grpc

variable {locale : Collation} {depth index : Nat} {value : Value} {mapped : QueryValue}

/-- The mapping of query values succeeds, at some depth. -/
def Accepted (locale : Collation) (value : Value) : Prop :=
  ∃ depth mapped, mapValue locale depth value = .ok mapped

theorem accepted_of_partMaps {part : Option Value} (h : PartMaps locale depth part mapped) (hpart : part = some value) :
    Accepted locale value := by
  obtain ⟨_, rfl, hmapped⟩ := h
  obtain rfl := Option.some.inj hpart
  exact ⟨_, _, hmapped⟩

theorem accepted_of_entryMaps {entries : List Entry} {properties : List (String × QueryValue)}
    (h : List.Forall₂ (EntryMaps locale depth) entries properties) (hpart : value ∈ entries.filterMap Prod.snd) :
    Accepted locale value := by
  obtain ⟨entry, hmem, hvalue⟩ := List.mem_filterMap.mp hpart
  obtain ⟨property, _, hentry⟩ := forall₂_left h entry hmem
  exact accepted_of_partMaps hentry.2 hvalue

/-- The parts of an accepted value are accepted. -/
theorem accepted_parts (h : Accepted locale value) : ∀ part ∈ parts value, Accepted locale part := by
  obtain ⟨depth, mapped, h⟩ := h
  intro part hpart
  cases value with
  | optional value =>
      obtain rfl := Option.mem_toList.mp hpart
      rw [mapValue] at h
      exact ⟨_, _, withinDepth_eq_ok h⟩
  | list elements =>
      rw [mapValue] at h
      obtain ⟨items, hitems, _⟩ := map_eq_ok (withinDepth_eq_ok h)
      obtain ⟨item, _, hitem⟩ := forall₂_left (mapItems_eq_ok hitems) part hpart
      exact ⟨_, _, hitem⟩
  | textMap entries =>
      rw [mapValue] at h
      obtain ⟨properties, hproperties, _⟩ := map_eq_ok (withinDepth_eq_ok h)
      obtain ⟨added, _, hadded, _⟩ := mapTextMap_eq_ok hproperties
      exact accepted_of_entryMaps hadded hpart
  | record fields =>
      rw [mapValue] at h
      obtain ⟨properties, hproperties, _⟩ := map_eq_ok (withinDepth_eq_ok h)
      obtain ⟨added, _, hadded, _⟩ := mapRecord_eq_ok hproperties
      exact accepted_of_entryMaps hadded hpart
  | genMap entries =>
      rw [mapValue] at h
      obtain ⟨pairs, hpairs, _⟩ := map_eq_ok (withinDepth_eq_ok h)
      obtain ⟨entry, hentry, hmem⟩ := List.mem_flatMap.mp hpart
      obtain ⟨pair, _, _, _, _, hkey, hvalue⟩ := forall₂_left (mapGenMap_eq_ok hpairs) entry hentry
      rcases List.mem_append.mp hmem with hmem | hmem
      · exact accepted_of_partMaps hkey (Option.mem_toList.mp hmem)
      · exact accepted_of_partMaps hvalue (Option.mem_toList.mp hmem)
  | variant constructorName value =>
      obtain rfl := Option.mem_toList.mp hpart
      rw [mapValue] at h
      obtain ⟨_, _, h⟩ := bind_eq_ok.mp (withinDepth_eq_ok h)
      obtain ⟨inner, hinner, _⟩ := bind_eq_ok.mp h
      exact ⟨_, _, hinner⟩
  | _ => cases hpart

/-! ## What has been checked -/

/-- What has been checked of a value, its parts aside. -/
def Formed : Value → Prop
  | .int64 value => ∃ integer, signedDecimal value = some integer
  | .timestamp micros => ∃ integer, signedDecimal micros = some integer
  | .numeric value => ∃ digits, numericParts value = some digits
  | .textMap entries => (entries.map Prod.fst).Nodup ∧ ∀ entry ∈ entries, ∃ value, entry.2 = some value
  | .genMap entries => ∀ entry ∈ entries, (∃ key, entry.1 = some key) ∧ ∃ value, entry.2 = some value
  | .record fields =>
      (fields.map Prod.fst).Nodup ∧ (∀ field ∈ fields, isNameString field.1.toList = true) ∧
        ∀ field ∈ fields, ∃ value, field.2 = some value
  | .variant _ value => ∃ inner, value = some inner
  | .unset => False
  | _ => True

theorem signedDecimal_of_int64 {value name text : String} (h : int64 value name = .ok text) :
    ∃ integer, signedDecimal value = some integer := by
  rw [int64] at h
  split at h
  · cases h
  · rename_i integer hinteger
    exact ⟨integer, hinteger⟩

theorem numericParts_of_mapNumeric {value text : String} (h : mapNumeric value = .ok text) :
    ∃ digits, numericParts value = some digits := by
  simp only [mapNumeric] at h
  split at h
  · cases h
  · rename_i hchecked
    simp only [not_or, not_not, List.all_append, Bool.and_eq_true] at hchecked
    obtain ⟨hempty, _, _, hwhole, hfraction⟩ := hchecked
    have hnonempty := List.isEmpty_eq_false_iff.mpr hempty
    refine ⟨((splitPoint (dropSign value.toList)).1, (splitPoint (dropSign value.toList)).2.getD []), ?_⟩
    simp only [numericParts, hnonempty, hwhole, hfraction]
    rfl

theorem isNameString_of_valid {value name text : String} (h : validNameString value name = .ok text) :
    isNameString value.toList = true := by
  rw [validNameString] at h
  split at h
  · assumption
  · cases h

theorem any_key {α : Type} {output : List (String × α)} {label : String} :
    (output.any fun field => field.1 = label) = true ↔ label ∈ output.map Prod.fst := by
  rw [List.any_eq_true, List.mem_map]
  simp only [decide_eq_true_eq]

/-- The labels of a mapped record are distinct names. -/
theorem labels_of_mapRecord {fields : List Entry} {output properties : List (String × QueryValue)}
    (h : mapRecord locale depth index output fields = .ok properties) :
    (∀ field ∈ fields, isNameString field.1.toList = true) ∧ (fields.map Prod.fst).Nodup ∧
      ∀ label ∈ output.map Prod.fst, label ∉ fields.map Prod.fst := by
  induction fields generalizing index output with
  | nil => exact ⟨nofun, List.nodup_nil, fun _ _ => List.not_mem_nil⟩
  | cons field rest ih =>
      obtain ⟨label, part⟩ := field
      rw [mapRecord] at h
      split at h
      · cases h
      split at h
      · cases h
      rename_i hfresh
      rw [any_key] at hfresh
      split at h
      · cases h
      obtain ⟨name, hname, hnamed⟩ := bind_eq_ok.mp h
      obtain ⟨item, _, hrest⟩ := bind_eq_ok.mp hnamed
      have hlabel := isNameString_of_valid hname
      obtain rfl := validNameString_eq_ok hname
      obtain ⟨hnames, hnodup, hdisjoint⟩ := ih hrest
      simp only [List.map_append, List.map_cons, List.map_nil, List.mem_append, List.mem_singleton] at hdisjoint
      refine ⟨List.forall_mem_cons.mpr ⟨hlabel, hnames⟩, ?_, ?_⟩
      · exact List.nodup_cons.mpr ⟨hdisjoint _ (.inr rfl), hnodup⟩
      · intro other hother
        rw [List.map_cons, List.mem_cons, not_or]
        refine ⟨?_, hdisjoint _ (.inl hother)⟩
        rintro rfl
        exact hfresh hother

theorem present_of_entryMaps {entries : List Entry} {properties : List (String × QueryValue)}
    (h : List.Forall₂ (EntryMaps locale depth) entries properties) : ∀ entry ∈ entries, ∃ value, entry.2 = some value := by
  intro entry hentry
  obtain ⟨_, _, _, value, hvalue, _⟩ := forall₂_left h entry hentry
  exact ⟨value, hvalue⟩

theorem formed_of_accepted (h : Accepted locale value) : Formed value := by
  obtain ⟨depth, mapped, h⟩ := h
  cases value with
  | int64 value =>
      rw [mapValue] at h
      obtain ⟨text, htext, _⟩ := map_eq_ok (withinDepth_eq_ok h)
      exact signedDecimal_of_int64 htext
  | timestamp micros =>
      rw [mapValue] at h
      obtain ⟨text, htext, _⟩ := map_eq_ok (withinDepth_eq_ok h)
      obtain ⟨_, hinteger, _⟩ := bind_eq_ok.mp htext
      exact signedDecimal_of_int64 hinteger
  | numeric value =>
      rw [mapValue] at h
      obtain ⟨text, htext, _⟩ := map_eq_ok (withinDepth_eq_ok h)
      exact numericParts_of_mapNumeric htext
  | textMap entries =>
      rw [mapValue] at h
      obtain ⟨properties, hproperties, _⟩ := map_eq_ok (withinDepth_eq_ok h)
      obtain ⟨added, rfl, hadded, hnodup⟩ := mapTextMap_eq_ok hproperties
      refine ⟨?_, present_of_entryMaps hadded⟩
      rw [← keys_of_entryMaps hadded]
      exact hnodup List.nodup_nil
  | record fields =>
      rw [mapValue] at h
      obtain ⟨properties, hproperties, _⟩ := map_eq_ok (withinDepth_eq_ok h)
      obtain ⟨hnames, hnodup, _⟩ := labels_of_mapRecord hproperties
      obtain ⟨added, _, hadded, _⟩ := mapRecord_eq_ok hproperties
      exact ⟨hnodup, hnames, present_of_entryMaps hadded⟩
  | genMap entries =>
      rw [mapValue] at h
      obtain ⟨pairs, hpairs, _⟩ := map_eq_ok (withinDepth_eq_ok h)
      intro entry hentry
      obtain ⟨_, _, _, _, _, ⟨key, hkey, _⟩, value, hvalue, _⟩ := forall₂_left (mapGenMap_eq_ok hpairs) entry hentry
      exact ⟨⟨key, hkey⟩, value, hvalue⟩
  | variant constructorName value =>
      rw [mapValue] at h
      cases value with
      | none => cases withinDepth_eq_ok h
      | some inner => exact ⟨inner, rfl⟩
  | unset =>
      rw [mapValue] at h
      cases withinDepth_eq_ok h
  | _ => trivial

end CantonSdk.DamlValues
