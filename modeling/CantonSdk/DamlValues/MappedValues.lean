import CantonSdk.Base.HostValue
import CantonSdk.DamlValues.Meaning

/-!
# Mapped values

What the JSON of query rows is made of, when the mapping of a Ledger API value succeeds: the parts of the
value, mapped one by one. The fields of a record that is labelled as its type says are found by their labels
on both sides.
-/

set_option linter.all false

namespace CantonSdk.DamlValues

open CantonSdk.Base CantonSdk.Query.Canonical CantonSdk.Query.Grpc

variable {locale : Collation} {depth index : Nat} {mapped : QueryValue}

theorem withinDepth_eq_ok {result : Checked QueryValue} (h : withinDepth depth result = .ok mapped) :
    result = .ok mapped := by
  rw [withinDepth] at h
  split at h
  · cases h
  · exact h

theorem map_eq_ok {ε α β : Type} {f : α → β} {x : Except ε α} {b : β} (h : f <$> x = .ok b) :
    ∃ a, x = .ok a ∧ f a = b := by
  cases x with
  | error e => cases h
  | ok a => exact ⟨a, rfl, Except.ok.inj h⟩

/-! ## Scalars -/

section Scalars

variable {value name text : String}

theorem int64_eq_ok (h : int64 value name = .ok text) : text = value := by
  rw [int64] at h
  split at h
  · cases h
  · split at h
    · cases h
    · exact (Except.ok.inj h).symm

theorem mapTimestamp_eq_ok (h : mapTimestamp value = .ok text) : ∃ micros, text = timestampText micros := by
  obtain ⟨_, _, h⟩ := bind_eq_ok.mp h
  split at h
  · cases h
  · split at h
    · cases h
    · exact ⟨_, (Except.ok.inj h).symm⟩

theorem mapNumeric_eq_ok (h : mapNumeric value = .ok text) : text = value := by
  simp only [mapNumeric] at h
  split at h
  · cases h
  · split at h
    · cases h
    · exact (Except.ok.inj h).symm

theorem validPartyId_eq_ok (h : validPartyId value = .ok text) : text = value := by
  rw [validPartyId] at h
  split at h
  · exact (Except.ok.inj h).symm
  · cases h

theorem validLedgerString_eq_ok (h : validLedgerString value name = .ok text) : text = value := by
  rw [validLedgerString] at h
  split at h
  · exact (Except.ok.inj h).symm
  · cases h

theorem validNameString_eq_ok (h : validNameString value name = .ok text) : text = value := by
  rw [validNameString] at h
  split at h
  · exact (Except.ok.inj h).symm
  · cases h

end Scalars

/-! ## Parts -/

theorem mapItems_eq_ok {values : List Value} {items : List QueryValue}
    (h : mapItems locale depth values = .ok items) :
    List.Forall₂ (fun value item => mapValue locale depth value = .ok item) values items := by
  induction values generalizing items with
  | nil =>
      cases h
      exact .nil
  | cons value rest ih =>
      rw [mapItems] at h
      obtain ⟨item, hitem, h⟩ := bind_eq_ok.mp h
      obtain ⟨others, hothers, h⟩ := bind_eq_ok.mp h
      cases h
      exact .cons hitem (ih hothers)

/-- A part that is there, and mapped. -/
def PartMaps (locale : Collation) (depth : Nat) (part : Option Value) (mapped : QueryValue) : Prop :=
  ∃ value, part = some value ∧ mapValue locale depth value = .ok mapped

theorem mapPart_eq_some {part : Option Value} {result : Checked QueryValue}
    (h : mapPart locale depth part = some result) : ∃ value, part = some value ∧ mapValue locale depth value = result := by
  cases part with
  | none => cases h
  | some value => exact ⟨value, rfl, Option.some.inj h⟩

/-- An entry of a map or a field of a record, and the property it becomes. -/
def EntryMaps (locale : Collation) (depth : Nat) (entry : String × Option Value) (property : String × QueryValue) :
    Prop :=
  property.1 = entry.1 ∧ PartMaps locale depth entry.2 property.2

theorem keys_of_entryMaps {entries : List (String × Option Value)} {properties : List (String × QueryValue)}
    (h : List.Forall₂ (EntryMaps locale depth) entries properties) :
    properties.map Prod.fst = entries.map Prod.fst := by
  induction h with
  | nil => rfl
  | cons hentry _ ih => rw [List.map_cons, List.map_cons, hentry.1, ih]

theorem mapTextMap_eq_ok {entries : List (String × Option Value)} {output properties : List (String × QueryValue)}
    (h : mapTextMap locale depth index output entries = .ok properties) :
    ∃ added, properties = output ++ added ∧ List.Forall₂ (EntryMaps locale depth) entries added ∧
      ((output.map Prod.fst).Nodup → (properties.map Prod.fst).Nodup) := by
  induction entries generalizing index output with
  | nil =>
      cases h
      exact ⟨[], by simp, .nil, id⟩
  | cons entry rest ih =>
      obtain ⟨key, part⟩ := entry
      rw [mapTextMap] at h
      split at h
      · cases h
      · rename_i hfresh
        split at h
        · cases h
        · rename_i result hpart
          obtain ⟨value, rfl, hvalue⟩ := mapPart_eq_some hpart
          obtain ⟨item, hitem, h⟩ := bind_eq_ok.mp h
          obtain ⟨added, rfl, hadded, hnodup⟩ := ih h
          refine ⟨(key, item) :: added, by simp, .cons ⟨rfl, value, rfl, hvalue.trans hitem⟩ hadded, ?_⟩
          intro hdistinct
          apply hnodup
          rw [List.map_append, List.nodup_append]
          refine ⟨hdistinct, List.nodup_singleton _, ?_⟩
          intro a ha b hb
          simp only [List.map_cons, List.map_nil, List.mem_singleton] at hb
          subst hb
          intro heq
          subst heq
          apply hfresh
          obtain ⟨property, hproperty, hkey⟩ := List.mem_map.mp ha
          rw [List.any_eq_true]
          exact ⟨property, hproperty, by simpa using hkey⟩

theorem mapRecord_eq_ok {fields : List (String × Option Value)} {output properties : List (String × QueryValue)}
    (h : mapRecord locale depth index output fields = .ok properties) :
    ∃ added, properties = output ++ added ∧ List.Forall₂ (EntryMaps locale depth) fields added ∧
      (fields.all fun field => !field.1.isEmpty) = true := by
  induction fields generalizing index output with
  | nil =>
      cases h
      exact ⟨[], by simp, .nil, rfl⟩
  | cons field rest ih =>
      obtain ⟨label, part⟩ := field
      rw [mapRecord] at h
      split at h
      · cases h
      · rename_i hlabel
        split at h
        · cases h
        · split at h
          · cases h
          · rename_i result hpart
            obtain ⟨value, rfl, hvalue⟩ := mapPart_eq_some hpart
            obtain ⟨name, hname, hnamed⟩ := bind_eq_ok.mp h
            obtain ⟨item, hitem, hrest⟩ := bind_eq_ok.mp hnamed
            obtain rfl := validNameString_eq_ok hname
            obtain ⟨added, rfl, hadded, hlabels⟩ := ih hrest
            refine ⟨(name, item) :: added, by simp, .cons ⟨rfl, value, rfl, hvalue.trans hitem⟩ hadded, ?_⟩
            rw [List.all_cons, hlabels, Bool.and_true]
            simpa using hlabel

/-- An entry of a general map, and the pair it becomes. -/
def PairMaps (locale : Collation) (depth : Nat) (entry : Option Value × Option Value) (pair : QueryValue) : Prop :=
  ∃ key value, pair = .array [key, value] ∧ PartMaps locale depth entry.1 key ∧ PartMaps locale depth entry.2 value

theorem mapGenMap_eq_ok {entries : List (Option Value × Option Value)} {seenKeys : List String}
    {pairs : List QueryValue} (h : mapGenMap locale depth index seenKeys entries = .ok pairs) :
    List.Forall₂ (PairMaps locale depth) entries pairs := by
  induction entries generalizing index seenKeys pairs with
  | nil =>
      cases h
      exact .nil
  | cons entry rest ih =>
      obtain ⟨key, part⟩ := entry
      rw [mapGenMap] at h
      split at h
      · rename_i mappedKey mappedValue canonical hkey hvalue _
        obtain ⟨keyValue, rfl, hkeyValue⟩ := mapPart_eq_some hkey
        obtain ⟨value, rfl, hvalueValue⟩ := mapPart_eq_some hvalue
        obtain ⟨k, hk, h⟩ := bind_eq_ok.mp h
        obtain ⟨canonicalKey, _, h⟩ := bind_eq_ok.mp h
        split at h
        · cases h
        · obtain ⟨v, hv, h⟩ := bind_eq_ok.mp h
          obtain ⟨others, hothers, h⟩ := bind_eq_ok.mp h
          cases h
          exact .cons ⟨k, v, rfl, ⟨keyValue, rfl, hkeyValue.trans hk⟩, ⟨value, rfl, hvalueValue.trans hv⟩⟩
            (ih hothers)
      · cases h

end CantonSdk.DamlValues
