import CantonSdk.Debugger.Normalizer

/-!
# Collected contract ids

The ids collected from a normalized value are the ids of the typed value, wherever the value is readable.
-/

set_option linter.all false

namespace CantonSdk.Debugger

open CantonSdk.Base HostValue

variable {properties entries : List (String × HostValue)} {contractId key : String}

theorem mem_markedInProperties :
    contractId ∈ markedInProperties properties ↔
      ∃ property ∈ properties, contractId ∈ markedContractIds property.2 := by
  induction properties with
  | nil => simp [markedInProperties]
  | cons first rest ih =>
      rw [markedInProperties, List.mem_append, ih, List.exists_mem_cons_iff]

theorem markedContractIds_object (h : isMarked properties = false) :
    markedContractIds (.object properties) = markedInProperties properties := by
  unfold isMarked at h
  rw [markedContractIds]
  cases hproperty : stringProperty properties contractIdMarkerKey with
  | none => rfl
  | some text =>
      rw [hproperty] at h
      cases h

/-- What a key holds does not depend on the order of the properties. -/
theorem lookup_perm {other : List (String × HostValue)} (hperm : properties.Perm other)
    (hnodup : (properties.map Prod.fst).Nodup) : lookup properties key = lookup other key := by
  have hnodup' : (other.map Prod.fst).Nodup := (hperm.map _).nodup_iff.mp hnodup
  have hsame : ∀ value, lookup properties key = some value ↔ lookup other key = some value := by
    have hmem : ∀ list : List (String × HostValue), (list.map Prod.fst).Nodup → ∀ value,
        lookup list key = some value ↔ (key, value) ∈ list := by
      intro list hlist value
      exact KeyedMap.get_eq_some (m := ⟨list, hlist⟩)
    intro value
    rw [hmem properties hnodup, hmem other hnodup', hperm.mem_iff]
  exact Option.ext hsame

theorem isMarked_perm {other : List (String × HostValue)} (hperm : properties.Perm other)
    (hnodup : (properties.map Prod.fst).Nodup) : isMarked properties = isMarked other := by
  unfold isMarked stringProperty
  rw [lookup_perm hperm hnodup]

theorem mem_marked_ownOrder (hnodup : (properties.map Prod.fst).Nodup)
    (hmarked : isMarked properties = false) :
    contractId ∈ markedContractIds (.object (ownOrder properties)) ↔
      contractId ∈ markedInProperties properties := by
  have hperm := perm_ownOrder properties
  have hmarked' : isMarked (ownOrder properties) = false :=
    (isMarked_perm hperm.symm hnodup).symm.trans hmarked
  rw [markedContractIds_object hmarked', mem_markedInProperties, mem_markedInProperties]
  simp only [hperm.mem_iff]

theorem mem_marked_fromEntries (hnodup : (entries.map Prod.fst).Nodup) (hmarked : isMarked entries = false) :
    contractId ∈ markedContractIds (.fromEntries entries) ↔ contractId ∈ markedInProperties entries := by
  rw [fromEntries, KeyedMap.entries_ofEntries hnodup]
  exact mem_marked_ownOrder hnodup hmarked

/-- A property that holds no contract ids, under a key that is not there and is not the marker, changes
nothing. -/
theorem mem_marked_withProperty {property : HostValue} (hnodup : (properties.map Prod.fst).Nodup)
    (hmarked : isMarked properties = false) (hfresh : key ∉ properties.map Prod.fst)
    (hkey : key ≠ contractIdMarkerKey) (hnone : markedContractIds property = []) :
    contractId ∈ markedContractIds (.withProperty properties key property) ↔
      contractId ∈ markedInProperties properties := by
  have hentries : ((KeyedMap.ofEntries properties).set key property).entries
      = properties ++ [(key, property)] := by
    rw [KeyedMap.entries_set_of_fresh, KeyedMap.entries_ofEntries hnodup]
    rw [KeyedMap.get_eq_none, KeyedMap.keys, KeyedMap.entries_ofEntries hnodup]
    exact hfresh
  have hnodup' : ((properties ++ [(key, property)]).map Prod.fst).Nodup := by
    rw [← hentries]
    exact KeyedMap.keys_nodup _
  have hmarked' : isMarked (properties ++ [(key, property)]) = false := by
    unfold isMarked stringProperty lookup at hmarked ⊢
    rw [List.find?_append]
    have hlast : ([(key, property)].find? fun property => decide (property.1 = contractIdMarkerKey)) = none := by
      simp [hkey]
    rw [hlast, Option.or_none]
    exact hmarked
  rw [withProperty, hentries, mem_marked_ownOrder hnodup' hmarked', mem_markedInProperties,
    mem_markedInProperties]
  constructor
  · intro h
    obtain ⟨other, hother, hid⟩ := h
    cases List.mem_append.mp hother with
    | inl hmem => exact ⟨other, hmem, hid⟩
    | inr hmem =>
        rw [List.mem_singleton.mp hmem, hnone] at hid
        cases hid
  · intro h
    obtain ⟨other, hother, hid⟩ := h
    exact ⟨other, List.mem_append_left _ hother, hid⟩

theorem isMarked_pair {first second : String} {left right : HostValue} (hfirst : first ≠ contractIdMarkerKey)
    (hsecond : second ≠ contractIdMarkerKey) : isMarked [(first, left), (second, right)] = false := by
  simp [isMarked, stringProperty, lookup, hfirst, hsecond]

theorem markedContractIds_recordIdValue (recordId : ReplayIdentifier) :
    markedContractIds (recordIdValue recordId) = [] := by
  obtain ⟨packageId, moduleName, entityName⟩ := recordId
  cases packageId <;> cases moduleName <;> cases entityName <;> rfl

theorem recordIdMarker_ne : recordIdMarkerKey ≠ contractIdMarkerKey := by decide

/-! ## Normalized values -/

theorem mem_marked_recordValue {recordId : Option ReplayIdentifier} (hnodup : (entries.map Prod.fst).Nodup)
    (hmarked : isMarked entries = false)
    (hfresh : recordId.isNone = true ∨ recordIdMarkerKey ∉ entries.map Prod.fst) :
    contractId ∈ markedContractIds (recordValue recordId entries) ↔
      contractId ∈ markedInProperties entries := by
  unfold recordValue
  rw [KeyedMap.entries_ofEntries hnodup]
  have hperm := perm_ownOrder entries
  cases recordId with
  | none => exact mem_marked_ownOrder hnodup hmarked
  | some recordId =>
      have hfresh' : recordIdMarkerKey ∉ (ownOrder entries).map Prod.fst := by
        rw [(hperm.map Prod.fst).mem_iff]
        exact hfresh.resolve_left nofun
      dsimp only
      rw [mem_marked_withProperty ((hperm.map Prod.fst).nodup_iff.mpr hnodup)
        ((isMarked_perm hperm.symm hnodup).symm.trans hmarked) hfresh' recordIdMarker_ne
        (markedContractIds_recordIdValue _), mem_markedInProperties, mem_markedInProperties]
      simp only [hperm.mem_iff]

theorem keys_normalizeEntries (entries : List (String × LedgerValue)) :
    (normalizeEntries entries).map Prod.fst = entries.map Prod.fst := by
  induction entries with
  | nil => rfl
  | cons first rest ih => rw [normalizeEntries, List.map_cons, List.map_cons, ih]

mutual

theorem mem_marked_normalize (value : LedgerValue) (hformed : value.isWellFormed = true)
    (hreadable : value.isReadable = true) :
    contractId ∈ markedContractIds (normalizeReplayLedgerValue value) ↔ contractId ∈ value.contractIds := by
  cases value with
  | unit | bool | int64 | date | timestamp | text | enum => exact Iff.rfl
  | numeric value => exact Iff.rfl
  | party value => exact Iff.rfl
  | contractId value => exact Iff.rfl
  | optional value =>
      cases value with
      | none => exact Iff.rfl
      | some value => exact mem_marked_normalize value hformed hreadable
  | list elements => exact mem_marked_elements elements hformed hreadable
  | textMap entries =>
      rw [LedgerValue.isWellFormed, Bool.and_eq_true] at hformed
      rw [LedgerValue.isReadable, Bool.and_eq_true, Bool.not_eq_true'] at hreadable
      have hnodup : ((normalizeEntries entries).map Prod.fst).Nodup := by
        rw [keys_normalizeEntries]
        exact of_decide_eq_true hformed.1
      exact (mem_marked_fromEntries hnodup hreadable.1).trans
        (mem_marked_entries entries hformed.2 hreadable.2)
  | genMap entries => exact mem_marked_pairs entries hformed hreadable
  | record recordId fields =>
      rw [LedgerValue.isWellFormed, Bool.and_eq_true] at hformed
      rw [LedgerValue.isReadable, Bool.and_eq_true, Bool.and_eq_true, Bool.not_eq_true',
        Bool.or_eq_true, Bool.not_eq_true'] at hreadable
      obtain ⟨⟨hmarked, hfresh⟩, hfields⟩ := hreadable
      have hfresh' : recordId.isNone = true ∨ recordIdMarkerKey ∉ (normalizeFields 0 fields).map Prod.fst :=
        hfresh.imp id fun h => by simpa [fieldKeys] using h
      exact (mem_marked_recordValue (of_decide_eq_true hformed.1) hmarked hfresh').trans
        (mem_marked_fields fields 0 hformed.2 hfields)
  | variant constructor_ value =>
      rw [normalizeReplayLedgerValue, markedContractIds_object (isMarked_pair (by decide) (by decide)),
        markedInProperties, markedInProperties, markedInProperties, List.append_nil]
      exact mem_marked_normalize value hformed hreadable

theorem mem_marked_elements (elements : List LedgerValue) (hformed : elementsWellFormed elements = true)
    (hreadable : elementsReadable elements = true) :
    contractId ∈ markedInItems (normalizeElements elements) ↔
      contractId ∈ contractIdsOfElements elements := by
  cases elements with
  | nil => exact Iff.rfl
  | cons element rest =>
      rw [elementsWellFormed, Bool.and_eq_true] at hformed
      rw [elementsReadable, Bool.and_eq_true] at hreadable
      rw [normalizeElements, markedInItems, contractIdsOfElements, List.mem_append, List.mem_append,
        mem_marked_normalize element hformed.1 hreadable.1, mem_marked_elements rest hformed.2 hreadable.2]

theorem mem_marked_entries (entries : List (String × LedgerValue)) (hformed : entriesWellFormed entries = true)
    (hreadable : entriesReadable entries = true) :
    contractId ∈ markedInProperties (normalizeEntries entries) ↔
      contractId ∈ contractIdsOfEntries entries := by
  match entries with
  | [] => exact Iff.rfl
  | (key, value) :: rest =>
      rw [entriesWellFormed, Bool.and_eq_true] at hformed
      rw [entriesReadable, Bool.and_eq_true] at hreadable
      rw [normalizeEntries, markedInProperties, contractIdsOfEntries, List.mem_append, List.mem_append,
        mem_marked_normalize value hformed.1 hreadable.1, mem_marked_entries rest hformed.2 hreadable.2]

theorem mem_marked_fields (fields : List (String × LedgerValue)) (index : Nat)
    (hformed : entriesWellFormed fields = true) (hreadable : entriesReadable fields = true) :
    contractId ∈ markedInProperties (normalizeFields index fields) ↔
      contractId ∈ contractIdsOfEntries fields := by
  match fields with
  | [] => exact Iff.rfl
  | (label, value) :: rest =>
      rw [entriesWellFormed, Bool.and_eq_true] at hformed
      rw [entriesReadable, Bool.and_eq_true] at hreadable
      rw [normalizeFields, markedInProperties, contractIdsOfEntries, List.mem_append, List.mem_append,
        mem_marked_normalize value hformed.1 hreadable.1,
        mem_marked_fields rest (index + 1) hformed.2 hreadable.2]

theorem mem_marked_pairs (pairs : List (LedgerValue × LedgerValue)) (hformed : pairsWellFormed pairs = true)
    (hreadable : pairsReadable pairs = true) :
    contractId ∈ markedInItems (normalizePairs pairs) ↔ contractId ∈ contractIdsOfPairs pairs := by
  match pairs with
  | [] => exact Iff.rfl
  | (key, value) :: rest =>
      rw [pairsWellFormed, Bool.and_eq_true, Bool.and_eq_true] at hformed
      rw [pairsReadable, Bool.and_eq_true, Bool.and_eq_true] at hreadable
      rw [normalizePairs, markedInItems, contractIdsOfPairs,
        markedContractIds_object (isMarked_pair (by decide) (by decide)),
        markedInProperties, markedInProperties, markedInProperties, List.append_nil]
      simp only [List.mem_append, mem_marked_normalize key hformed.1.1 hreadable.1.1,
        mem_marked_normalize value hformed.1.2 hreadable.1.2, mem_marked_pairs rest hformed.2 hreadable.2]

end

/-! ## Payloads -/

theorem keys_nodup_ownOrder (hnodup : (properties.map Prod.fst).Nodup) :
    ((ownOrder properties).map Prod.fst).Nodup :=
  ((perm_ownOrder properties).map Prod.fst).nodup_iff.mpr hnodup

theorem keys_nodup_withProperty {property : HostValue} {result : List (String × HostValue)}
    (h : withProperty properties key property = .object result) : (result.map Prod.fst).Nodup := by
  obtain rfl := HostValue.object.inj h
  exact keys_nodup_ownOrder (KeyedMap.keys_nodup _)

/-- The keys of a normalized object are distinct. -/
theorem keys_nodup_normalize : (value : LedgerValue) → (h : normalizeReplayLedgerValue value = .object properties) →
    (properties.map Prod.fst).Nodup
  | .numeric _, h | .party _, h | .contractId _, h => by
      obtain rfl := HostValue.object.inj h
      exact List.nodup_singleton _
  | .optional (some value), h => keys_nodup_normalize value h
  | .textMap entries, h => by
      obtain rfl := HostValue.object.inj h
      exact keys_nodup_ownOrder (KeyedMap.keys_nodup _)
  | .record none fields, h => by
      obtain rfl := HostValue.object.inj h
      exact keys_nodup_ownOrder (KeyedMap.keys_nodup _)
  | .record (some _) fields, h => keys_nodup_withProperty h
  | .variant _ _, h => by
      obtain rfl := HostValue.object.inj h
      change ["constructor", "value"].Nodup
      decide
  | .unit, h | .bool _, h | .int64 _, h | .date _, h | .timestamp _, h | .text _, h | .enum _, h
  | .optional none, h | .list _, h | .genMap _, h => nomatch h

theorem stringProperty_withProperty {property : HostValue} (hnodup : (properties.map Prod.fst).Nodup)
    (hkey : key ≠ contractIdMarkerKey) {result : List (String × HostValue)}
    (hresult : withProperty properties key property = .object result) :
    stringProperty result contractIdMarkerKey = stringProperty properties contractIdMarkerKey := by
  obtain rfl := HostValue.object.inj hresult
  have hperm := perm_ownOrder ((KeyedMap.ofEntries properties).set key property).entries
  unfold stringProperty
  rw [lookup_perm hperm (keys_nodup_ownOrder (KeyedMap.keys_nodup _))]
  have hget : lookup ((KeyedMap.ofEntries properties).set key property).entries contractIdMarkerKey
      = ((KeyedMap.ofEntries properties).set key property).get contractIdMarkerKey := rfl
  rw [hget, KeyedMap.get_set_ne (Ne.symm hkey), KeyedMap.get, KeyedMap.entries_ofEntries hnodup]
  rfl

/-- The marker for the type of a record adds no contract ids and hides none. -/
theorem mem_marked_attach {value : HostValue} (recordId : Option ReplayIdentifier)
    (hnodup : ∀ properties, value = .object properties → (properties.map Prod.fst).Nodup) :
    contractId ∈ markedContractIds (attachReplayRecordId value recordId) ↔
      contractId ∈ markedContractIds value := by
  unfold attachReplayRecordId
  split
  · rename_i properties recordId
    have hkeys := hnodup properties rfl
    split
    · exact Iff.rfl
    · rename_i habsent
      cases hmarked : isMarked properties with
      | false =>
          have hfresh : recordIdMarkerKey ∉ properties.map Prod.fst := by
            intro hmem
            obtain ⟨property, hproperty, hkey⟩ := List.mem_map.mp hmem
            apply habsent
            rw [lookup, Option.isSome_map, List.find?_isSome]
            exact ⟨property, hproperty, decide_eq_true hkey⟩
          rw [mem_marked_withProperty hkeys hmarked hfresh recordIdMarker_ne
            (markedContractIds_recordIdValue _), markedContractIds_object hmarked]
      | true =>
          obtain ⟨text, htext⟩ := Option.isSome_iff_exists.mp hmarked
          have hwith := @stringProperty_withProperty _ _ (recordIdValue recordId) hkeys
            recordIdMarker_ne _ rfl
          rw [withProperty, markedContractIds, markedContractIds, hwith, htext]
  · exact Iff.rfl

theorem mem_collect {value : HostValue} :
    contractId ∈ collectReplayLedgerContractIds value ↔ contractId ∈ markedContractIds value := by
  rw [collectReplayLedgerContractIds, mem_foldl_addPending]
  exact or_iff_left nofun

mutual

/-- No contract id in a well-formed value is empty. -/
theorem nonempty_of_wellFormed (value : LedgerValue) (hformed : value.isWellFormed = true)
    (hmem : contractId ∈ value.contractIds) : contractId.isEmpty = false := by
  cases value with
  | unit | bool | int64 | date | timestamp | numeric | party | text | enum => cases hmem
  | contractId value =>
      rw [List.mem_singleton.mp hmem]
      simpa [LedgerValue.isWellFormed] using hformed
  | optional value =>
      cases value with
      | none => cases hmem
      | some value => exact nonempty_of_wellFormed value hformed hmem
  | list elements => exact nonempty_of_elements elements hformed hmem
  | textMap entries =>
      rw [LedgerValue.isWellFormed, Bool.and_eq_true] at hformed
      exact nonempty_of_entries entries hformed.2 hmem
  | genMap entries => exact nonempty_of_pairs entries hformed hmem
  | record recordId fields =>
      rw [LedgerValue.isWellFormed, Bool.and_eq_true] at hformed
      exact nonempty_of_entries fields hformed.2 hmem
  | variant constructor_ value => exact nonempty_of_wellFormed value hformed hmem

theorem nonempty_of_elements (elements : List LedgerValue) (hformed : elementsWellFormed elements = true)
    (hmem : contractId ∈ contractIdsOfElements elements) : contractId.isEmpty = false := by
  cases elements with
  | nil => cases hmem
  | cons element rest =>
      rw [elementsWellFormed, Bool.and_eq_true] at hformed
      cases List.mem_append.mp hmem with
      | inl h => exact nonempty_of_wellFormed element hformed.1 h
      | inr h => exact nonempty_of_elements rest hformed.2 h

theorem nonempty_of_entries (entries : List (String × LedgerValue))
    (hformed : entriesWellFormed entries = true) (hmem : contractId ∈ contractIdsOfEntries entries) :
    contractId.isEmpty = false := by
  match entries with
  | (_, value) :: rest =>
      rw [entriesWellFormed, Bool.and_eq_true] at hformed
      cases List.mem_append.mp hmem with
      | inl h => exact nonempty_of_wellFormed value hformed.1 h
      | inr h => exact nonempty_of_entries rest hformed.2 h

theorem nonempty_of_pairs (pairs : List (LedgerValue × LedgerValue)) (hformed : pairsWellFormed pairs = true)
    (hmem : contractId ∈ contractIdsOfPairs pairs) : contractId.isEmpty = false := by
  match pairs with
  | (key, value) :: rest =>
      rw [pairsWellFormed, Bool.and_eq_true, Bool.and_eq_true] at hformed
      rw [contractIdsOfPairs, List.mem_append, List.mem_append] at hmem
      rcases hmem with (h | h) | h
      · exact nonempty_of_wellFormed key hformed.1.1 h
      · exact nonempty_of_wellFormed value hformed.1.2 h
      · exact nonempty_of_pairs rest hformed.2 h

end

end CantonSdk.Debugger
