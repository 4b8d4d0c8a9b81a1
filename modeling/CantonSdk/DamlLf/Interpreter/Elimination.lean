import CantonSdk.Base.HostMap
import CantonSdk.DamlLf.Interpreter.Inspection

/-!
# What is put in and what comes out

A record, a variant or a list is a value of the host that holds its components unwrapped, and `Some` is its component
itself. A projection or a binder hydrates what it finds there. It is the component again when unwrapping and hydrating
keep it; a component of `Some` must not be unit besides, and a record must be read as a record.
-/

set_option linter.all false

namespace CantonSdk.DamlLf.Interpreter

open CantonSdk.Base

variable {κ : Type}

/-- Unwrapped and hydrated, the value is the same. -/
def IsKept (value : RuntimeValue κ) : Prop := hydrateRuntimeValue (unwrapRuntimeValue value) none = value

/-! ## Kept values -/

section Kept

variable {text : String}

@[simp] theorem isKept_unit : IsKept (.unit : RuntimeValue κ) := rfl

@[simp] theorem isKept_boolean {value : Bool} : IsKept (.boolean value : RuntimeValue κ) := rfl

@[simp] theorem isKept_text : IsKept (.text text : RuntimeValue κ) := rfl

@[simp] theorem isKept_contractId : IsKept (.contractId text : RuntimeValue κ) := by
  simp [IsKept, unwrapRuntimeValue, hydrateRuntimeValue, readEmbeddedContractId, readMarker]

@[simp] theorem isKept_party : IsKept (.party text : RuntimeValue κ) := by
  have hcontractId : readEmbeddedContractId (κ := κ) (.object [(partyMarkerKey, .string text)]) = none := rfl
  have hparty : readEmbeddedParty (κ := κ) (.object [(partyMarkerKey, .string text)]) = some text := by
    simp [readEmbeddedParty, readMarker]
  simp [IsKept, unwrapRuntimeValue, hydrateRuntimeValue, readEmbeddedContractIdArray, hcontractId, hparty]

/-- Numbers come out as text. -/
@[simp] theorem not_isKept_int64 : ¬ IsKept (.int64 text : RuntimeValue κ) := fun h => nomatch h

@[simp] theorem not_isKept_numeric : ¬ IsKept (.numeric text : RuntimeValue κ) := fun h => nomatch h

/-- Functions come out as the name of their kind. -/
@[simp] theorem not_isKept_closure {function : κ} : ¬ IsKept (.closure function) := fun h => nomatch h

end Kept

/-! ## Lists -/

section Lists

/-- A contract id as the host holds it. -/
def contractIdObject (contractId : String) : Raw κ := .object [(contractIdMarkerKey, .string contractId)]

theorem readEmbeddedContractId_object (contractId : String) :
    readEmbeddedContractId (contractIdObject contractId : Raw κ) = some contractId := by
  simp [readEmbeddedContractId, contractIdObject, readMarker]

theorem mapM_readEmbeddedContractId (contractIds : List String) :
    (contractIds.map contractIdObject : List (Raw κ)).mapM readEmbeddedContractId = some contractIds := by
  induction contractIds with
  | nil => rfl
  | cons contractId rest ih => simp [readEmbeddedContractId_object, ih]

/-- What is read as a contract id is hydrated to it. -/
theorem hydrate_contractId {value : Raw κ} {contractId : String} (h : readEmbeddedContractId value = some contractId) :
    hydrateRuntimeValue value none = .contractId contractId := by
  cases value with
  | undefined => cases h
  | null => cases h
  | boolean value => cases h
  | string value => cases h
  | _ => rw [hydrateRuntimeValue, h] <;> simp

theorem hydrate_array (items : List (Raw κ)) :
    hydrateRuntimeValue (.array items) none
      = match readEmbeddedContractIdArray (.array items) with
        | some contractIds => .contractIds contractIds
        | none => .ledgerValue (.array items) none := by
  have hcontractId : readEmbeddedContractId (.array items : Raw κ) = none := rfl
  have hparty : readEmbeddedParty (.array items : Raw κ) = none := rfl
  rw [hydrateRuntimeValue, hcontractId]
  · dsimp only
    rw [hparty]
    rfl
  all_goals simp

theorem hydrate_items {items : List (Raw κ)} {contractIds : List String}
    (h : items.mapM readEmbeddedContractId = some contractIds) :
    items.map (hydrateRuntimeValue · none) = contractIds.map .contractId := by
  induction items generalizing contractIds with
  | nil =>
      cases h
      rfl
  | cons item rest ih =>
      simp only [List.mapM_cons, Option.bind_eq_bind, Option.bind_eq_some_iff, Option.pure_def, Option.some.injEq] at h
      obtain ⟨contractId, hitem, others, hrest, rfl⟩ := h
      rw [List.map_cons, List.map_cons, hydrate_contractId hitem, ih hrest]

theorem mapM_drop {items : List (Raw κ)} {contractIds : List String} (count : Nat)
    (h : items.mapM readEmbeddedContractId = some contractIds) :
    (items.drop count).mapM readEmbeddedContractId = some (contractIds.drop count) := by
  induction count generalizing items contractIds with
  | zero => exact h
  | succ count ih =>
      cases items with
      | nil =>
          cases h
          rfl
      | cons item rest =>
          simp only [List.mapM_cons, Option.bind_eq_bind, Option.bind_eq_some_iff, Option.pure_def, Option.some.injEq] at h
          obtain ⟨contractId, -, others, hrest, rfl⟩ := h
          exact ih hrest

/-- Lists of the same contract ids are hydrated to the same value. -/
theorem hydrate_array_congr {items others : List (Raw κ)} {contractIds : List String}
    (hitems : items.mapM readEmbeddedContractId = some contractIds)
    (hothers : others.mapM readEmbeddedContractId = some contractIds) :
    hydrateRuntimeValue (.array items) none = hydrateRuntimeValue (.array others) none := by
  have hempty : ∀ {list : List (Raw κ)}, list.mapM readEmbeddedContractId = some contractIds → list.length = contractIds.length := by
    intro list h
    simpa using congrArg List.length (hydrate_items h)
  rw [hydrate_array, hydrate_array, readEmbeddedContractIdArray, readEmbeddedContractIdArray, hitems, hothers]
  cases contractIds with
  | nil =>
      rw [List.length_eq_zero_iff.mp (hempty hitems), List.length_eq_zero_iff.mp (hempty hothers)]
  | cons contractId rest =>
      have hlength := hempty hitems
      have hlength' := hempty hothers
      cases items <;> cases others <;> simp_all

/-- A list of the host, hydrated and unwrapped: its contract ids are written in one way. -/
theorem unwrap_hydrate_array (items : List (Raw κ)) :
    ∃ written, unwrapRuntimeValue (hydrateRuntimeValue (.array items) none) = .array written ∧
      written.map (hydrateRuntimeValue · none) = items.map (hydrateRuntimeValue · none) ∧
      ∀ count, hydrateRuntimeValue (.array (written.drop count)) none = hydrateRuntimeValue (.array (items.drop count)) none := by
  rw [hydrate_array]
  cases hread : readEmbeddedContractIdArray (.array items) with
  | none => exact ⟨items, rfl, rfl, fun _ => rfl⟩
  | some contractIds =>
      have hitems : items.mapM readEmbeddedContractId = some contractIds := by
        rw [readEmbeddedContractIdArray] at hread
        split at hread
        · cases hread
        · exact hread
      have hwritten := mapM_readEmbeddedContractId (κ := κ) contractIds
      refine ⟨contractIds.map contractIdObject, rfl, ?_, fun count => ?_⟩
      · rw [hydrate_items hitems, hydrate_items hwritten]
      · exact hydrate_array_congr (mapM_drop count hwritten) (mapM_drop count hitems)

end Lists

/-! ## Records -/

section Records

variable {fields : List (String × RuntimeValue κ)} {name : String}

theorem unwrapRecordFields_eq (fields : List (String × RuntimeValue κ)) :
    unwrapRecordFields fields = fields.map fun field => (field.1, unwrapRuntimeValue field.2) := by
  induction fields with
  | nil => rfl
  | cons field rest ih => rw [unwrapRecordFields, ih, List.map_cons]

theorem lookup_map {α β : Type} (f : α → β) (entries : List (String × α)) :
    (entries.map fun entry => (entry.1, f entry.2)).lookup name = (entries.lookup name).map f := by
  induction entries with
  | nil => rfl
  | cons entry rest ih =>
      rw [List.map_cons, List.lookup_cons, List.lookup_cons, ih]
      cases name == entry.1 <;> rfl

theorem lookup_assigned {α : Type} {entries : List (String × α)} (hnodup : (entries.map Prod.fst).Nodup) :
    (assigned entries).lookup name = entries.lookup name := by
  rw [assigned, lookup_ownOrder]
  refine Option.ext fun value => ?_
  rw [KeyedMap.get_eq_some, KeyedMap.entries_ofEntries hnodup, lookup_iff_mem _ _ hnodup]

theorem nodup_assigned {α : Type} (entries : List (String × α)) : ((assigned entries).map Prod.fst).Nodup :=
  nodup_ownOrder (KeyedMap.ofEntries entries).keys_nodup

/-- The object that a record without functions is, before it is hydrated. -/
def recordProperties (fields : List (String × RuntimeValue κ)) : List (String × Raw κ) := assigned (unwrapRecordFields fields)

theorem lookup_recordProperties (hnodup : (fields.map Prod.fst).Nodup) :
    (recordProperties fields).lookup name = (fields.lookup name).map unwrapRuntimeValue := by
  rw [recordProperties, unwrapRecordFields_eq, lookup_assigned, lookup_map]
  rwa [List.map_map]

/-- The keys by which the evaluator takes an object for something else than a record, or for a record with a type. -/
def reservedNames : List String :=
  [contractIdMarkerKey, "sum", partyMarkerKey, "__damlLfInt64", numericMarkerKey, recordIdMarkerKey]

/-- What is left of a record without functions once it has been hydrated; there may be no object. -/
def readableProperties (fields : List (String × RuntimeValue κ)) : Option (List (String × Raw κ)) :=
  (unwrapRuntimeValue (hydrateRuntimeValue (.object (recordProperties fields)) none)).properties?

variable (getRecordFields : TypeConReference → Option (List DamlLfField))

/-- If the record is turned into an object, each of its fields is read from there as the value that it has. -/
def RecordKeeps (fields : List (String × RuntimeValue κ)) : Prop :=
  canProjectRecordAsLedgerValue fields = true → ∀ name value, fields.lookup name = some value →
    ∃ properties, readableProperties fields = some properties ∧
      hydrateRuntimeValue (readLedgerRecordField getRecordFields properties name) none = value

theorem hydrate_object_kind (properties : List (String × Raw κ)) :
    ∀ fields, hydrateRuntimeValue (.object properties) none ≠ .record fields := by
  intro fields h
  rw [hydrateRuntimeValue] at h
  · split at h
    · cases h
    · split at h
      · cases h
      · split at h
        · cases h
        · split at h
          · cases h
          · split at h <;> cases h
  all_goals simp

theorem projectField_of_properties {value : RuntimeValue κ} (hkind : ∀ fields, value ≠ .record fields) :
    projectField getRecordFields value name
      = match (unwrapRuntimeValue value).properties? with
        | some properties => .ok (hydrateRuntimeValue (readLedgerRecordField getRecordFields properties name) none)
        | none => .error (.validation s!"daml lf record projection requires an object value for field '{name}'") := by
  cases value with
  | record fields => exact absurd rfl (hkind fields)
  | _ => rfl

/-- Every projection gives the value of its field exactly when the record keeps its fields. -/
theorem projectField_iff :
    (∀ name value, fields.lookup name = some value →
      projectField getRecordFields (createRecordRuntimeValue fields) name = .ok value) ↔ RecordKeeps getRecordFields fields := by
  rw [createRecordRuntimeValue, RecordKeeps]
  split_ifs with hproject
  · rw [forall_prop_of_true hproject]
    refine forall_congr' fun name => forall_congr' fun value => forall_congr' fun hlookup => ?_
    rw [projectField_of_properties getRecordFields (hydrate_object_kind _), readableProperties, recordProperties]
    cases (unwrapRuntimeValue (hydrateRuntimeValue (.object (assigned (unwrapRecordFields fields))) none)).properties? with
    | none => simp
    | some properties => simp
  · refine iff_of_true (fun name value hlookup => ?_) fun h => absurd h hproject
    rw [projectField, hlookup]

/-! ### Records without reserved names -/

section Plain

variable (hnodup : (fields.map Prod.fst).Nodup) (hplain : ∀ name ∈ fields.map Prod.fst, name ∉ reservedNames)

include hnodup hplain

theorem lookup_reserved {reserved : String} (hreserved : reserved ∈ reservedNames) :
    (recordProperties fields).lookup reserved = none := by
  rw [lookup_recordProperties hnodup, Option.map_eq_none_iff, List.lookup_eq_none_iff]
  intro field hfield
  rw [bne_iff_ne]
  rintro rfl
  exact hplain _ (List.mem_map_of_mem hfield) hreserved

theorem readMarker_reserved {reserved : String} (hreserved : reserved ∈ reservedNames) :
    readMarker reserved (.object (recordProperties fields)) = none := by
  rw [readMarker, lookup_reserved hnodup hplain hreserved]

theorem readSum_plain (oneofKind : String) : readSum oneofKind (.object (recordProperties fields)) = none := by
  have hsum : "sum" ∈ reservedNames := by simp [reservedNames]
  rw [readSum, lookup_reserved hnodup hplain hsum]

theorem readableProperties_plain : readableProperties fields = some (recordProperties fields) := by
  have hread := fun reserved => @readMarker_reserved _ fields hnodup hplain reserved
  have hcontractId : readEmbeddedContractId (.object (recordProperties fields)) = none := by
    rw [readEmbeddedContractId, readSum_plain hnodup hplain, hread _ (by simp [reservedNames])]
    rfl
  have hparty : readEmbeddedParty (.object (recordProperties fields)) = none := by
    rw [readEmbeddedParty, readSum_plain hnodup hplain, hread _ (by simp [reservedNames])]
    rfl
  rw [readableProperties, hydrateRuntimeValue, hcontractId]
  · dsimp only
    rw [hparty, hread "__damlLfInt64" (by simp [reservedNames]), hread numericMarkerKey (by simp [reservedNames])]
    rfl
  all_goals simp

theorem readLedgerRecordField_plain {value : RuntimeValue κ} (hlookup : fields.lookup name = some value) :
    readLedgerRecordField getRecordFields (recordProperties fields) name = unwrapRuntimeValue value := by
  have hvalue : (recordProperties fields).lookup name = some (unwrapRuntimeValue value) := by
    rw [lookup_recordProperties hnodup, hlookup]
    rfl
  have hid : readProperty (recordProperties fields) recordIdMarkerKey = .undefined := by
    rw [readProperty, lookup_reserved hnodup hplain (by simp [reservedNames])]
    exact if_neg (by decide)
  have hresolve : resolveSemanticRecordField getRecordFields (recordProperties fields) name = none := by
    rw [resolveSemanticRecordField, hid]
    rfl
  rw [readLedgerRecordField, hresolve]
  dsimp only
  rw [hasProperty, hvalue, readProperty, hvalue]
  rfl

/-- A record without reserved names keeps its fields if it has a function in it, or if its fields are kept. -/
theorem recordKeeps_iff : RecordKeeps getRecordFields fields ↔
    (canProjectRecordAsLedgerValue fields = true → ∀ name value, fields.lookup name = some value → IsKept value) := by
  refine imp_congr_right fun _ => forall_congr' fun name => forall_congr' fun value => ?_
  refine imp_congr_right fun hlookup => ?_
  rw [readableProperties_plain hnodup hplain, IsKept]
  constructor
  · rintro ⟨properties, hproperties, hread⟩
    cases hproperties
    rwa [readLedgerRecordField_plain getRecordFields hnodup hplain hlookup] at hread
  · intro hkept
    exact ⟨_, rfl, by rwa [readLedgerRecordField_plain getRecordFields hnodup hplain hlookup]⟩

end Plain

end Records

end CantonSdk.DamlLf.Interpreter
