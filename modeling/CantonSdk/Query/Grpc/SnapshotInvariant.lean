import CantonSdk.Query.Grpc.DeltaConsistency
import CantonSdk.Query.Grpc.StoredSnapshot

/-!
# Snapshots that are accepted

A snapshot that is written is read back as it was, until it expires. A value of the store that is accepted satisfies the
invariant of a snapshot if and only if each of its metadata entries has a row.
-/

set_option linter.all false

namespace CantonSdk.Query.Grpc

open CantonSdk.Base CantonSdk.Query.Canonical StoreValue

/-! ### Copies -/

mutual

/-- A clone is its own clone. -/
theorem structuredClone_clone {value copy : StoreValue} (h : structuredClone value = some copy) :
    structuredClone copy = some copy := by
  match value with
  | .undefined | .null | .bool _ | .number _ | .bigint _ | .string _ =>
      obtain rfl := Option.some.inj h
      rfl
  | .callable | .raises => cases h
  | .array proxied items properties =>
      rw [structuredClone] at h
      split at h
      · cases h
      · obtain ⟨others, hitems, h⟩ := Option.bind_eq_some_iff.mp h
        obtain ⟨entries, hproperties, h⟩ := Option.bind_eq_some_iff.mp h
        obtain rfl := Option.some.inj h
        simp [structuredClone, cloneItems_clone hitems, cloneProperties_clone hproperties]
  | .object shape properties =>
      cases shape with
      | plain =>
          obtain ⟨entries, hproperties, h⟩ := Option.bind_eq_some_iff.mp h
          obtain rfl := Option.some.inj h
          simp [structuredClone, cloneProperties_clone hproperties]
      | collection =>
          obtain ⟨entries, hproperties, h⟩ := Option.bind_eq_some_iff.mp h
          obtain rfl := Option.some.inj h
          simp [structuredClone, cloneProperties_clone hproperties]
      | date time =>
          obtain rfl := Option.some.inj h
          rfl
      | bytes content =>
          obtain rfl := Option.some.inj h
          rfl
      | sharedMemory => cases h
      | uncloneable => cases h

theorem cloneItems_clone {items copies : List StoreValue} (h : StoreValue.cloneItems items = some copies) :
    StoreValue.cloneItems copies = some copies := by
  match items with
  | [] =>
      obtain rfl := Option.some.inj h
      rfl
  | item :: rest =>
      obtain ⟨copy, hitem, h⟩ := Option.bind_eq_some_iff.mp h
      obtain ⟨others, hrest, h⟩ := Option.bind_eq_some_iff.mp h
      obtain rfl := Option.some.inj h
      simp [StoreValue.cloneItems, structuredClone_clone hitem, cloneItems_clone hrest]

theorem cloneProperties_clone {properties copies : List (String × StoreValue)}
    (h : cloneProperties properties = some copies) : cloneProperties copies = some copies := by
  match properties with
  | [] =>
      obtain rfl := Option.some.inj h
      rfl
  | (key, value) :: rest =>
      obtain ⟨copy, hvalue, h⟩ := Option.bind_eq_some_iff.mp h
      obtain ⟨others, hrest, h⟩ := Option.bind_eq_some_iff.mp h
      obtain rfl := Option.some.inj h
      simp [cloneProperties, structuredClone_clone hvalue, cloneProperties_clone hrest]

end

theorem copyValue_eq {value : StoreValue} (h : value ≠ .callable) : copyValue value = structuredClone value := by
  cases value <;> first | rfl | exact absurd rfl h

theorem copyValue_copy {value copy : StoreValue} (h : copyValue value = some copy) : copyValue copy = some copy := by
  by_cases hcallable : value = .callable
  · subst hcallable
    obtain rfl := Option.some.inj h
    rfl
  · rw [copyValue_eq hcallable] at h
    have hcopy := structuredClone_clone h
    by_cases hcallable' : copy = .callable
    · rw [hcallable'] at hcopy
      cases hcopy
    · rw [copyValue_eq hcallable', hcopy]

mutual

/-- What the mapper makes of a payload can be cloned. -/
theorem structuredClone_ofQueryValue (value : QueryValue) :
    structuredClone (ofQueryValue value) = some (ofQueryValue value) := by
  match value with
  | .null | .bool _ | .number _ | .text _ | .date _ | .invalidDate | .bytes _ => rfl
  | .array items => simp [ofQueryValue, structuredClone, cloneItems_ofQueryItems items, cloneProperties]
  | .object fields => simp [ofQueryValue, structuredClone, cloneProperties_ofQueryFields fields]

theorem cloneItems_ofQueryItems (items : List QueryValue) :
    StoreValue.cloneItems (ofQueryItems items) = some (ofQueryItems items) := by
  match items with
  | [] => rfl
  | item :: rest => simp [ofQueryItems, StoreValue.cloneItems, structuredClone_ofQueryValue item, cloneItems_ofQueryItems rest]

theorem cloneProperties_ofQueryFields (fields : List (String × QueryValue)) :
    cloneProperties (ofQueryFields fields) = some (ofQueryFields fields) := by
  match fields with
  | [] => rfl
  | (key, value) :: rest =>
      simp [ofQueryFields, cloneProperties, structuredClone_ofQueryValue value, cloneProperties_ofQueryFields rest]

end

theorem copyValue_ofQueryValue (value : QueryValue) : copyValue (ofQueryValue value) = some (ofQueryValue value) := by
  rw [copyValue_eq, structuredClone_ofQueryValue]
  cases value <;> simp [ofQueryValue]

/-- A whole number of milliseconds that is a date is the time of that date. -/
theorem dateOf_intCast {milliseconds time : Int} (h : dateOf milliseconds = some time) : time = milliseconds := by
  rw [dateOf] at h
  split_ifs at h
  rw [← Option.some.inj h]
  simp

theorem dateOf_cast {milliseconds : Int} (hleast : -8640000000000000 ≤ milliseconds)
    (hmost : milliseconds ≤ 8640000000000000) : dateOf milliseconds = some milliseconds := by
  rw [dateOf, if_pos ⟨by exact_mod_cast hleast, by exact_mod_cast hmost⟩]
  simp

/-! ### Reading what was written -/

/-- A row that is read as it is written: its payload is its own copy, its date is one, and it is active. -/
structure StoredRow.Reads (row : StoredRow) : Prop where
  payload : copyValue row.payload = some row.payload
  createdAt : ∀ milliseconds ∈ row.createdAt, dateOf milliseconds = some milliseconds
  archivedEventOffset : row.archivedEventOffset = none
  archivedAt : row.archivedAt = none
  active : row.active = true

theorem found_of_copy {value copy : StoreValue} (h : copyValue value = some copy) : value.found = some value := by
  cases value <;> first | rfl | cases h

theorem asNullableString_storedString (text : Option String) : asNullableString (storedString text) = some text := by
  cases text <;> rfl

theorem found_storedString (text : Option String) : (storedString text).found = some (storedString text) := by
  cases text <;> rfl

theorem found_storedDate (time : Option Int) : (storedDate time).found = some (storedDate time) := by
  cases time <;> rfl

/-- An array whose entries are read as they were written is read as it was written. -/
theorem materializeIndexedValues_map {α : Type} {encode : α → StoreValue} {materialize : StoreValue → Option α}
    {entries : List α} (h : ∀ entry ∈ entries, (encode entry).found.bind materialize = some entry) :
    materializeIndexedValues (.array false (entries.map encode) []) materialize = some entries := by
  rw [materializeIndexedValues]
  induction entries with
  | nil => rfl
  | cons entry rest ih =>
      rw [List.forall_mem_cons] at h
      rw [List.map_cons, List.mapM_cons, h.1, ih h.2]
      rfl

theorem materializeStringArray_stringArray (texts : List String) :
    materializeStringArray (stringArray texts) = some texts :=
  materializeIndexedValues_map fun _ _ => rfl

theorem materializeOptionalDate_storedDate {time : Option Int}
    (h : ∀ milliseconds ∈ time, dateOf milliseconds = some milliseconds) :
    materializeOptionalDate (storedDate time) = some time := by
  cases time with
  | none => rfl
  | some milliseconds =>
      have htime := h milliseconds rfl
      simp [storedDate, materializeOptionalDate, htime]

theorem materializeTemplateId_value (template : Identifier) :
    materializeTemplateId (.object .plain [
      ("packageId", .string template.packageId),
      ("moduleName", .string template.moduleName),
      ("entityName", .string template.entityName)]) = some template := rfl

theorem materializeContractRow_value {row : StoredRow} (h : row.Reads) : materializeContractRow row.value = some row := by
  have hpayload : row.value.get "payload" = some row.payload := found_of_copy h.payload
  have hpackage : row.value.get "packageId" = some (storedString row.packageId) := found_storedString row.packageId
  have hcreated : row.value.get "createdAt" = some (storedDate row.createdAt) := found_storedDate row.createdAt
  have hoffset : row.value.get "archivedEventOffset" = some .null := by
    rw [show row.value.get "archivedEventOffset" = (storedString row.archivedEventOffset).found from rfl,
      h.archivedEventOffset]
    rfl
  have harchived : row.value.get "archivedAt" = some .null := by
    rw [show row.value.get "archivedAt" = (storedDate row.archivedAt).found from rfl, h.archivedAt]
    rfl
  have hactive : row.value.get "active" = some (.bool true) := by
    rw [show row.value.get "active" = some (.bool row.active) from rfl, h.active]
  have hdate := materializeOptionalDate_storedDate h.createdAt
  rw [materializeContractRow, hpayload, hpackage, hcreated, hoffset, harchived, hactive,
    show row.value.get "contractId" = some (.string row.contractId) from rfl,
    show row.value.get "createdEventOffset" = some (.string row.createdEventOffset) from rfl,
    show row.value.get "witnesses" = some (stringArray row.witnesses) from rfl,
    show row.value.get "templateId" = some (.object .plain [
      ("packageId", .string row.templateId.packageId),
      ("moduleName", .string row.templateId.moduleName),
      ("entityName", .string row.templateId.entityName)]) from rfl]
  simp only [Option.bind_eq_bind, Option.bind_some, asString, materializeTemplateId_value, asNullableString_storedString,
    h.payload, materializeStringArray_stringArray, hdate, isNull, StoreValue.isTrue, guard_true, Option.pure_def]
  rw [← h.archivedEventOffset, ← h.archivedAt, ← h.active]

theorem materializeCreationMetadataEntry_value {entry : GrpcCachedCreationMetadata}
    (h : entry.packageName.isEmpty = false) : materializeCreationMetadataEntry entry.value = some entry := by
  have hrepresentative : entry.value.get "representativePackageId" = some (storedString entry.representativePackageId) :=
    found_storedString entry.representativePackageId
  rw [materializeCreationMetadataEntry, hrepresentative,
    show entry.value.get "contractId" = some (.string entry.contractId) from rfl,
    show entry.value.get "packageName" = some (.string entry.packageName) from rfl]
  simp only [Option.bind_eq_bind, Option.bind_some, asString, asNullableString_storedString, h, Bool.not_false,
    guard_true, Option.pure_def]

/-- A snapshot that is read as it is written. -/
structure MaterializedSnapshot.Reads (snapshot : MaterializedSnapshot) : Prop where
  contracts : ∀ row ∈ snapshot.contracts, row.Reads
  packageNames : ∀ entry ∈ snapshot.creationMetadata, entry.packageName.isEmpty = false
  coherent : coherent snapshot.creationMetadata snapshot.contracts = true
  offset : (parseOffset snapshot.activeAtOffset).isSome = true
  expiry : (dateOf snapshot.expiresAtEpochMs).isSome = true

theorem asEpoch_number {value : ℚ} (h : (dateOf value).isSome = true) : asEpoch (.number (some value)) = some value := by
  rw [asEpoch, if_pos h]

theorem materializeParties_value (snapshot : MaterializedSnapshot) :
    ∃ rawParties, snapshot.value.get "parties" = some rawParties
      ∧ materializeParties rawParties = some snapshot.parties := by
  obtain ⟨endpointScope, parties, activeAtOffset, expiresAtEpochMs, contracts, creationMetadata⟩ := snapshot
  cases parties with
  | none => exact ⟨.undefined, rfl, rfl⟩
  | some parties =>
      refine ⟨stringArray parties, rfl, ?_⟩
      change (materializeStringArray (stringArray parties)).map some = some (some parties)
      rw [materializeStringArray_stringArray]
      rfl

/-- Until it expires, what is written for a scope is read for that scope. -/
theorem MaterializedSnapshot.Reads.accepted {snapshot : MaterializedSnapshot} (h : snapshot.Reads) {now : StoreValue}
    {nowEpochMs : ℚ} (hnow : asEpoch now = some nowEpochMs) (hbefore : nowEpochMs < snapshot.expiresAtEpochMs) :
    asCompatibleSnapshot snapshot.value snapshot.endpointScope snapshot.parties now false = some snapshot := by
  obtain ⟨rawParties, hget, hread⟩ := materializeParties_value snapshot
  have hcontracts : materializeContractRows (.array false (snapshot.contracts.map StoredRow.value) [])
      = some snapshot.contracts :=
    materializeIndexedValues_map fun row hrow => materializeContractRow_value (h.contracts row hrow)
  have hmetadata : materializeCreationMetadata
      (.array false (snapshot.creationMetadata.map GrpcCachedCreationMetadata.value) []) snapshot.contracts
        = some snapshot.creationMetadata := by
    have hentries : materializeIndexedValues
        (.array false (snapshot.creationMetadata.map GrpcCachedCreationMetadata.value) [])
        materializeCreationMetadataEntry = some snapshot.creationMetadata :=
      materializeIndexedValues_map fun entry hentry =>
        materializeCreationMetadataEntry_value (h.packageNames entry hentry)
    rw [materializeCreationMetadata, hentries]
    simp only [Option.bind_eq_bind, Option.bind_some, h.coherent, guard_true, Option.pure_def]
  rw [asCompatibleSnapshot, hget,
    show snapshot.value.get "version" = some (.number (some 3)) from rfl,
    show snapshot.value.get "endpointScope" = some (.string snapshot.endpointScope) from rfl,
    show snapshot.value.get "activeAtOffset" = some (.string snapshot.activeAtOffset) from rfl,
    show snapshot.value.get "expiresAtEpochMs" = some (.number (some snapshot.expiresAtEpochMs)) from rfl,
    show snapshot.value.get "contracts" = some (.array false (snapshot.contracts.map StoredRow.value) []) from rfl,
    show snapshot.value.get "creationMetadata"
      = some (.array false (snapshot.creationMetadata.map GrpcCachedCreationMetadata.value) []) from rfl]
  simp only [Option.bind_eq_bind, Option.bind_some, asString, hread, asEpoch_number h.expiry, hcontracts, hmetadata, hnow,
    isVersion3, decide_true, h.offset, hbefore, Bool.or_true, guard_true, Option.pure_def]

/-! ### What is accepted -/

theorem guarded {p : Prop} [Decidable p] {α : Type} {next : Unit → Option α} {result : α}
    (h : (guard p : Option Unit) >>= next = some result) : p ∧ next () = some result := by
  by_cases hp : p
  · exact ⟨hp, by simpa [guard, hp] using h⟩
  · simp [guard, hp] at h

def contractIdOf (item : StoreValue) : Option String := (item.get "contractId").bind asString

/-- The contract ids that stand in the entries of an array under a key. -/
def idsAt (value : StoreValue) (key : String) : List String :=
  match value.get key with
  | some (.array _ items _) => items.filterMap contractIdOf
  | _ => []

theorem idsAt_eq {α : Type} {value list : StoreValue} {key : String} {materialize : StoreValue → Option α}
    {idOf : α → String} {entries : List α} (hget : value.get key = some list)
    (hread : materializeIndexedValues list materialize = some entries)
    (hid : ∀ item entry, materialize item = some entry → contractIdOf item = some (idOf entry)) :
    idsAt value key = entries.map idOf := by
  rw [idsAt, hget]
  unfold materializeIndexedValues at hread
  split at hread
  · rename_i items properties
    dsimp only
    clear hget
    induction items generalizing entries with
    | nil =>
        obtain rfl := Option.some.inj hread
        rfl
    | cons item rest ih =>
        rw [List.mapM_cons] at hread
        obtain ⟨entry, hentry, hread⟩ := Option.bind_eq_some_iff.mp hread
        obtain ⟨others, hothers, hread⟩ := Option.bind_eq_some_iff.mp hread
        obtain rfl := Option.some.inj hread
        obtain ⟨found, hfound, hentry⟩ := Option.bind_eq_some_iff.mp hentry
        have hsame : found = item := by
          cases item <;> first | (cases hfound; rfl) | cases hfound
        rw [hsame] at hentry
        rw [List.filterMap_cons_some (hid item entry hentry), ih hothers, List.map_cons]
  · cases hread

theorem materializeContractRow_some {value : StoreValue} {row : StoredRow} (h : materializeContractRow value = some row) :
    row.Reads ∧ contractIdOf value = some row.contractId := by
  obtain ⟨idValue, hget, h⟩ := Option.bind_eq_some_iff.mp h
  obtain ⟨contractId, hcontractId, h⟩ := Option.bind_eq_some_iff.mp h
  obtain ⟨_, -, h⟩ := Option.bind_eq_some_iff.mp h
  obtain ⟨templateId, -, h⟩ := Option.bind_eq_some_iff.mp h
  obtain ⟨_, -, h⟩ := Option.bind_eq_some_iff.mp h
  obtain ⟨packageId, -, h⟩ := Option.bind_eq_some_iff.mp h
  obtain ⟨_, -, h⟩ := Option.bind_eq_some_iff.mp h
  obtain ⟨payload, hpayload, h⟩ := Option.bind_eq_some_iff.mp h
  obtain ⟨_, -, h⟩ := Option.bind_eq_some_iff.mp h
  obtain ⟨witnesses, -, h⟩ := Option.bind_eq_some_iff.mp h
  obtain ⟨_, -, h⟩ := Option.bind_eq_some_iff.mp h
  obtain ⟨createdEventOffset, -, h⟩ := Option.bind_eq_some_iff.mp h
  obtain ⟨dateValue, -, h⟩ := Option.bind_eq_some_iff.mp h
  obtain ⟨createdAt, hcreated, h⟩ := Option.bind_eq_some_iff.mp h
  obtain ⟨_, -, h⟩ := Option.bind_eq_some_iff.mp h
  obtain ⟨-, h⟩ := guarded h
  obtain ⟨_, -, h⟩ := Option.bind_eq_some_iff.mp h
  obtain ⟨-, h⟩ := guarded h
  obtain ⟨_, -, h⟩ := Option.bind_eq_some_iff.mp h
  obtain ⟨-, h⟩ := guarded h
  obtain rfl := Option.some.inj h
  refine ⟨⟨copyValue_copy hpayload, fun milliseconds hmilliseconds => ?_, rfl, rfl, rfl⟩, by rw [contractIdOf, hget]; exact hcontractId⟩
  dsimp only at hmilliseconds
  rw [Option.mem_def] at hmilliseconds
  subst hmilliseconds
  rw [materializeOptionalDate.eq_def] at hcreated
  split at hcreated
  · cases hcreated
  · obtain ⟨time, htime, hsome⟩ := Option.map_eq_some_iff.mp hcreated
    obtain rfl := Option.some.inj hsome
    rw [← dateOf_intCast htime] at htime
    exact htime
  · cases hcreated

theorem materializeCreationMetadataEntry_some {value : StoreValue} {entry : GrpcCachedCreationMetadata}
    (h : materializeCreationMetadataEntry value = some entry) :
    entry.packageName.isEmpty = false ∧ contractIdOf value = some entry.contractId := by
  obtain ⟨idValue, hget, h⟩ := Option.bind_eq_some_iff.mp h
  obtain ⟨contractId, hcontractId, h⟩ := Option.bind_eq_some_iff.mp h
  obtain ⟨_, -, h⟩ := Option.bind_eq_some_iff.mp h
  obtain ⟨packageName, -, h⟩ := Option.bind_eq_some_iff.mp h
  obtain ⟨_, -, h⟩ := Option.bind_eq_some_iff.mp h
  obtain ⟨representativePackageId, -, h⟩ := Option.bind_eq_some_iff.mp h
  obtain ⟨hname, h⟩ := guarded h
  obtain rfl := Option.some.inj h
  exact ⟨by simpa using hname, by rw [contractIdOf, hget]; exact hcontractId⟩

theorem forall_of_materialized {α : Type} {list : StoreValue} {materialize : StoreValue → Option α} {entries : List α}
    {good : α → Prop} (h : materializeIndexedValues list materialize = some entries)
    (hgood : ∀ item entry, materialize item = some entry → good entry) : ∀ entry ∈ entries, good entry := by
  unfold materializeIndexedValues at h
  split at h
  · rename_i items properties
    induction items generalizing entries with
    | nil =>
        obtain rfl := Option.some.inj h
        simp
    | cons item rest ih =>
        rw [List.mapM_cons] at h
        obtain ⟨entry, hentry, h⟩ := Option.bind_eq_some_iff.mp h
        obtain ⟨others, hothers, h⟩ := Option.bind_eq_some_iff.mp h
        obtain rfl := Option.some.inj h
        obtain ⟨found, -, hentry⟩ := Option.bind_eq_some_iff.mp hentry
        exact List.forall_mem_cons.mpr ⟨hgood found entry hentry, ih hothers⟩
  · cases h

/-- What is known of a snapshot that was read from a value. -/
structure Accepts (value : StoreValue) (endpointScope : String) (parties : Option (List String)) (now : StoreValue)
    (ignoreExpiry : Bool) (snapshot : MaterializedSnapshot) : Prop where
  scope : snapshot.endpointScope = endpointScope
  parties : snapshot.parties = parties
  reads : snapshot.Reads
  unexpired : ignoreExpiry = false → ∃ nowEpochMs, asEpoch now = some nowEpochMs ∧ nowEpochMs < snapshot.expiresAtEpochMs
  contractIds : idsAt value "contracts" = snapshot.contracts.map StoredRow.contractId
  metadataIds : idsAt value "creationMetadata" = snapshot.creationMetadata.map GrpcCachedCreationMetadata.contractId

theorem accepts_of_some {value : StoreValue} {endpointScope : String} {parties : Option (List String)} {now : StoreValue}
    {ignoreExpiry : Bool} {snapshot : MaterializedSnapshot}
    (h : asCompatibleSnapshot value endpointScope parties now ignoreExpiry = some snapshot) :
    Accepts value endpointScope parties now ignoreExpiry snapshot := by
  obtain ⟨version, -, h⟩ := Option.bind_eq_some_iff.mp h
  obtain ⟨_, -, h⟩ := Option.bind_eq_some_iff.mp h
  obtain ⟨storedEndpointScope, -, h⟩ := Option.bind_eq_some_iff.mp h
  obtain ⟨_, -, h⟩ := Option.bind_eq_some_iff.mp h
  obtain ⟨storedParties, -, h⟩ := Option.bind_eq_some_iff.mp h
  obtain ⟨_, -, h⟩ := Option.bind_eq_some_iff.mp h
  obtain ⟨activeAtOffset, -, h⟩ := Option.bind_eq_some_iff.mp h
  obtain ⟨expiryValue, -, h⟩ := Option.bind_eq_some_iff.mp h
  obtain ⟨expiresAtEpochMs, hexpires, h⟩ := Option.bind_eq_some_iff.mp h
  obtain ⟨contractList, hcontractList, h⟩ := Option.bind_eq_some_iff.mp h
  obtain ⟨contracts, hcontracts, h⟩ := Option.bind_eq_some_iff.mp h
  obtain ⟨metadataList, hmetadataList, h⟩ := Option.bind_eq_some_iff.mp h
  obtain ⟨creationMetadata, hmetadata, h⟩ := Option.bind_eq_some_iff.mp h
  obtain ⟨nowEpochMs, hnow, h⟩ := Option.bind_eq_some_iff.mp h
  obtain ⟨-, h⟩ := guarded h
  obtain ⟨hscope, h⟩ := guarded h
  obtain ⟨hparties, h⟩ := guarded h
  obtain ⟨hoffset, h⟩ := guarded h
  obtain ⟨hexpiry, h⟩ := guarded h
  obtain rfl := Option.some.inj h
  obtain ⟨entries, hentries, hmetadata⟩ := Option.bind_eq_some_iff.mp hmetadata
  obtain ⟨hcoherent, hmetadata⟩ := guarded hmetadata
  obtain rfl := Option.some.inj hmetadata
  refine ⟨of_decide_eq_true hscope, of_decide_eq_true hparties, ⟨?_, ?_, hcoherent, hoffset, ?_⟩, ?_, ?_, ?_⟩
  · exact forall_of_materialized hcontracts fun item row hrow => (materializeContractRow_some hrow).1
  · exact forall_of_materialized hentries fun item entry hentry => (materializeCreationMetadataEntry_some hentry).1
  · rw [asEpoch.eq_def] at hexpires
    split at hexpires
    · split at hexpires
      · rename_i hdate
        rw [← Option.some.inj hexpires]
        exact hdate
      · cases hexpires
    · cases hexpires
  · intro hnot
    rw [hnot, Bool.false_or] at hexpiry
    exact ⟨nowEpochMs, hnow, of_decide_eq_true hexpiry⟩
  · exact idsAt_eq hcontractList hcontracts fun item row hrow => (materializeContractRow_some hrow).2
  · exact idsAt_eq hmetadataList hentries fun item entry hentry => (materializeCreationMetadataEntry_some hentry).2

/-! ### One entry for each row -/

/-- What the snapshot of a scope has to be. -/
structure SnapshotInvariant (endpointScope : String) (parties : Option (List String)) (now : StoreValue)
    (ignoreExpiry : Bool) (snapshot : MaterializedSnapshot) : Prop where
  distinct : (snapshot.contracts.map StoredRow.contractId).Nodup
  correspond : (snapshot.creationMetadata.map GrpcCachedCreationMetadata.contractId).Perm
    (snapshot.contracts.map StoredRow.contractId)
  active : ∀ row ∈ snapshot.contracts,
    row.active = true ∧ row.archivedEventOffset = none ∧ row.archivedAt = none
  offset : ∃ offset, parseOffset snapshot.activeAtOffset = some offset
  scope : snapshot.endpointScope = endpointScope
  parties : snapshot.parties = parties
  unexpired : ignoreExpiry = false → ∃ nowEpochMs, asEpoch now = some nowEpochMs ∧ nowEpochMs < snapshot.expiresAtEpochMs

theorem coherent_entries_iff {entries : List GrpcCachedCreationMetadata} {contracts : List StoredRow} :
    coherent entries contracts = true
      ↔ (entries.map GrpcCachedCreationMetadata.contractId).Nodup ∧ entries.length = contracts.length
        ∧ contracts.map StoredRow.contractId ⊆ entries.map GrpcCachedCreationMetadata.contractId := by
  have hdedup : (entries.map GrpcCachedCreationMetadata.contractId).dedup.length = entries.length
      ↔ (entries.map GrpcCachedCreationMetadata.contractId).Nodup := by
    rw [← @List.length_map _ _ entries GrpcCachedCreationMetadata.contractId]
    constructor
    · intro h
      exact List.dedup_eq_self.mp ((List.dedup_sublist _).eq_of_length h)
    · intro h
      rw [List.dedup_eq_self.mpr h]
  have hsubset : (contracts.all fun row => decide (row.contractId ∈ entries.map GrpcCachedCreationMetadata.contractId)) = true
      ↔ contracts.map StoredRow.contractId ⊆ entries.map GrpcCachedCreationMetadata.contractId := by
    rw [List.all_eq_true]
    simp only [decide_eq_true_eq]
    exact List.forall_mem_map.symm
  rw [coherent, Bool.and_eq_true, Bool.and_eq_true, decide_eq_true_eq, decide_eq_true_eq, hdedup, hsubset, and_assoc]

/-- When every entry has a row too, the counts leave room for one entry and one row of each contract. -/
theorem correspond_of_covered {entries : List GrpcCachedCreationMetadata} {contracts : List StoredRow}
    (h : coherent entries contracts = true)
    (hcovered : entries.map GrpcCachedCreationMetadata.contractId ⊆ contracts.map StoredRow.contractId) :
    (contracts.map StoredRow.contractId).Nodup
      ∧ (entries.map GrpcCachedCreationMetadata.contractId).Perm (contracts.map StoredRow.contractId) := by
  obtain ⟨hnodup, hlength, -⟩ := coherent_entries_iff.mp h
  have hperm : (entries.map GrpcCachedCreationMetadata.contractId).Perm (contracts.map StoredRow.contractId) := by
    refine (hnodup.subperm hcovered).perm_of_length_le ?_
    rw [List.length_map, List.length_map, hlength]
  exact ⟨hperm.nodup_iff.mp hnodup, hperm⟩

theorem coherent_of_correspond {entries : List GrpcCachedCreationMetadata} {contracts : List StoredRow}
    (hdistinct : (contracts.map StoredRow.contractId).Nodup)
    (hperm : (entries.map GrpcCachedCreationMetadata.contractId).Perm (contracts.map StoredRow.contractId)) :
    coherent entries contracts = true := by
  refine coherent_entries_iff.mpr ⟨hperm.nodup_iff.mpr hdistinct, ?_, hperm.symm.subset⟩
  simpa using hperm.length_eq

/-! ### The rows of the mapper -/

section Mapper

variable {locale : Collation}

theorem requiredTimestamp_date {value : Option Timestamp} {name : String} {milliseconds : Int}
    (h : requiredTimestamp value name = .ok milliseconds) : dateOf milliseconds = some milliseconds := by
  rw [requiredTimestamp.eq_def] at h
  split at h
  · cases h
  · split at h
    · cases h
    · split at h
      · cases h
      · dsimp only at h
        split at h
        · cases h
        · rename_i hrange
          rw [not_or, Int.not_lt, Int.not_lt] at hrange
          rw [← Except.ok.inj h]
          exact dateOf_cast (by omega) (by omega)

theorem creationDescriptor_dated {event : CreatedEvent} {offset : String} {creation : GrpcQueryCreationIdentity}
    (h : creationDescriptor locale event offset = .ok creation) :
    creation.packageName.isEmpty = false ∧ dateOf creation.createdAt = some creation.createdAt := by
  unfold creationDescriptor at h
  obtain ⟨_, -, h⟩ := bind_eq_ok.mp h
  obtain ⟨_, -, h⟩ := bind_eq_ok.mp h
  obtain ⟨_, -, h⟩ := bind_eq_ok.mp h
  obtain ⟨_, hname, h⟩ := bind_eq_ok.mp h
  obtain ⟨_, -, h⟩ := bind_eq_ok.mp h
  obtain ⟨template, -, h⟩ := bind_eq_ok.mp h
  cases harguments : event.createArguments with
  | none =>
      rw [harguments] at h
      cases h
  | some createArguments =>
      simp only [harguments] at h
      obtain ⟨_, hcreated, h⟩ := bind_eq_ok.mp h
      obtain ⟨_, -, h⟩ := bind_eq_ok.mp h
      obtain ⟨_, -, h⟩ := bind_eq_ok.mp h
      obtain ⟨_, -, h⟩ := bind_eq_ok.mp h
      obtain ⟨_, -, h⟩ := bind_eq_ok.mp h
      obtain rfl := Except.ok.inj h
      exact ⟨by simpa using guardThat_eq_ok.mp hname, requiredTimestamp_date hcreated⟩

/-- A row of a snapshot without a history is that of one creation, with other witnesses. -/
theorem reconciledActive_created {activeContracts : List GetActiveContractsResponse} {id : String} {row : ContractRow}
    {creation : GrpcQueryCreationIdentity} (h : reconciledActive locale activeContracts id = some (row, creation)) :
    ∃ created witnesses, created.packageName.isEmpty = false ∧ dateOf created.createdAt = some created.createdAt
      ∧ row = { createdRow created with witnesses } ∧ creation = { created with witnesses } := by
  rw [reconciledActive] at h
  split at h
  · cases h
  · rw [toOption_eq_some_iff] at h
    obtain ⟨_, -, h⟩ := bind_eq_ok.mp h
    obtain ⟨witnesses, -, h⟩ := bind_eq_ok.mp h
    rcases reconciledPair_cases h with ⟨_, _, hnone, -⟩ | ⟨-, representative, -, created, hcreated, hrow, hcreation⟩
    · cases hnone
    · obtain ⟨hname, hdate⟩ := creationDescriptor_dated hcreated
      exact ⟨created, witnesses, hname, hdate, hrow, hcreation⟩

variable {activeContracts : List GetActiveContractsResponse} {rows : List ContractRow × List GrpcCachedCreationMetadata}

theorem stored_reads (h : storedRows locale activeContracts = .ok rows) :
    ∀ row ∈ rows.1.map ContractRow.stored, row.Reads := by
  refine List.forall_mem_map.mpr fun row hrow => ?_
  obtain ⟨creation, hpair⟩ := ((storedRows_contracts h).mem_iff row).mp hrow
  obtain ⟨created, witnesses, -, hdate, rfl, -⟩ := reconciledActive_created hpair
  refine ⟨copyValue_ofQueryValue _, fun milliseconds hmilliseconds => ?_, rfl, rfl, rfl⟩
  rw [← Option.some.inj hmilliseconds]
  exact hdate

theorem stored_packageNames (h : storedRows locale activeContracts = .ok rows) :
    ∀ entry ∈ rows.2, entry.packageName.isEmpty = false := by
  intro entry hentry
  obtain ⟨row, creation, hpair, rfl⟩ := ((storedRows_metadata h).mem_iff entry).mp hentry
  obtain ⟨created, witnesses, hname, -, -, rfl⟩ := reconciledActive_created hpair
  exact hname

theorem stored_contractIds (contracts : List ContractRow) :
    (contracts.map ContractRow.stored).map StoredRow.contractId = contracts.map ContractRow.contractId := by
  rw [List.map_map]
  rfl

end Mapper

/-! ### What is written -/

section Writes

variable {locale : Collation} {scope : StoreScope} {snapshot : MaterializedSnapshot} {activeAtOffset : String}
  {rows : List StoredRow × List GrpcCachedCreationMetadata}

theorem mapM_copyRow {contracts : List StoredRow} (h : ∀ row ∈ contracts, row.Reads) :
    contracts.mapM copyRow = .ok contracts := by
  rw [mapM_eq_ok, List.forall₂_same]
  intro row hrow
  rw [copyRow, (h row hrow).payload]

theorem effectiveExpiry_date {now : StoreValue} {ttlMs expiresAtEpochMs : ℚ}
    (h : effectiveExpiryEpochMs now ttlMs = .ok expiresAtEpochMs) : (dateOf expiresAtEpochMs).isSome = true := by
  rw [effectiveExpiryEpochMs] at h
  split at h
  · cases h
  · split at h
    · rename_i hdate
      rw [← Except.ok.inj h]
      exact hdate
    · cases h

/-- Rows that can be read are written as they are. -/
theorem writeStored_reads (h : writeStored scope activeAtOffset rows = .ok snapshot) (hrows : ∀ row ∈ rows.1, row.Reads)
    (hnames : ∀ entry ∈ rows.2, entry.packageName.isEmpty = false) (hcoherent : coherent rows.2 rows.1 = true)
    (hoffset : (parseOffset activeAtOffset).isSome = true) :
    snapshot.Reads ∧ snapshot.endpointScope = scope.endpointScope ∧ snapshot.parties = scope.parties := by
  obtain ⟨expiresAtEpochMs, hexpiry, h⟩ := bind_eq_ok.mp h
  rw [mapM_copyRow hrows] at h
  obtain rfl := Except.ok.inj h
  exact ⟨⟨hrows, hnames, hcoherent, hoffset, effectiveExpiry_date hexpiry⟩, rfl, rfl⟩

/-- Until it expires, a snapshot is read for the scope as it was written. -/
def ReadBack (scope : StoreScope) (snapshot : MaterializedSnapshot) : Prop :=
  ∀ now nowEpochMs, asEpoch now = some nowEpochMs → nowEpochMs < snapshot.expiresAtEpochMs →
    asCompatibleSnapshot snapshot.value scope.endpointScope scope.parties now false = some snapshot

theorem readBack_of_writeStored (h : writeStored scope activeAtOffset rows = .ok snapshot)
    (hrows : ∀ row ∈ rows.1, row.Reads) (hnames : ∀ entry ∈ rows.2, entry.packageName.isEmpty = false)
    (hcoherent : coherent rows.2 rows.1 = true) (hoffset : (parseOffset activeAtOffset).isSome = true) :
    ReadBack scope snapshot := by
  obtain ⟨hreads, hscope, hparties⟩ := writeStored_reads h hrows hnames hcoherent hoffset
  intro now nowEpochMs hnow hbefore
  rw [← hscope, ← hparties]
  exact hreads.accepted hnow hbefore

theorem readActiveContracts_offset {known : Option String} {seenPageTokens : List String} {pages : List ActiveContractsPage}
    {activeContracts : List GetActiveContractsResponse}
    (h : readActiveContracts known seenPageTokens pages = .ok (activeAtOffset, activeContracts)) :
    (parseOffset activeAtOffset).isSome = true := by
  induction pages generalizing known seenPageTokens activeContracts with
  | nil => cases h
  | cons page rest ih =>
      obtain ⟨_, hparsed, h⟩ := bind_eq_ok.mp h
      obtain ⟨_, -, h⟩ := bind_eq_ok.mp h
      split at h
      · obtain ⟨rfl, -⟩ := Prod.mk.inj (Except.ok.inj h)
        exact guardThat_eq_ok.mp hparsed
      · obtain ⟨_, -, h⟩ := bind_eq_ok.mp h
        obtain ⟨⟨offset, others⟩, hrest, h⟩ := bind_eq_ok.mp h
        obtain ⟨rfl, -⟩ := Prod.mk.inj (Except.ok.inj h)
        exact ih hrest

/-- What a full download writes is read back. -/
theorem fullStored_readBack {pages : List ActiveContractsPage} (h : fullStored locale scope pages = .ok snapshot) :
    ReadBack scope snapshot := by
  obtain ⟨⟨offset, activeContracts⟩, hpages, h⟩ := bind_eq_ok.mp h
  obtain ⟨rows, hrows, h⟩ := bind_eq_ok.mp h
  refine readBack_of_writeStored h (stored_reads hrows) (stored_packageNames hrows) (coherent_of_correspond ?_ ?_)
    (readActiveContracts_offset hpages)
  · rw [stored_contractIds]
    exact (storedRows_contracts hrows).keys_nodup
  · rw [stored_contractIds, storedRows_ids hrows]

/-! ### Patches of a base that was accepted -/

theorem fresh_of_window {baseIds : List String} {patch next : DeltaPatch} {entries : List DeltaEntry}
    (h : patch.Fresh baseIds) (hfold : entries.foldlM (applyDeltaEntry baseIds) patch = some next) :
    next.Fresh baseIds := by
  induction entries generalizing patch with
  | nil =>
      obtain rfl := Option.some.inj hfold
      exact h
  | cons entry rest ih =>
      obtain ⟨after, hentry, hrest⟩ := Option.bind_eq_some_iff.mp hfold
      refine ih ?_ hrest
      cases entry with
      | created event synchronizerId =>
          obtain ⟨hbase, habsent, rfl⟩ := applyDeltaEntry_created.mp hentry
          exact h.create hbase habsent
      | archived contractId =>
          rcases (applyDeltaEntry_archived h).mp hentry with ⟨-, -, rfl⟩ | ⟨-, rfl⟩
          · exact h.archive contractId
          · exact h.remove contractId

/-- The contracts that a patch adds are none of the base. -/
theorem added_outside {baseIds : List String} {patch : DeltaPatch} (hfresh : patch.Fresh baseIds)
    {added : List ContractRow × List GrpcCachedCreationMetadata}
    (h : storedRows locale (patch.adds.values.map survivor) = .ok added) :
    ∀ id ∈ added.1.map ContractRow.contractId, id ∉ baseIds := by
  intro id hid
  have hne := (mem_storedRows_ids h).mp hid
  obtain ⟨entry, hentry⟩ := List.exists_mem_of_ne_nil _ hne
  obtain ⟨hactive, rfl⟩ := mem_activations.mp hentry
  obtain ⟨response, hresponse, hread⟩ := List.mem_filterMap.mp hactive
  obtain ⟨create, hcreate, rfl⟩ := List.mem_map.mp hresponse
  obtain rfl := Option.some.inj hread
  obtain ⟨key, hkey⟩ := KeyedMap.mem_values.mp hcreate
  have hmem := KeyedMap.get_eq_some.mp hkey
  have hsame : key = create.1.contractId := hfresh.key _ hmem
  exact hfresh.outside _ (hsame ▸ List.mem_map.mpr ⟨_, hmem, rfl⟩)

theorem patchStoredRows_reads {base : MaterializedSnapshot} (hbase : base.Reads)
    (hdistinct : (base.contracts.map StoredRow.contractId).Nodup)
    (hcorrespond : (base.creationMetadata.map GrpcCachedCreationMetadata.contractId).Perm
      (base.contracts.map StoredRow.contractId))
    {patch : DeltaPatch} (hfresh : patch.Fresh (base.contracts.map StoredRow.contractId))
    (h : patchStoredRows locale base patch = .ok rows) :
    (∀ row ∈ rows.1, row.Reads) ∧ (∀ entry ∈ rows.2, entry.packageName.isEmpty = false)
      ∧ coherent rows.2 rows.1 = true := by
  obtain ⟨added, hadded, h⟩ := bind_eq_ok.mp h
  obtain rfl := Except.ok.inj h
  have hcontracts := ((perm_sortBy (compareKey locale.localeCompare StoredRow.contractId)
    ((base.contracts.filter fun row => decide (row.contractId ∉ patch.removes))
      ++ added.1.map ContractRow.stored)).map StoredRow.contractId)
  have hmetadata := ((perm_sortBy (compareKey locale.localeCompare GrpcCachedCreationMetadata.contractId)
    ((base.creationMetadata.filter fun entry => decide (entry.contractId ∉ patch.removes))
      ++ added.2)).map GrpcCachedCreationMetadata.contractId)
  rw [List.map_append, stored_contractIds] at hcontracts
  rw [List.map_append, storedRows_ids hadded] at hmetadata
  have hkeptRows : (base.contracts.filter fun row => decide (row.contractId ∉ patch.removes)).map StoredRow.contractId
      = (base.contracts.map StoredRow.contractId).filter fun id => decide (id ∉ patch.removes) := by
    rw [List.filter_map]
    rfl
  have hkeptEntries : (base.creationMetadata.filter fun entry => decide (entry.contractId ∉ patch.removes)).map
        GrpcCachedCreationMetadata.contractId
      = (base.creationMetadata.map GrpcCachedCreationMetadata.contractId).filter fun id => decide (id ∉ patch.removes) := by
    rw [List.filter_map]
    rfl
  refine ⟨fun row hrow => ?_, fun entry hentry => ?_, coherent_of_correspond ?_ ?_⟩
  · rcases List.mem_append.mp (mem_sortBy.mp hrow) with hrow | hrow
    · exact hbase.contracts row (List.mem_filter.mp hrow).1
    · exact stored_reads hadded row hrow
  · rcases List.mem_append.mp (mem_sortBy.mp hentry) with hentry | hentry
    · exact hbase.packageNames entry (List.mem_filter.mp hentry).1
    · exact stored_packageNames hadded entry hentry
  · rw [hcontracts.nodup_iff, hkeptRows]
    refine (hdistinct.filter _).append (storedRows_contracts hadded).keys_nodup fun id hid hid' => ?_
    exact added_outside hfresh hadded id hid' (List.mem_filter.mp hid).1
  · refine hmetadata.trans (List.Perm.trans ?_ hcontracts.symm)
    rw [hkeptRows, hkeptEntries]
    exact (hcorrespond.filter _).append_right _

/-- What a delta refresh writes from a base with one entry for each row is read back. -/
theorem tryStoredDelta_readBack {options : GrpcContractCacheDeltaOptions} {base : MaterializedSnapshot}
    {answers : DeltaAnswers} (hbase : base.Reads) (hdistinct : (base.contracts.map StoredRow.contractId).Nodup)
    (hcorrespond : (base.creationMetadata.map GrpcCachedCreationMetadata.contractId).Perm
      (base.contracts.map StoredRow.contractId))
    (h : tryStoredDelta locale scope options base answers = .ok (some snapshot)) : ReadBack scope snapshot := by
  rw [tryStoredDelta] at h
  split at h
  · rename_i baseOffset pruned ledgerEnd _ _ hledgerEnd
    split_ifs at h
    · cases h
    · cases hwritten : writeStored scope base.activeAtOffset (base.contracts, base.creationMetadata) with
      | error _ =>
          rw [hwritten] at h
          cases h
      | ok written =>
      rw [hwritten] at h
      obtain rfl := Option.some.inj (Except.ok.inj h)
      exact readBack_of_writeStored hwritten hbase.contracts hbase.packageNames hbase.coherent hbase.offset
    · cases h
    · split at h
      · cases h
      · rename_i rows hwindow
        obtain ⟨entries, -, hwindow⟩ := Option.bind_eq_some_iff.mp hwindow
        obtain ⟨patch, hpatch, hwindow⟩ := Option.bind_eq_some_iff.mp hwindow
        obtain ⟨hreads, hnames, hcoherent⟩ := patchStoredRows_reads hbase hdistinct hcorrespond
          (fresh_of_window DeltaPatch.fresh_empty hpatch) (toOption_eq_some_iff.mp hwindow)
        split at h
        · cases h
        · rename_i written hwritten
          obtain rfl := Option.some.inj (Except.ok.inj h)
          refine readBack_of_writeStored hwritten hreads hnames hcoherent ?_
          rw [parseOffset_toString (parseOffset_le hledgerEnd)]
          rfl
  · cases h

end Writes

/-! ### The snapshots of the refresh protocol -/

section Protocol

variable {locale : Collation} {scope : StoreScope} {refresh : RefreshScope}

/-- A snapshot whose rows all come from the mapper, as it is stored. -/
def CachedContractSnapshot.materialized (snapshot : CachedContractSnapshot) : MaterializedSnapshot where
  endpointScope := snapshot.endpointScope
  parties := snapshot.parties
  activeAtOffset := snapshot.activeAtOffset
  expiresAtEpochMs := snapshot.expiresAtEpochMs
  contracts := snapshot.contracts.map ContractRow.stored
  creationMetadata := snapshot.creationMetadata

/-- Two scopes with one clock. -/
structure SameScope (scope : StoreScope) (refresh : RefreshScope) : Prop where
  endpointScope : scope.endpointScope = refresh.endpointScope
  parties : scope.parties = refresh.parties
  expiry : effectiveExpiryEpochMs scope.now scope.ttlMs = refresh.expiry.map fun milliseconds => (milliseconds : ℚ)

theorem mapM_copyRow_stored (contracts : List ContractRow) :
    (contracts.map ContractRow.stored).mapM copyRow = .ok (contracts.map ContractRow.stored) := by
  rw [mapM_eq_ok, List.forall₂_same]
  intro row hrow
  obtain ⟨mapped, -, rfl⟩ := List.mem_map.mp hrow
  rw [copyRow, show copyValue mapped.stored.payload = some mapped.stored.payload from copyValue_ofQueryValue _]

theorem writeStored_stored (hsame : SameScope scope refresh) (activeAtOffset : String)
    (rows : List ContractRow × List GrpcCachedCreationMetadata) (kind : RefreshKind) (offsetGap : Option String)
    (deltaUpdateCount : Option Nat) :
    writeStored scope activeAtOffset (rows.1.map ContractRow.stored, rows.2)
      = (writeSnapshot refresh activeAtOffset rows kind offsetGap deltaUpdateCount).map fun written =>
        written.2.materialized := by
  rw [writeStored, writeSnapshot, hsame.expiry, hsame.endpointScope, hsame.parties, mapM_copyRow_stored]
  cases refresh.expiry with
  | error _ => rfl
  | ok milliseconds => rfl

theorem patchStoredRows_stored (base : CachedContractSnapshot) (patch : DeltaPatch) :
    patchStoredRows locale base.materialized patch
      = (patchRows locale base patch).map fun rows => (rows.1.map ContractRow.stored, rows.2) := by
  rw [patchStoredRows, patchRows]
  cases storedRows locale (patch.adds.values.map survivor) with
  | error _ => rfl
  | ok added =>
      have hfilter : (base.materialized.contracts.filter fun row => decide (row.contractId ∉ patch.removes))
          = (base.contracts.filter fun row => decide (row.contractId ∉ patch.removes)).map ContractRow.stored := by
        rw [CachedContractSnapshot.materialized, List.filter_map]
        rfl
      have hsort : ∀ rows : List ContractRow,
          sortBy (compareKey locale.localeCompare StoredRow.contractId) (rows.map ContractRow.stored)
            = (sortBy (compareKey locale.localeCompare ContractRow.contractId) rows).map ContractRow.stored :=
        fun rows => (List.map_insertionSort _ _ ContractRow.stored rows fun _ _ _ _ => Iff.rfl).symm
      change Except.ok _ = Except.ok _
      rw [hfilter, ← List.map_append, hsort]
      rfl

/-- From a base of the protocol, what is written is what the protocol writes. -/
theorem tryStoredDelta_materialized (hsame : SameScope scope refresh) (options : GrpcContractCacheDeltaOptions)
    (base : CachedContractSnapshot) (answers : DeltaAnswers) :
    tryStoredDelta locale scope options base.materialized answers
      = (tryDeltaRefresh locale refresh options base answers).map (Option.map fun written => written.2.materialized) := by
  have hwindow : ∀ baseOffset endOffset, patchStoredWindow locale options base.materialized baseOffset endOffset answers
      = (patchWindow locale options base baseOffset endOffset answers).map fun patched =>
        (patched.1.1.map ContractRow.stored, patched.1.2) := by
    intro baseOffset endOffset
    have hread : readStoredWindow options base.materialized baseOffset endOffset answers.pages
        = readDeltaWindow options base baseOffset endOffset answers.pages := by
      rw [readStoredWindow, readDeltaWindow, CachedContractSnapshot.materialized, List.length_map]
    rw [patchStoredWindow, patchWindow, hread,
      show base.materialized.contracts.map StoredRow.contractId = base.contracts.map ContractRow.contractId from
        stored_contractIds base.contracts]
    cases readDeltaWindow options base baseOffset endOffset answers.pages with
    | none => rfl
    | some entries =>
        simp only [Option.bind_eq_bind, Option.bind_some]
        cases entries.foldlM (applyDeltaEntry (base.contracts.map ContractRow.contractId)) .empty with
        | none => rfl
        | some patch =>
            simp only [Option.bind_some, patchStoredRows_stored]
            cases patchRows locale base patch <;> rfl
  rw [tryStoredDelta, tryDeltaRefresh, show base.materialized.activeAtOffset = base.activeAtOffset from rfl]
  cases parseOffset base.activeAtOffset with
  | none => rfl
  | some baseOffset =>
      cases parseOffset answers.participantPrunedUpToInclusive with
      | none => rfl
      | some pruned =>
          cases parseOffset answers.ledgerEnd with
          | none => rfl
          | some ledgerEnd =>
              dsimp only
              split_ifs
              · rfl
              · rw [show (base.materialized.contracts, base.materialized.creationMetadata)
                  = (base.contracts.map ContractRow.stored, base.creationMetadata) from rfl,
                  writeStored_stored hsame base.activeAtOffset (base.contracts, base.creationMetadata) .noop
                    (some "0") none]
                cases writeSnapshot refresh base.activeAtOffset (base.contracts, base.creationMetadata) .noop (some "0")
                  none <;> rfl
              · rfl
              · rw [hwindow]
                cases patchWindow locale options base baseOffset ledgerEnd answers with
                | none => rfl
                | some patched =>
                    dsimp only [Option.map_some]
                    rw [writeStored_stored hsame (toString ledgerEnd) patched.1 .delta
                      (some (toString (ledgerEnd - baseOffset))) (some patched.2)]
                    cases writeSnapshot refresh (toString ledgerEnd) patched.1 .delta
                      (some (toString (ledgerEnd - baseOffset))) (some patched.2) <;> rfl

end Protocol

/-! ### The claim for a value of the store -/

/-- Whatever is read from the value satisfies the invariant, and whatever a refresh from it writes is read back. -/
structure SnapshotsSound (locale : Collation) (scope : StoreScope) (value : StoreValue) : Prop where
  accepted : ∀ now ignoreExpiry snapshot,
    asCompatibleSnapshot value scope.endpointScope scope.parties now ignoreExpiry = some snapshot →
      SnapshotInvariant scope.endpointScope scope.parties now ignoreExpiry snapshot
  full : ∀ pages snapshot, fullStored locale scope pages = .ok snapshot → ReadBack scope snapshot
  delta : ∀ now base, asCompatibleSnapshot value scope.endpointScope scope.parties now true = some base →
    ∀ options answers snapshot, tryStoredDelta locale scope options base answers = .ok (some snapshot) →
      ReadBack scope snapshot

/-- A value is accepted at some time, expired or not. -/
def AcceptedFor (scope : StoreScope) (value : StoreValue) : Prop :=
  ∃ now, (asCompatibleSnapshot value scope.endpointScope scope.parties now true).isSome = true

theorem bind_weaken {α β : Type} {x : Option α} {f g : α → Option β} {result : β} (h : x >>= f = some result)
    (hnext : ∀ a, f a = some result → g a = some result) : x >>= g = some result := by
  obtain ⟨a, hx, ha⟩ := Option.bind_eq_some_iff.mp h
  exact Option.bind_eq_some_iff.mpr ⟨a, hx, hnext a ha⟩

theorem accepted_ignoringExpiry {value : StoreValue} {endpointScope : String} {parties : Option (List String)}
    {now : StoreValue} {ignoreExpiry : Bool} {snapshot : MaterializedSnapshot}
    (h : asCompatibleSnapshot value endpointScope parties now ignoreExpiry = some snapshot) :
    asCompatibleSnapshot value endpointScope parties now true = some snapshot := by
  -- Only the last of the guards depends on whether expiry is ignored.
  iterate 18
    refine bind_weaken h ?_
    clear h
    intro _ h
  obtain ⟨-, h⟩ := guarded h
  exact h

/-- For every value of the store: what is accepted satisfies the invariant and what is written is read back, if and only
if, in case the value is accepted, every contract of its metadata is one of its rows. -/
theorem snapshots_sound_iff (locale : Collation) (scope : StoreScope) (value : StoreValue) :
    SnapshotsSound locale scope value
      ↔ (AcceptedFor scope value → idsAt value "creationMetadata" ⊆ idsAt value "contracts") := by
  constructor
  · rintro hsound ⟨now, haccepted⟩
    obtain ⟨snapshot, hsnapshot⟩ := Option.isSome_iff_exists.mp haccepted
    have hfacts := accepts_of_some hsnapshot
    rw [hfacts.contractIds, hfacts.metadataIds]
    exact (hsound.accepted now true snapshot hsnapshot).correspond.subset
  · intro hcovered
    have hids : ∀ {now ignoreExpiry snapshot},
        asCompatibleSnapshot value scope.endpointScope scope.parties now ignoreExpiry = some snapshot →
          (snapshot.contracts.map StoredRow.contractId).Nodup
            ∧ (snapshot.creationMetadata.map GrpcCachedCreationMetadata.contractId).Perm
              (snapshot.contracts.map StoredRow.contractId) := by
      intro now ignoreExpiry snapshot h
      have hfacts := accepts_of_some h
      have hsubset := hcovered ⟨now, by rw [accepted_ignoringExpiry h, Option.isSome_some]⟩
      rw [hfacts.contractIds, hfacts.metadataIds] at hsubset
      exact correspond_of_covered hfacts.reads.coherent hsubset
    refine ⟨fun now ignoreExpiry snapshot h => ?_, fun pages snapshot => fullStored_readBack,
      fun now base h options answers snapshot => ?_⟩
    · have hfacts := accepts_of_some h
      obtain ⟨hdistinct, hcorrespond⟩ := hids h
      exact ⟨hdistinct, hcorrespond,
        fun row hrow => ⟨(hfacts.reads.contracts row hrow).active, (hfacts.reads.contracts row hrow).archivedEventOffset,
          (hfacts.reads.contracts row hrow).archivedAt⟩,
        Option.isSome_iff_exists.mp hfacts.reads.offset, hfacts.scope, hfacts.parties, hfacts.unexpired⟩
    · obtain ⟨hdistinct, hcorrespond⟩ := hids h
      exact tryStoredDelta_readBack (accepts_of_some h).reads hdistinct hcorrespond

/-- A row of the contract `C1`. -/
def assetRow : StoredRow where
  contractId := "C1"
  templateId := ⟨"pkg", "Main", "Asset"⟩
  packageId := some "pkg"
  payload := .object .plain []
  witnesses := ["Alice"]
  createdEventOffset := "10"
  createdAt := some 1
  archivedEventOffset := none
  archivedAt := none
  active := true

/-- Two rows of one contract, and the metadata of that contract and of another one. -/
def repeatedContract : MaterializedSnapshot where
  endpointScope := "participant"
  parties := none
  activeAtOffset := "42"
  expiresAtEpochMs := 1100
  contracts := [assetRow, assetRow]
  creationMetadata := [⟨"C1", "app", none⟩, ⟨"C2", "app", none⟩]

/-- The value with a repeated contract is accepted, although its contract ids are not distinct. -/
theorem repeated_contract_accepted :
    asCompatibleSnapshot repeatedContract.value "participant" none (.number (some 1000)) false = some repeatedContract
      ∧ ¬ SnapshotInvariant "participant" none (.number (some 1000)) false repeatedContract := by
  refine ⟨rfl, fun h => ?_⟩
  exact absurd h.distinct (by decide)

end CantonSdk.Query.Grpc
