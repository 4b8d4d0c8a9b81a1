import CantonSdk.Query.Grpc.ContractCache
import Mathlib.Data.Rat.Defs

/-!
# Snapshots in a store

A store may return any value for a snapshot, so what is read is checked field by field. Each place of the value is read
once; a place whose reading throws and a place that does not pass its check end alike, with no snapshot.
-/

set_option linter.all false

namespace CantonSdk.Query.Grpc

open CantonSdk.Base CantonSdk.Query.Canonical

/-! ### Values of a store -/

/-- What kind of object a value is, other than an array. -/
inductive ObjectShape where
  | plain
  /-- A date, by its milliseconds since 1970; an invalid date has none. -/
  | date (time : Option Int)
  /-- A map or a set, whose entries stand for its properties. -/
  | collection
  | bytes (content : List UInt8)
  | sharedMemory
  /-- A proxy, or an object of a kind that cannot be cloned. -/
  | uncloneable
  deriving DecidableEq

/-- A value of the host language. A number is finite, or it is none. -/
inductive StoreValue where
  | undefined
  | null
  | bool (value : Bool)
  | number (value : Option ℚ)
  | bigint (value : Int)
  | string (value : String)
  /-- A function or a symbol. -/
  | callable
  /-- What stands at a place whose reading throws. -/
  | raises
  | array (proxied : Bool) (items : List StoreValue) (properties : List (String × StoreValue))
  | object (shape : ObjectShape) (properties : List (String × StoreValue))

namespace StoreValue

/-- A value that was read, unless its reading throws. -/
def found : StoreValue → Option StoreValue
  | .raises => none
  | value => some value

def lookup (properties : List (String × StoreValue)) (key : String) : Option StoreValue :=
  (((properties.find? fun property => decide (property.1 = key)).map Prod.snd).getD .undefined).found

/-- Reads a property of an object; a value that is no object does not pass. -/
def get (value : StoreValue) (key : String) : Option StoreValue :=
  match value with
  | .array _ _ properties => lookup properties key
  | .object _ properties => lookup properties key
  | _ => none

mutual

/-- `structuredClone`, and the search for shared memory in what it returns. -/
def structuredClone : StoreValue → Option StoreValue
  | .callable => none
  | .raises => none
  | .array proxied items properties =>
      if proxied then none
      else do return .array false (← cloneItems items) (← cloneProperties properties)
  | .object shape properties =>
      match shape with
      | .plain => do return .object .plain (← cloneProperties properties)
      | .collection => do return .object .collection (← cloneProperties properties)
      | .date time => some (.object (.date time) [])
      | .bytes content => some (.object (.bytes content) [])
      | .sharedMemory => none
      | .uncloneable => none
  | value => some value

def cloneItems : List StoreValue → Option (List StoreValue)
  | [] => some []
  | item :: rest => do return (← structuredClone item) :: (← cloneItems rest)

def cloneProperties : List (String × StoreValue) → Option (List (String × StoreValue))
  | [] => some []
  | (key, value) :: rest => do return (key, ← structuredClone value) :: (← cloneProperties rest)

end

/-- `copyValue`: what is no object stays as it is. -/
def copyValue : StoreValue → Option StoreValue
  | .callable => some .callable
  | value => structuredClone value

def asString : StoreValue → Option String
  | .string value => some value
  | _ => none

def asNullableString : StoreValue → Option (Option String)
  | .string value => some (some value)
  | .null => some none
  | _ => none

/-- The value of a date from its milliseconds, which may be no date. -/
def dateOf (milliseconds : ℚ) : Option Int :=
  if -8640000000000000 ≤ milliseconds ∧ milliseconds ≤ 8640000000000000 then
    some (milliseconds.num.tdiv milliseconds.den)
  else none

def materializeIndexedValues {α : Type} (value : StoreValue) (materialize : StoreValue → Option α) :
    Option (List α) :=
  match value with
  | .array false items _ => items.mapM fun item => item.found.bind materialize
  | _ => none

def materializeStringArray (value : StoreValue) : Option (List String) :=
  materializeIndexedValues value asString

def materializeOptionalDate : StoreValue → Option (Option Int)
  | .null => some none
  | .object (.date (some time)) _ => (dateOf time).map some
  | _ => none

def materializeTemplateId (value : StoreValue) : Option Identifier :=
  match value with
  | .object _ _ => do
      let packageId ← asString (← value.get "packageId")
      let moduleName ← asString (← value.get "moduleName")
      let entityName ← asString (← value.get "entityName")
      return { packageId, moduleName, entityName }
  | _ => none

def isNull : StoreValue → Bool
  | .null => true
  | _ => false

def isTrue : StoreValue → Bool
  | .bool true => true
  | _ => false

/-- A number that is the time of a date. -/
def asEpoch : StoreValue → Option ℚ
  | .number (some value) => if (dateOf value).isSome then some value else none
  | _ => none

end StoreValue

/-! ### Rows and snapshots -/

/-- A contract row as a snapshot holds it: its payload is any value that can be copied. -/
structure StoredRow where
  contractId : String
  templateId : Identifier
  packageId : Option String
  payload : StoreValue
  witnesses : List String
  createdEventOffset : String
  createdAt : Option Int
  archivedEventOffset : Option String
  archivedAt : Option Int
  active : Bool

structure MaterializedSnapshot where
  endpointScope : String
  parties : Option (List String)
  activeAtOffset : String
  expiresAtEpochMs : ℚ
  contracts : List StoredRow
  creationMetadata : List GrpcCachedCreationMetadata

open StoreValue

def materializeContractRow (value : StoreValue) : Option StoredRow := do
  let contractId ← asString (← value.get "contractId")
  let templateId ← materializeTemplateId (← value.get "templateId")
  let packageId ← asNullableString (← value.get "packageId")
  let payload ← copyValue (← value.get "payload")
  let witnesses ← materializeStringArray (← value.get "witnesses")
  let createdEventOffset ← asString (← value.get "createdEventOffset")
  let createdAt ← materializeOptionalDate (← value.get "createdAt")
  guard (isNull (← value.get "archivedEventOffset"))
  guard (isNull (← value.get "archivedAt"))
  guard (isTrue (← value.get "active"))
  return {
    contractId
    templateId
    packageId
    payload
    witnesses
    createdEventOffset
    createdAt
    archivedEventOffset := none
    archivedAt := none
    active := true }

def materializeContractRows (value : StoreValue) : Option (List StoredRow) :=
  materializeIndexedValues value materializeContractRow

def materializeCreationMetadataEntry (value : StoreValue) : Option GrpcCachedCreationMetadata := do
  let contractId ← asString (← value.get "contractId")
  let packageName ← asString (← value.get "packageName")
  let representativePackageId ← asNullableString (← value.get "representativePackageId")
  guard (!packageName.isEmpty)
  return { contractId, packageName, representativePackageId }

/-- The ids of the metadata are as many as the entries and as the rows, and the id of every row is one of them. -/
def coherent (entries : List GrpcCachedCreationMetadata) (contracts : List StoredRow) : Bool :=
  decide ((entries.map GrpcCachedCreationMetadata.contractId).dedup.length = entries.length)
    && decide (entries.length = contracts.length)
    && contracts.all fun row => decide (row.contractId ∈ entries.map GrpcCachedCreationMetadata.contractId)

def materializeCreationMetadata (value : StoreValue) (contracts : List StoredRow) :
    Option (List GrpcCachedCreationMetadata) := do
  let entries ← materializeIndexedValues value materializeCreationMetadataEntry
  guard (coherent entries contracts)
  return entries

/-- The parties of a snapshot, which may be absent. -/
def materializeParties : StoreValue → Option (Option (List String))
  | .undefined => some none
  | rawParties => (materializeStringArray rawParties).map some

def isVersion3 : StoreValue → Bool
  | .number (some version) => decide (version = 3)
  | _ => false

def asCompatibleSnapshot (value : StoreValue) (endpointScope : String) (parties : Option (List String))
    (nowEpochMs : StoreValue) (ignoreExpiry : Bool) : Option MaterializedSnapshot := do
  let version ← value.get "version"
  let storedEndpointScope ← asString (← value.get "endpointScope")
  let storedParties ← materializeParties (← value.get "parties")
  let activeAtOffset ← asString (← value.get "activeAtOffset")
  let expiresAtEpochMs ← asEpoch (← value.get "expiresAtEpochMs")
  let contracts ← materializeContractRows (← value.get "contracts")
  let creationMetadata ← materializeCreationMetadata (← value.get "creationMetadata") contracts
  let now ← asEpoch nowEpochMs
  guard (isVersion3 version)
  guard (decide (storedEndpointScope = endpointScope))
  guard (decide (storedParties = parties))
  guard (parseOffset activeAtOffset).isSome
  guard (ignoreExpiry || decide (now < expiresAtEpochMs))
  return {
    endpointScope := storedEndpointScope
    parties := storedParties
    activeAtOffset
    expiresAtEpochMs
    contracts
    creationMetadata }

/-! ### What is written -/

mutual

/-- A payload of the mapper, as a value. -/
def ofQueryValue : QueryValue → StoreValue
  | .null => .null
  | .bool value => .bool value
  | .number value => .number (some value)
  | .text value => .string value
  | .date milliseconds => .object (.date (dateOf milliseconds)) []
  | .invalidDate => .object (.date none) []
  | .bytes content => .object (.bytes content) []
  | .array items => .array false (ofQueryItems items) []
  | .object fields => .object .plain (ofQueryFields fields)

def ofQueryItems : List QueryValue → List StoreValue
  | [] => []
  | item :: rest => ofQueryValue item :: ofQueryItems rest

def ofQueryFields : List (String × QueryValue) → List (String × StoreValue)
  | [] => []
  | (key, value) :: rest => (key, ofQueryValue value) :: ofQueryFields rest

end

/-- A row that the mapper has made, as it is stored. -/
def ContractRow.stored (row : ContractRow) : StoredRow where
  contractId := row.contractId
  templateId := row.templateId
  packageId := some row.packageId
  payload := ofQueryValue row.payload
  witnesses := row.witnesses
  createdEventOffset := row.createdEventOffset
  createdAt := some row.createdAt
  archivedEventOffset := row.archivedEventOffset
  archivedAt := row.archivedAt
  active := row.active

def storedString : Option String → StoreValue
  | none => .null
  | some value => .string value

def storedDate : Option Int → StoreValue
  | none => .null
  | some milliseconds => .object (.date (dateOf milliseconds)) []

def stringArray (values : List String) : StoreValue := .array false (values.map .string) []

def StoredRow.value (row : StoredRow) : StoreValue :=
  .object .plain [
    ("contractId", .string row.contractId),
    ("templateId", .object .plain [
      ("packageId", .string row.templateId.packageId),
      ("moduleName", .string row.templateId.moduleName),
      ("entityName", .string row.templateId.entityName)]),
    ("packageId", storedString row.packageId),
    ("payload", row.payload),
    ("witnesses", stringArray row.witnesses),
    ("createdEventOffset", .string row.createdEventOffset),
    ("createdAt", storedDate row.createdAt),
    ("archivedEventOffset", storedString row.archivedEventOffset),
    ("archivedAt", storedDate row.archivedAt),
    ("active", .bool row.active)]

def GrpcCachedCreationMetadata.value (entry : GrpcCachedCreationMetadata) : StoreValue :=
  .object .plain [
    ("contractId", .string entry.contractId),
    ("packageName", .string entry.packageName),
    ("representativePackageId", storedString entry.representativePackageId)]

/-- The object of version 3 that is handed to the store. -/
def MaterializedSnapshot.value (snapshot : MaterializedSnapshot) : StoreValue :=
  .object .plain [
    ("version", .number (some 3)),
    ("endpointScope", .string snapshot.endpointScope),
    ("parties", match snapshot.parties with | none => .undefined | some parties => stringArray parties),
    ("activeAtOffset", .string snapshot.activeAtOffset),
    ("expiresAtEpochMs", .number (some snapshot.expiresAtEpochMs)),
    ("contracts", .array false (snapshot.contracts.map StoredRow.value) []),
    ("creationMetadata", .array false (snapshot.creationMetadata.map GrpcCachedCreationMetadata.value) [])]

/-- `effectiveExpiryEpochMs`, for what the clock returns. -/
def effectiveExpiryEpochMs (now : StoreValue) (ttlMs : ℚ) : Checked ℚ :=
  match asEpoch now with
  | none => .error (.validation "Contract cache clock must return a finite valid date.")
  | some nowEpochMs =>
      if (dateOf (nowEpochMs + ttlMs)).isSome then .ok (nowEpochMs + ttlMs)
      else .error (.validation "Contract cache expiry must be a finite valid date.")

/-- What every write for one scope is given. -/
structure StoreScope where
  endpointScope : String
  parties : Option (List String)
  /-- What the clock returns at the write. -/
  now : StoreValue
  ttlMs : ℚ

def copyRow (row : StoredRow) : Checked StoredRow :=
  match copyValue row.payload with
  | none => .error (.plain "the payload cannot be cloned")
  | some payload => .ok { row with payload }

/-- The snapshot that `writeSnapshotAsync` hands to the store. -/
def writeStored (scope : StoreScope) (activeAtOffset : String)
    (rows : List StoredRow × List GrpcCachedCreationMetadata) : Checked MaterializedSnapshot := do
  let expiresAtEpochMs ← effectiveExpiryEpochMs scope.now scope.ttlMs
  let contracts ← rows.1.mapM copyRow
  return {
    endpointScope := scope.endpointScope
    parties := scope.parties
    activeAtOffset
    expiresAtEpochMs
    contracts
    creationMetadata := rows.2 }

section Refresh

variable (locale : Collation)

/-- The rows of a base that was read from the store, patched by a window. -/
def patchStoredRows (base : MaterializedSnapshot) (patch : DeltaPatch) :
    Checked (List StoredRow × List GrpcCachedCreationMetadata) := do
  let added ← storedRows locale (patch.adds.values.map survivor)
  return (
    sortBy (compareKey locale.localeCompare StoredRow.contractId)
      ((base.contracts.filter fun row => decide (row.contractId ∉ patch.removes))
        ++ added.1.map ContractRow.stored),
    sortBy (compareKey locale.localeCompare GrpcCachedCreationMetadata.contractId)
      ((base.creationMetadata.filter fun entry => decide (entry.contractId ∉ patch.removes)) ++ added.2))

/-- `readDeltaWindowAsync`, from a base that was read from the store. -/
def readStoredWindow (options : GrpcContractCacheDeltaOptions) (base : MaterializedSnapshot) (baseOffset endOffset : Nat)
    (pages : List (GetUpdatesPageResponse (Option DeltaTransaction))) : Option (List DeltaEntry) :=
  readDeltaPages deltaMaxPages
    { endOffset := endOffset
      maxUpdates := options.maxUpdates.getD (max 1000 (2 * base.contracts.length))
      entries := []
      seenPageTokens := []
      expectedLowestExclusive := baseOffset
      pageToken := none
      updatesSeen := 0 } pages

def patchStoredWindow (options : GrpcContractCacheDeltaOptions) (base : MaterializedSnapshot)
    (baseOffset endOffset : Nat) (answers : DeltaAnswers) :
    Option (List StoredRow × List GrpcCachedCreationMetadata) := do
  let entries ← readStoredWindow options base baseOffset endOffset answers.pages
  let patch ← entries.foldlM (applyDeltaEntry (base.contracts.map StoredRow.contractId)) .empty
  (patchStoredRows locale base patch).toOption

/-- The snapshot that `tryDeltaRefreshAsync` writes from a base that was read from the store; none asks for a full
download. -/
def tryStoredDelta (scope : StoreScope) (options : GrpcContractCacheDeltaOptions) (base : MaterializedSnapshot)
    (answers : DeltaAnswers) : Checked (Option MaterializedSnapshot) :=
  match parseOffset base.activeAtOffset, parseOffset answers.participantPrunedUpToInclusive,
      parseOffset answers.ledgerEnd with
  | some baseOffset, some pruned, some ledgerEnd =>
      if pruned > baseOffset ∨ ledgerEnd < baseOffset then .ok none
      else if ledgerEnd = baseOffset then
        (writeStored scope base.activeAtOffset (base.contracts, base.creationMetadata)).map some
      else if ledgerEnd - baseOffset > options.maxOffsetGap.getD deltaDefaultMaxOffsetGap then .ok none
      else
        match patchStoredWindow locale options base baseOffset ledgerEnd answers with
        | none => .ok none
        | some rows =>
            match writeStored scope (toString ledgerEnd) rows with
            | .error _ => .ok none
            | .ok written => .ok (some written)
  | _, _, _ => .ok none

/-- The snapshot that `fullRefreshAsync` writes. -/
def fullStored (scope : StoreScope) (pages : List ActiveContractsPage) : Checked MaterializedSnapshot := do
  let (activeAtOffset, activeContracts) ← readActiveContracts none [] pages
  let rows ← storedRows locale activeContracts
  writeStored scope activeAtOffset (rows.1.map ContractRow.stored, rows.2)

end Refresh

end CantonSdk.Query.Grpc
