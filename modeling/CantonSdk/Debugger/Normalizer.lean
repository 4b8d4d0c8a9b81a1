import CantonSdk.Base.HostValue
import CantonSdk.Base.Related
import CantonSdk.Base.Worklist

/-!
# Ledger values of a replay

`normalizeReplayLedgerValue` turns the values of Ledger API messages into untyped host values, in which a
contract id, a party, a numeric and the type of a record are told by marker keys. The ids that a replay
follows are collected from the untyped value, by its shape. Where no label and no text map key is itself a
marker, the collection finds the ids of the typed value and nothing else.
-/

set_option linter.all false

namespace CantonSdk.Debugger

open CantonSdk.Base

structure ReplayIdentifier where
  packageId : Option String
  moduleName : Option String
  entityName : Option String

/-- A value of the Ledger API. A record message stands for the value of the record. -/
inductive LedgerValue
  | unit
  | bool (value : Bool)
  | int64 (value : String)
  | date (value : Int)
  | timestamp (value : String)
  | numeric (value : String)
  | party (value : String)
  | text (value : String)
  | contractId (value : String)
  | optional (value : Option LedgerValue)
  | list (elements : List LedgerValue)
  | textMap (entries : List (String × LedgerValue))
  | genMap (entries : List (LedgerValue × LedgerValue))
  | record (recordId : Option ReplayIdentifier) (fields : List (String × LedgerValue))
  | variant (constructor_ : String) (value : LedgerValue)
  | enum (constructor_ : String)

def contractIdMarkerKey : String := "__damlLfContractId"
def numericMarkerKey : String := "__damlLfNumeric"
def partyMarkerKey : String := "__damlLfParty"
def recordIdMarkerKey : String := "__damlLfRecordId"

/-! ## Normalization -/

/-- `getRecordFieldKey`. -/
def getRecordFieldKey (label : String) (index : Nat) : String :=
  if label.isEmpty then toString index else label

def optionalString : Option String → HostValue
  | some text => .string text
  | none => .undefined

def recordIdValue (recordId : ReplayIdentifier) : HostValue :=
  .object [("packageId", optionalString recordId.packageId), ("moduleName", optionalString recordId.moduleName),
    ("entityName", optionalString recordId.entityName)]

/-- `readOptionalObjectString`, of the parts of an identifier. -/
def nonEmpty (text : Option String) : Option String := text.filter fun text => !text.isEmpty

/-- `readRecordId`. -/
def readRecordId (recordId : ReplayIdentifier) : ReplayIdentifier :=
  ⟨nonEmpty recordId.packageId, nonEmpty recordId.moduleName, nonEmpty recordId.entityName⟩

/-- The object of a record, with the marker for its type where the message names one. -/
def recordValue (recordId : Option ReplayIdentifier) (entries : List (String × HostValue)) : HostValue :=
  let normalizedRecord := ownOrder (KeyedMap.ofEntries entries).entries
  match recordId with
  | none => .object normalizedRecord
  | some recordId =>
      .withProperty normalizedRecord recordIdMarkerKey (recordIdValue (readRecordId recordId))

mutual

def normalizeReplayLedgerValue : LedgerValue → HostValue
  | .unit => .null
  | .bool value => .bool value
  | .int64 value => .string value
  | .date value => .number value
  | .timestamp value => .string value
  | .numeric value => .object [(numericMarkerKey, .string value)]
  | .party value => .object [(partyMarkerKey, .string value)]
  | .text value => .string value
  | .contractId value => .object [(contractIdMarkerKey, .string value)]
  | .optional none => .undefined
  | .optional (some value) => normalizeReplayLedgerValue value
  | .list elements => .array (normalizeElements elements)
  | .textMap entries => .fromEntries (normalizeEntries entries)
  | .genMap entries => .array (normalizePairs entries)
  | .record recordId fields => recordValue recordId (normalizeFields 0 fields)
  | .variant constructor_ value =>
      .object [("constructor", .string constructor_), ("value", normalizeReplayLedgerValue value)]
  | .enum constructor_ => .string constructor_

def normalizeElements : List LedgerValue → List HostValue
  | [] => []
  | element :: rest => normalizeReplayLedgerValue element :: normalizeElements rest

def normalizeEntries : List (String × LedgerValue) → List (String × HostValue)
  | [] => []
  | (key, value) :: rest => (key, normalizeReplayLedgerValue value) :: normalizeEntries rest

def normalizePairs : List (LedgerValue × LedgerValue) → List HostValue
  | [] => []
  | (key, value) :: rest =>
      .object [("key", normalizeReplayLedgerValue key), ("value", normalizeReplayLedgerValue value)]
        :: normalizePairs rest

def normalizeFields (index : Nat) : List (String × LedgerValue) → List (String × HostValue)
  | [] => []
  | (label, value) :: rest =>
      (getRecordFieldKey label index, normalizeReplayLedgerValue value) :: normalizeFields (index + 1) rest

end

/-- `attachReplayRecordId`. -/
def attachReplayRecordId (value : HostValue) (recordId : Option ReplayIdentifier) : HostValue :=
  match value, recordId with
  | .object properties, some recordId =>
      if (HostValue.lookup properties recordIdMarkerKey).isSome then value
      else .withProperty properties recordIdMarkerKey (recordIdValue recordId)
  | _, _ => value

mutual

/-- The contract ids marked in a value, in the order in which `collectContractIdsInto` meets them. -/
def markedContractIds : HostValue → List String
  | .array items => markedInItems items
  | .object properties =>
      match HostValue.stringProperty properties contractIdMarkerKey with
      | some contractId => [contractId]
      | none => markedInProperties properties
  | _ => []

def markedInItems : List HostValue → List String
  | [] => []
  | item :: rest => markedContractIds item ++ markedInItems rest

def markedInProperties : List (String × HostValue) → List String
  | [] => []
  | (_, value) :: rest => markedContractIds value ++ markedInProperties rest

end

/-- `collectReplayLedgerContractIds`. -/
def collectReplayLedgerContractIds (value : HostValue) : List String :=
  (markedContractIds value).foldl addPending []

/-! ## The typed reading -/

mutual

/-- The contract ids that occur in a value, at any depth. -/
def LedgerValue.contractIds : LedgerValue → List String
  | .unit | .bool _ | .int64 _ | .date _ | .timestamp _ | .numeric _ | .party _ | .text _ | .enum _ => []
  | .contractId value => [value]
  | .optional none => []
  | .optional (some value) => value.contractIds
  | .list elements => contractIdsOfElements elements
  | .textMap entries => contractIdsOfEntries entries
  | .genMap entries => contractIdsOfPairs entries
  | .record _ fields => contractIdsOfEntries fields
  | .variant _ value => value.contractIds

def contractIdsOfElements : List LedgerValue → List String
  | [] => []
  | element :: rest => element.contractIds ++ contractIdsOfElements rest

def contractIdsOfEntries : List (String × LedgerValue) → List String
  | [] => []
  | (_, value) :: rest => value.contractIds ++ contractIdsOfEntries rest

def contractIdsOfPairs : List (LedgerValue × LedgerValue) → List String
  | [] => []
  | (key, value) :: rest => key.contractIds ++ value.contractIds ++ contractIdsOfPairs rest

end

/-- The keys under which the fields of a record are kept. -/
def fieldKeys (fields : List (String × LedgerValue)) : List String :=
  (normalizeFields 0 fields).map Prod.fst

mutual

/-- Values as a ledger holds them: the keys of a text map and the fields of a record are distinct, and no
contract id is empty. -/
def LedgerValue.isWellFormed : LedgerValue → Bool
  | .unit | .bool _ | .int64 _ | .date _ | .timestamp _ | .numeric _ | .party _ | .text _ | .enum _ => true
  | .contractId value => !value.isEmpty
  | .optional none => true
  | .optional (some value) => value.isWellFormed
  | .list elements => elementsWellFormed elements
  | .textMap entries => decide (entries.map Prod.fst).Nodup && entriesWellFormed entries
  | .genMap entries => pairsWellFormed entries
  | .record _ fields => decide (fieldKeys fields).Nodup && entriesWellFormed fields
  | .variant _ value => value.isWellFormed

def elementsWellFormed : List LedgerValue → Bool
  | [] => true
  | element :: rest => element.isWellFormed && elementsWellFormed rest

def entriesWellFormed : List (String × LedgerValue) → Bool
  | [] => true
  | (_, value) :: rest => value.isWellFormed && entriesWellFormed rest

def pairsWellFormed : List (LedgerValue × LedgerValue) → Bool
  | [] => true
  | (key, value) :: rest => key.isWellFormed && value.isWellFormed && pairsWellFormed rest

end

/-- Whether an object with these properties is taken for a contract id. -/
def isMarked (properties : List (String × HostValue)) : Bool :=
  (HostValue.stringProperty properties contractIdMarkerKey).isSome

mutual

/-- No text map and no record is taken for a contract id, and no field is overwritten by the marker for the
type of its record. -/
def LedgerValue.isReadable : LedgerValue → Bool
  | .unit | .bool _ | .int64 _ | .date _ | .timestamp _ | .numeric _ | .party _ | .text _ | .enum _
  | .contractId _ => true
  | .optional none => true
  | .optional (some value) => value.isReadable
  | .list elements => elementsReadable elements
  | .textMap entries => !isMarked (normalizeEntries entries) && entriesReadable entries
  | .genMap entries => pairsReadable entries
  | .record recordId fields =>
      !isMarked (normalizeFields 0 fields) && (recordId.isNone || !(fieldKeys fields).contains recordIdMarkerKey)
        && entriesReadable fields
  | .variant _ value => value.isReadable

def elementsReadable : List LedgerValue → Bool
  | [] => true
  | element :: rest => element.isReadable && elementsReadable rest

def entriesReadable : List (String × LedgerValue) → Bool
  | [] => true
  | (_, value) :: rest => value.isReadable && entriesReadable rest

def pairsReadable : List (LedgerValue × LedgerValue) → Bool
  | [] => true
  | (key, value) :: rest => key.isReadable && value.isReadable && pairsReadable rest

end

end CantonSdk.Debugger
