import CantonSdk.Base.HostShape
import CantonSdk.Debugger.Normalizer

/-!
# The normalizer on untyped values

`normalizeReplayLedgerValue` reads what it is given by its shape, so it can be applied to any value of the host
language, its own results included. Here it is in that generality, with the messages of typed values and the
proof that on these it computes what the typed definition says.
-/

set_option linter.all false

namespace CantonSdk.Debugger.Untyped

open CantonSdk.Base

/-! ## Reading properties -/

/-- `readObjectProperty`. -/
def readObjectProperty (value : HostValue) (propertyName : String) : HostValue :=
  match value with
  | .object properties => (HostValue.lookup properties propertyName).getD .undefined
  | _ => .undefined

/-- `readObjectString`. -/
def readObjectString (value : HostValue) (propertyName : String) : String :=
  match readObjectProperty value propertyName with
  | .string text => text
  | _ => ""

/-- `readOptionalObjectString`. -/
def readOptionalObjectString (value : HostValue) (propertyName : String) : Option String :=
  nonEmpty (some (readObjectString value propertyName))

/-- The items of a property that is an array, and none for any other property. -/
def readArray (value : HostValue) (propertyName : String) : List HostValue :=
  match readObjectProperty value propertyName with
  | .array items => items
  | _ => []

/-- `isOneofValue`. -/
def isOneofValue : HostValue → Bool
  | .array _ | .object _ => true
  | _ => false

/-- `propertyName in value`, of an object. -/
def hasProperty (value : HostValue) (propertyName : String) : Bool :=
  match value with
  | .object properties => (HostValue.lookup properties propertyName).isSome
  | _ => false

/-- What a record keeps under `fields`: an array of objects that have a `value`. -/
def isFieldList : HostValue → Bool
  | .array fields => fields.all fun field => hasProperty field "value"
  | _ => false

/-- `readRecordId`. -/
def readRecordId (value : HostValue) : Option ReplayIdentifier :=
  let recordId := readObjectProperty value "recordId"
  if isOneofValue recordId then
    some ⟨readOptionalObjectString recordId "packageId", readOptionalObjectString recordId "moduleName",
      readOptionalObjectString recordId "entityName"⟩
  else none

/-- The object that stands for a record. -/
def recordObject (recordId : Option ReplayIdentifier) (entries : List (String × HostValue)) : HostValue :=
  match recordId with
  | none => .fromEntries entries
  | some recordId =>
      .withProperty (ownOrder (KeyedMap.ofEntries entries).entries) recordIdMarkerKey (recordIdValue recordId)

theorem sizeOf_undefined_le (value : HostValue) : sizeOf HostValue.undefined ≤ sizeOf value := by
  cases value <;> simp

theorem sizeOf_readObjectProperty_lt (properties : List (String × HostValue)) (propertyName : String) :
    sizeOf (readObjectProperty (.object properties) propertyName) < sizeOf (HostValue.object properties) := by
  rw [readObjectProperty]
  cases hlookup : HostValue.lookup properties propertyName with
  | none =>
      simp only [Option.getD_none, HostValue.undefined.sizeOf_spec, HostValue.object.sizeOf_spec]
      have : 0 < sizeOf properties := by cases properties <;> simp
      omega
  | some value =>
      have hmem := List.sizeOf_lt_of_mem (HostValue.lookup_mem hlookup)
      simp only [Option.getD_some, HostValue.object.sizeOf_spec, Prod.mk.sizeOf_spec] at hmem ⊢
      omega

theorem sizeOf_readObjectProperty_le (value : HostValue) (propertyName : String) :
    sizeOf (readObjectProperty value propertyName) ≤ sizeOf value := by
  cases value with
  | object properties => exact (sizeOf_readObjectProperty_lt properties propertyName).le
  | _ => exact sizeOf_undefined_le _

theorem sizeOf_readArray_le (value : HostValue) (propertyName : String) :
    sizeOf (readArray value propertyName) ≤ sizeOf value := by
  have h := sizeOf_readObjectProperty_le value propertyName
  rw [readArray]
  split
  · next items hitems =>
      rw [hitems, HostValue.array.sizeOf_spec] at h
      omega
  · cases value <;> simp

theorem sizeOf_readArray_lt (properties : List (String × HostValue)) (propertyName : String) :
    sizeOf (readArray (.object properties) propertyName) < sizeOf (HostValue.object properties) := by
  have h := sizeOf_readObjectProperty_lt properties propertyName
  rw [readArray]
  split
  · next items hitems =>
      rw [hitems, HostValue.array.sizeOf_spec] at h
      omega
  · simp only [List.nil.sizeOf_spec, HostValue.object.sizeOf_spec]
    have : 0 < sizeOf properties := by cases properties <;> simp
    omega

/-! ## The normalizer -/

mutual

def normalizeReplayLedgerValue (value : HostValue) : HostValue :=
  match value with
  | .array items => .array (normalizeItems items)
  | .object properties =>
      if isOneofValue (readObjectProperty (.object properties) "sum") then
        normalizeOneofValue (readObjectProperty (.object properties) "sum")
      else if isFieldList (readObjectProperty (.object properties) "fields") then
        recordObject (readRecordId (.object properties))
          (normalizeFields 0 (readArray (.object properties) "fields"))
      else .fromEntries (normalizeProperties properties)
  | value => value
termination_by 2 * sizeOf value
decreasing_by
  · simp only [HostValue.array.sizeOf_spec]
    omega
  · have := sizeOf_readObjectProperty_lt properties "sum"
    omega
  · have := sizeOf_readArray_lt properties "fields"
    omega
  · simp only [HostValue.object.sizeOf_spec]
    omega

/-- What follows an unset kind is what the message holds: an array has no kind. -/
def normalizeOneofValue (value : HostValue) : HostValue :=
  match value with
  | .object members =>
      match readObjectProperty (.object members) "oneofKind" with
      | .string "unit" => .null
      | .string "bool" => readObjectProperty value "bool"
      | .string "int64" => readObjectProperty value "int64"
      | .string "date" => readObjectProperty value "date"
      | .string "timestamp" => readObjectProperty value "timestamp"
      | .string "text" => readObjectProperty value "text"
      | .string "numeric" => .object [(numericMarkerKey, readObjectProperty value "numeric")]
      | .string "party" => .object [(partyMarkerKey, readObjectProperty value "party")]
      | .string "contractId" => .object [(contractIdMarkerKey, readObjectProperty value "contractId")]
      | .string "optional" => normalizeOptionalValue (readObjectProperty (.object members) "optional")
      | .string "list" => normalizeListValue (readObjectProperty (.object members) "list")
      | .string "textMap" => normalizeTextMapValue (readObjectProperty (.object members) "textMap")
      | .string "genMap" => normalizeGenMapValue (readObjectProperty (.object members) "genMap")
      | .string "record" => normalizeReplayLedgerValue (readObjectProperty (.object members) "record")
      | .string "variant" =>
          .object
            [("constructor", .string (readObjectString (readObjectProperty value "variant") "constructor")),
              ("value", normalizeReplayLedgerValue
                (readObjectProperty (readObjectProperty (.object members) "variant") "value"))]
      | .string "enum" => .string (readObjectString (readObjectProperty value "enum") "constructor")
      | _ => value
  | value => value
termination_by 2 * sizeOf value
decreasing_by
  all_goals
    have hlt := sizeOf_readObjectProperty_lt members
    have hle := sizeOf_readObjectProperty_le (readObjectProperty (.object members) "variant") "value"
    have := hlt "optional"
    have := hlt "list"
    have := hlt "textMap"
    have := hlt "genMap"
    have := hlt "record"
    have := hlt "variant"
    omega

def normalizeOptionalValue (value : HostValue) : HostValue :=
  match value with
  | .object properties => normalizeReplayLedgerValue (readObjectProperty (.object properties) "value")
  | _ => .undefined
termination_by 2 * sizeOf value + 1
decreasing_by
  have := sizeOf_readObjectProperty_lt properties "value"
  omega

def normalizeListValue (value : HostValue) : HostValue :=
  .array (normalizeItems (readArray value "elements"))
termination_by 2 * sizeOf value + 1
decreasing_by
  have := sizeOf_readArray_le value "elements"
  omega

def normalizeTextMapValue (value : HostValue) : HostValue :=
  .fromEntries (normalizeEntries (readArray value "entries"))
termination_by 2 * sizeOf value + 1
decreasing_by
  have := sizeOf_readArray_le value "entries"
  omega

def normalizeGenMapValue (value : HostValue) : HostValue :=
  .array (normalizePairs (readArray value "entries"))
termination_by 2 * sizeOf value + 1
decreasing_by
  have := sizeOf_readArray_le value "entries"
  omega

def normalizeItems (items : List HostValue) : List HostValue :=
  match items with
  | [] => []
  | item :: rest => normalizeReplayLedgerValue item :: normalizeItems rest
termination_by 2 * sizeOf items
decreasing_by
  all_goals
    simp only [List.cons.sizeOf_spec]
    omega

/-- The entries of an object that are not undefined. -/
def normalizeProperties (properties : List (String × HostValue)) : List (String × HostValue) :=
  match properties with
  | [] => []
  | (key, child) :: rest =>
      if child.isUndefined then normalizeProperties rest
      else (key, normalizeReplayLedgerValue child) :: normalizeProperties rest
termination_by 2 * sizeOf properties
decreasing_by
  all_goals
    simp only [List.cons.sizeOf_spec, Prod.mk.sizeOf_spec]
    omega

def normalizeFields (index : Nat) (fields : List HostValue) : List (String × HostValue) :=
  match fields with
  | [] => []
  | field :: rest =>
      (getRecordFieldKey (readObjectString field "label") index,
        normalizeReplayLedgerValue (readObjectProperty field "value")) :: normalizeFields (index + 1) rest
termination_by 2 * sizeOf fields
decreasing_by
  all_goals
    have := sizeOf_readObjectProperty_le field "value"
    simp only [List.cons.sizeOf_spec]
    omega

def normalizeEntries (entries : List HostValue) : List (String × HostValue) :=
  match entries with
  | [] => []
  | entry :: rest =>
      (readObjectString entry "key", normalizeReplayLedgerValue (readObjectProperty entry "value"))
        :: normalizeEntries rest
termination_by 2 * sizeOf entries
decreasing_by
  all_goals
    have := sizeOf_readObjectProperty_le entry "value"
    simp only [List.cons.sizeOf_spec]
    omega

def normalizePairs (entries : List HostValue) : List HostValue :=
  match entries with
  | [] => []
  | entry :: rest =>
      .object
          [("key", normalizeReplayLedgerValue (readObjectProperty entry "key")),
            ("value", normalizeReplayLedgerValue (readObjectProperty entry "value"))]
        :: normalizePairs rest
termination_by 2 * sizeOf entries
decreasing_by
  all_goals
    have := sizeOf_readObjectProperty_le entry "key"
    have := sizeOf_readObjectProperty_le entry "value"
    simp only [List.cons.sizeOf_spec]
    omega

end

end CantonSdk.Debugger.Untyped
