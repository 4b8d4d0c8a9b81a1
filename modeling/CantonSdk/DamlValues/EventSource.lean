import Mathlib.Algebra.Order.Ring.Rat
import Mathlib.Data.List.Lemmas

/-!
# Payloads of created events

`freezeCreatedValueSource` is given the payload of a created event. The payload of an event message is a record
message. The payload of an event that was read as JSON is either the JSON form of a record message or the JSON of a
template record, and it is told by its shape which of the two it is. Frozen copies are the values themselves here.
-/

set_option linter.all false

namespace CantonSdk.DamlValues.EventSource

/-! ## Values -/

inductive Json
  | null
  | bool (value : Bool)
  | number (value : ℚ)
  | string (value : String)
  | array (items : List Json)
  | object (properties : List (String × Json))

abbrev Properties := List (String × Json)

structure Identifier where
  packageId : String
  moduleName : String
  entityName : String
  deriving DecidableEq

/-- `Value` of the Ledger API, whose sum is set. -/
inductive Value
  | unit
  | bool (value : Bool)
  | int64 (value : String)
  | date (value : Int)
  | timestamp (value : String)
  | numeric (value : String)
  | party (value : String)
  | text (value : String)
  | contractId (value : String)
  | optional (value : Option Value)
  | list (elements : List Value)
  | textMap (entries : List (String × Value))
  | genMap (entries : List (Value × Value))
  | record (recordId : Option Identifier) (fields : List (String × Value))
  | variant (variantId : Option Identifier) (constructor_ : String) (value : Value)
  | enum (enumId : Option Identifier) (constructor_ : String)

structure Record where
  recordId : Option Identifier
  fields : List (String × Value)

/-- The value whose sum is the record. -/
def Record.toValue (record : Record) : Value := .record record.recordId record.fields

/-- `DamlValueSource`. -/
inductive ValueSource
  | protobuf (value : Value)
  | json (value : Json)

/-- The payload of an event, with the encoding that the event was recognized in. -/
inductive EncodedPayload
  | protobuf (record : Record)
  | json (value : Json)

/-! ## Properties -/

def asObject : Json → Option Properties
  | .object properties => some properties
  | _ => none

def hasOnlyKeys (value : Properties) (keys : List String) : Bool :=
  value.all fun property => decide (property.1 ∈ keys)

def isAbsentOr (value : Properties) (key : String) (predicate : Json → Bool) : Bool :=
  match value.lookup key with
  | none => true
  | some property => predicate property

/-- A predicate that does not hold of `undefined`, at a property of the object. -/
def isPresent (value : Properties) (key : String) (predicate : Json → Bool) : Bool :=
  match value.lookup key with
  | none => false
  | some property => predicate property

def isString : Json → Bool
  | .string _ => true
  | _ => false

def isBoolean : Json → Bool
  | .bool _ => true
  | _ => false

/-- `Number.MAX_SAFE_INTEGER`. -/
def maxSafeInteger : Int := 9007199254740991

/-- `typeof value === "number" && Number.isSafeInteger(value)`. -/
def isSafeInteger : Json → Bool
  | .number value => decide (value.den = 1 ∧ -maxSafeInteger ≤ value.num ∧ value.num ≤ maxSafeInteger)
  | _ => false

/-- `Array.isArray(value) && value.every(predicate)`. -/
def isArrayOf (predicate : Json → Bool) : Json → Bool
  | .array items => items.all predicate
  | _ => false

def isEmptyJsonObject (value : Json) : Bool :=
  match asObject value with
  | none => false
  | some json => json.isEmpty

def isIdentifierJson (value : Json) : Bool :=
  match asObject value with
  | none => false
  | some identifier =>
      hasOnlyKeys identifier ["packageId", "moduleName", "entityName"]
        && isPresent identifier "packageId" isString
        && isPresent identifier "moduleName" isString
        && isPresent identifier "entityName" isString

/-! ## The cases of a value -/

/-- The members of the sum of a value. -/
inductive ValueCase
  | unit | bool | int64 | date | timestamp | numeric | party | text | contractId | optional | list | textMap | genMap
  | record | variant | enum
  deriving DecidableEq

def ValueCase.key : ValueCase → String
  | .unit => "unit"
  | .bool => "bool"
  | .int64 => "int64"
  | .date => "date"
  | .timestamp => "timestamp"
  | .numeric => "numeric"
  | .party => "party"
  | .text => "text"
  | .contractId => "contractId"
  | .optional => "optional"
  | .list => "list"
  | .textMap => "textMap"
  | .genMap => "genMap"
  | .record => "record"
  | .variant => "variant"
  | .enum => "enum"

/-- `VALUE_JSON_VARIANTS`. -/
def valueJsonVariants : List ValueCase :=
  [.unit, .bool, .int64, .date, .timestamp, .numeric, .party, .text, .contractId, .optional, .list, .textMap, .genMap,
    .record, .variant, .enum]

def variantOf (key : String) : Option ValueCase := valueJsonVariants.find? fun valueCase => decide (valueCase.key = key)

/-! ## Recognizers -/

section Recognizers

variable (isValueJson : Json → Bool)

def isRecordFieldJson (value : Json) : Bool :=
  match asObject value with
  | none => false
  | some field =>
      hasOnlyKeys field ["label", "value"] && isAbsentOr field "label" isString && isPresent field "value" isValueJson

def isOptionalJson (value : Json) : Bool :=
  match asObject value with
  | none => false
  | some json => hasOnlyKeys json ["value"] && isAbsentOr json "value" isValueJson

def isListJson (value : Json) : Bool :=
  match asObject value with
  | none => false
  | some json => hasOnlyKeys json ["elements"] && isAbsentOr json "elements" (isArrayOf isValueJson)

def isTextMapEntryJson (entry : Json) : Bool :=
  match asObject entry with
  | none => false
  | some item =>
      hasOnlyKeys item ["key", "value"] && isPresent item "key" isString && isPresent item "value" isValueJson

def isTextMapJson (value : Json) : Bool :=
  match asObject value with
  | none => false
  | some json =>
      hasOnlyKeys json ["entries"] && isAbsentOr json "entries" (isArrayOf (isTextMapEntryJson isValueJson))

def isGenMapEntryJson (entry : Json) : Bool :=
  match asObject entry with
  | none => false
  | some item =>
      hasOnlyKeys item ["key", "value"] && isPresent item "key" isValueJson && isPresent item "value" isValueJson

def isGenMapJson (value : Json) : Bool :=
  match asObject value with
  | none => false
  | some json =>
      hasOnlyKeys json ["entries"] && isAbsentOr json "entries" (isArrayOf (isGenMapEntryJson isValueJson))

def isNestedRecordJson (value : Json) : Bool :=
  match asObject value with
  | none => false
  | some record =>
      hasOnlyKeys record ["recordId", "fields"]
        && isAbsentOr record "recordId" isIdentifierJson
        && isAbsentOr record "fields" (isArrayOf (isRecordFieldJson isValueJson))

def isVariantJson (value : Json) : Bool :=
  match asObject value with
  | none => false
  | some variant =>
      hasOnlyKeys variant ["variantId", "constructor", "value"]
        && isAbsentOr variant "variantId" isIdentifierJson
        && isPresent variant "constructor" isString
        && isPresent variant "value" isValueJson

def isEnumJson (value : Json) : Bool :=
  match asObject value with
  | none => false
  | some enumValue =>
      hasOnlyKeys enumValue ["enumId", "constructor"]
        && isAbsentOr enumValue "enumId" isIdentifierJson
        && isPresent enumValue "constructor" isString

/-- What stands at the only key of a value, which is one of the variants. -/
def isVariantContent : ValueCase → Json → Bool
  | .unit => isEmptyJsonObject
  | .bool => isBoolean
  | .int64 | .timestamp | .numeric | .party | .text | .contractId => isString
  | .date => isSafeInteger
  | .optional => isOptionalJson isValueJson
  | .list => isListJson isValueJson
  | .textMap => isTextMapJson isValueJson
  | .genMap => isGenMapJson isValueJson
  | .record => isNestedRecordJson isValueJson
  | .variant => isVariantJson isValueJson
  | .enum => isEnumJson

/-- The body of `isValueJson`, with what it calls again. -/
def isValueJsonStep (value : Json) : Bool :=
  match asObject value with
  | some [(key, content)] =>
      match variantOf key with
      | some valueCase => isVariantContent isValueJson valueCase content
      | none => false
  | _ => false

end Recognizers

mutual

/-- How deep arrays and objects stand in each other. -/
def Json.depth : Json → Nat
  | .array items => depthOfItems items + 1
  | .object properties => depthOfProperties properties + 1
  | _ => 0

def depthOfItems : List Json → Nat
  | [] => 0
  | item :: items => max item.depth (depthOfItems items)

def depthOfProperties : List (String × Json) → Nat
  | [] => 0
  | (_, value) :: properties => max value.depth (depthOfProperties properties)

end

/-- `isValueJson`, followed to a given depth of the value. -/
def isValueJsonWithin : Nat → Json → Bool
  | 0 => fun _ => false
  | depth + 1 => isValueJsonStep (isValueJsonWithin depth)

def isValueJson (value : Json) : Bool := isValueJsonWithin value.depth value

def isRecordWireJson (value : Json) : Bool :=
  match asObject value with
  | none => false
  | some record =>
      hasOnlyKeys record ["recordId", "fields"]
        && isAbsentOr record "recordId" isIdentifierJson
        && isPresent record "fields" (isArrayOf (isRecordFieldJson isValueJson))

/-! ## The source of a payload -/

/-- `freezeCreatedValueSource`, where `fromJson` reads the JSON form of a `Value`, or throws. -/
def freezeCreatedValueSource {ε : Type} (fromJson : Json → Except ε Value) :
    EncodedPayload → Except ε ValueSource
  | .protobuf record => .ok (.protobuf record.toValue)
  | .json value =>
      if isRecordWireJson value then (fromJson (.object [("record", value)])).map .protobuf
      else .ok (.json value)

end CantonSdk.DamlValues.EventSource
