import CantonSdk.DamlLf.Interpreter.BuiltinDispatch
import CantonSdk.DamlLf.Interpreter.Expression

/-!
# Values of the ledger in the evaluator

How the evaluator turns a runtime value into a value of the host and back, and how it reads and writes the records
of the ledger: by the name of a field, or by its place in the type that the record carries. What it makes of a
function differs from what the built-in functions make of it: only the kind of the function is left.
-/

set_option linter.all false

namespace CantonSdk.DamlLf.Interpreter

open CantonSdk.Base

variable {κ : Type}

/-! ## Reading values of the host -/

/-- The properties of what is an object and no array. -/
def Raw.properties? : Raw κ → Option (List (String × Raw κ))
  | .object properties => some properties
  | .runtime _ => some []
  | _ => none

/-- `value ?? other`. -/
def Raw.orElse : Raw κ → Raw κ → Raw κ
  | .undefined, other => other
  | .null, other => other
  | value, _ => value

def Raw.isUndefined : Raw κ → Bool
  | .undefined => true
  | _ => false

/-- `fieldName in rawValue`. -/
def hasProperty (properties : List (String × Raw κ)) (name : String) : Bool :=
  (properties.lookup name).isSome || inheritedNames.contains name

/-- What a protobuf value of the given kind holds. -/
def readSum (oneofKind : String) : Raw κ → Option String
  | .object properties =>
      match properties.lookup "sum" with
      | some sum => if readMarker "oneofKind" sum = some oneofKind then readMarker oneofKind sum else none
      | none => none
  | _ => none

def readEmbeddedContractId (value : Raw κ) : Option String :=
  (readMarker contractIdMarkerKey value).or (readSum "contractId" value)

def readEmbeddedContractIdArray : Raw κ → Option (List String)
  | .array items => if items.isEmpty then none else items.mapM readEmbeddedContractId
  | _ => none

def readEmbeddedParty (value : Raw κ) : Option String :=
  (readMarker partyMarkerKey value).or (readSum "party" value)

def hydrateRuntimeValue (value : Raw κ) (contractId : Option String) : RuntimeValue κ :=
  match value with
  | .undefined => .unit
  | .null => .unit
  | .string value => .text value
  | .boolean value => .boolean value
  | value =>
      match readEmbeddedContractId value with
      | some embeddedContractId => .contractId embeddedContractId
      | none =>
      match readEmbeddedContractIdArray value with
      | some embeddedContractIdArray => .contractIds embeddedContractIdArray
      | none =>
      match readEmbeddedParty value with
      | some embeddedParty => .party embeddedParty
      | none =>
      match readMarker "__damlLfInt64" value with
      | some integer => .int64 integer
      | none =>
      match readMarker numericMarkerKey value with
      | some numeric => .numeric numeric
      | none => .ledgerValue value contractId

/-! ## Unwrapping -/

mutual

def unwrapRuntimeValue : RuntimeValue κ → Raw κ
  | .record fields => .object (assigned (unwrapRecordFields fields))
  | .contractIds value => .array (value.map fun contractId => .object [(contractIdMarkerKey, .string contractId)])
  | .contractId value => .object [(contractIdMarkerKey, .string value)]
  | .party value => .object [(partyMarkerKey, .string value)]
  | .builtin .textmapEmpty _ => .object []
  | .builtin .genmapEmpty _ => .array []
  | .builtin _ _ => .string "builtin"
  | .closure _ => .string "closure"
  | .unit => .null
  | .boolean value => .boolean value
  | .text value => .string value
  | .numeric value => .string value
  | .int64 value => .string value
  | .ledgerValue value _ => value

def unwrapRecordFields : List (String × RuntimeValue κ) → List (String × Raw κ)
  | [] => []
  | (name, value) :: fields => (name, unwrapRuntimeValue value) :: unwrapRecordFields fields

end

mutual

/-- What `canProjectRecordAsLedgerValue` asks of every field. -/
def canProjectValue : RuntimeValue κ → Bool
  | .record fields => canProjectRecordAsLedgerValue fields
  | .closure _ => false
  | .builtin _ _ => false
  | _ => true

def canProjectRecordAsLedgerValue : List (String × RuntimeValue κ) → Bool
  | [] => true
  | (_, value) :: fields => canProjectValue value && canProjectRecordAsLedgerValue fields

end

def createRecordRuntimeValue (fields : List (String × RuntimeValue κ)) : RuntimeValue κ :=
  if canProjectRecordAsLedgerValue fields then
    hydrateRuntimeValue (.object (assigned (unwrapRecordFields fields))) none
  else .record fields

def readContractId : RuntimeValue κ → Except HostError String
  | .contractId value => .ok value
  | .text value => .ok value
  | .ledgerValue _ (some contractId) => .ok contractId
  | value => .error (.validation s!"daml lf expected a contract id-compatible value, got '{value.kind}'")

def readRuntimeListOrThrow : RuntimeValue κ → Except HostError (List (RuntimeValue κ))
  | .contractIds value => .ok (value.map .contractId)
  | .ledgerValue (.array items) _ => .ok (items.map fun item => hydrateRuntimeValue item none)
  | value => .error (.validation s!"daml lf expected a list-compatible value, got '{value.kind}'")

/-! ## Records with a type -/

section Records

-- `getRecordFieldsOrThrow` of the semantic model; there are none where it throws
variable (getRecordFields : TypeConReference → Option (List DamlLfField))

/-- What the record identifier of a value refers to. -/
def typedRecordId : Raw κ → Option TypeConReference
  | .undefined => none
  | .null => none
  | .boolean _ => none
  | .number _ => none
  | .string _ => none
  | .inherited _ => none
  | recordId =>
      some ⟨(readMarker "packageId" recordId).getD "", (readMarker "moduleName" recordId).getD "",
        (readMarker "entityName" recordId).getD ""⟩

/-- The place and the type of a field, by the type that the record carries. -/
def resolveSemanticRecordField (rawValue : List (String × Raw κ)) (fieldName : String) : Option (Nat × DamlLfType) := do
  let reference ← typedRecordId (readProperty rawValue recordIdMarkerKey)
  let fields ← getRecordFields reference
  let semanticIndex ← fields.findIdx? fun field => field.name = fieldName
  let field ← fields[semanticIndex]?
  return (semanticIndex, field.type)

def attachSemanticRecordId (value : Raw κ) (typeConReference : Option TypeConReference) : Raw κ :=
  match typeConReference, value with
  | some reference, .object properties =>
      if hasProperty properties recordIdMarkerKey then value
      else
        .object (assigned (properties ++ [(recordIdMarkerKey, .object [("packageId", .string reference.packageId),
          ("moduleName", .string reference.moduleName), ("entityName", .string reference.name)])]))
  | _, _ => value

def coerceSemanticFieldValue (value : Raw κ) (builtinType : DamlLfBuiltinType) : Raw κ :=
  match builtinType, value with
  | .int64, .string text => .object [("__damlLfInt64", .string text)]
  | .party, .string text => .object [(partyMarkerKey, .string text)]
  | _, _ => value

def readLedgerRecordField (rawValue : List (String × Raw κ)) (fieldName : String) : Raw κ :=
  match resolveSemanticRecordField getRecordFields rawValue fieldName with
  | none => if hasProperty rawValue fieldName then readProperty rawValue fieldName else .undefined
  | some (index, type) =>
      let name := if hasProperty rawValue fieldName then fieldName else toString index
      coerceSemanticFieldValue (attachSemanticRecordId (readProperty rawValue name) type.typeConReference) type.builtinType

/-- `createLedgerRecordFieldUpdate`: the property that is written. -/
def createLedgerRecordFieldUpdate (rawValue : List (String × Raw κ)) (fieldName : String) (nextValue : Raw κ) :
    String × Raw κ :=
  if hasProperty rawValue fieldName then (fieldName, nextValue)
  else
    match resolveSemanticRecordField getRecordFields rawValue fieldName with
    | none => (fieldName, nextValue)
    | some (index, _) => (toString index, nextValue)

/-! ### Normalizing the argument of a create -/

/-- The value that a record has for a field, under its name or its place, as it comes out normalized. -/
def directOrPositional (normalized : String → Option TypeConReference → Raw κ) (index : Nat) (field : DamlLfField) : Raw κ :=
  let directValue := normalized field.name field.type.typeConReference
  if directValue.isUndefined then normalized (toString index) field.type.typeConReference else directValue

/-- The fields of the type that a record has, normalized and under their names. -/
def normalizedFields (normalized : String → Option TypeConReference → Raw κ) : Nat → List DamlLfField → List (String × Raw κ)
  | _, [] => []
  | index, field :: fields =>
      let nextValue := directOrPositional normalized index field
      if nextValue.isUndefined then normalizedFields normalized (index + 1) fields
      else (field.name, nextValue) :: normalizedFields normalized (index + 1) fields

/-- The keys that were read as fields of the type. -/
def consumedKeys (normalized : String → Option TypeConReference → Raw κ) : Nat → List DamlLfField → List String
  | _, [] => []
  | index, field :: fields =>
      if (directOrPositional normalized index field).isUndefined then consumedKeys normalized (index + 1) fields
      else field.name :: toString index :: consumedKeys normalized (index + 1) fields

mutual

def normalizeSemanticRecordValue : Raw κ → Option TypeConReference → Raw κ
  | .object rawValue, some reference =>
      match getRecordFields reference with
      | none => .object rawValue
      | some fields =>
          let properties := normalizeProperties rawValue
          let normalized := fun name typeConReference =>
            match properties.lookup name with
            | some value => value typeConReference
            | none => readProperty [] name
          let consumed := consumedKeys normalized 0 fields
          .object (assigned (normalizedFields normalized 0 fields
            ++ rawValue.filter fun property => !consumed.contains property.1))
  | value, _ => value

/-- Every property, as it is normalized once the type is known. -/
def normalizeProperties : List (String × Raw κ) → List (String × (Option TypeConReference → Raw κ))
  | [] => []
  | (name, value) :: properties => (name, normalizeSemanticRecordValue value) :: normalizeProperties properties

end

end Records

end CantonSdk.DamlLf.Interpreter
