import CantonSdk.Base.HostValue
import CantonSdk.DamlValues.Descriptor

/-!
# Decoding values

`decode` reads a Ledger API value, or the JSON that query rows hold of one, at a type. The two sources share
the readings of integers, timestamps, numerics and parties, and each has its own traversal.
-/

set_option linter.all false

namespace CantonSdk.DamlValues

open CantonSdk.Base CantonSdk.Query.Canonical CantonSdk.Query.Grpc

inductive MaterializationError
  /-- `DamlMaterializationError`. -/
  | at (path detail : String)
  /-- The end of a bounded run. -/
  | outOfFuel
  deriving DecidableEq

abbrev Decoded (α : Type) := Except MaterializationError α

def materializationError {α : Type} (path detail : String) : Decoded α := .error (.at path detail)

def fieldPath (path propertyName : String) : String := path ++ "." ++ propertyName

def indexedPath (path : String) (index : Nat) : String := path ++ "[" ++ toString index ++ "]"

/-! ## Scalars -/

/-- `requireIntegerString`, with the integer that the text denotes. -/
def requireIntegerString (value path description : String) : Decoded Int :=
  match signedDecimal value with
  | some integer => .ok integer
  | none => materializationError path ("expected " ++ description ++ " integer string")

def decodeInt64 (value path : String) : Decoded DamlValue := do
  let int64 ← requireIntegerString value path "int64"
  if int64 < -9223372036854775808 ∨ int64 > 9223372036854775807 then
    materializationError path "int64 is outside the DAML ledger range"
  else .ok (.bigint int64)

def decodeDate (value : Int) (path : String) : Decoded DamlValue :=
  if value < -719162 ∨ value > 2932896 then
    materializationError path "date is outside the DAML ledger range"
  else .ok (.date value)

def decodeTimestamp (value path : String) : Decoded DamlValue := do
  let timestamp ← requireIntegerString value path "timestamp"
  if timestamp < -62135596800000000 ∨ timestamp > 253402300799999999 then
    materializationError path "timestamp is outside the DAML ledger range"
  else .ok (.timestamp value)

/-- The pattern `^[+-]?\d+(?:\.\d*)?$`: the digits before the point, and those after it. -/
def numericParts (value : String) : Option (List Char × List Char) :=
  let (whole, fraction) := splitPoint (dropSign value.toList)
  if whole.isEmpty || !whole.all Char.isDigit || !(fraction.getD []).all Char.isDigit then none
  else some (whole, fraction.getD [])

/-- `integerPart.replace(/^0+/, "") || "0"`. -/
def canonicalWhole (whole : List Char) : List Char :=
  if (whole.dropWhile fun c => c = '0').isEmpty then ['0'] else whole.dropWhile fun c => c = '0'

/-- `canonicalizeLedgerNumeric`, of text with these digits. -/
def canonicalizeLedgerNumeric (value : String) (whole fraction : List Char) : String :=
  let sign := if value.toList.head? = some '-' then ['-'] else []
  if fraction.isEmpty then String.ofList (sign ++ canonicalWhole whole)
  else String.ofList (sign ++ canonicalWhole whole ++ '.' :: fraction)

/-- `decodeNumeric`. What it canonicalizes is a value that the class of numerics accepts. -/
def decodeNumeric (value : String) (numericScale : Option Int) (path : String) : Decoded DamlValue :=
  match numericParts value with
  | none => materializationError path "invalid numeric"
  | some (whole, fraction) =>
      let maxScale := numericScale.getD 37
      if maxScale < 0 ∨ maxScale > 37 then materializationError path "numeric descriptor has an invalid scale"
      else if whole.length + fraction.length > 38 then
        materializationError path "numeric exceeds DAML ledger precision"
      else if (fraction.length : Int) > maxScale then materializationError path "numeric exceeds its DAML scale"
      else .ok (.numeric (canonicalizeLedgerNumeric value whole fraction))

def decodeParty (value path : String) : Decoded DamlValue :=
  if value.isEmpty then materializationError path "invalid party" else .ok (.party value)

/-! ## Descriptors -/

def mismatch {α : Type} (descriptor : DamlTypeDescriptor) (received path : String) : Decoded α :=
  materializationError path ("expected " ++ descriptor.kind ++ " but received " ++ received)

/-- `requirePrimitiveDescriptor`, with the scale of the descriptor. -/
def requirePrimitiveDescriptor (descriptor : DamlTypeDescriptor) (primitive : DamlPrimitiveType) (path : String) :
    Decoded (Option Int) :=
  match descriptor with
  | .primitive kind numericScale =>
      if kind = primitive then .ok numericScale else mismatch descriptor primitive.memberText path
  | _ => mismatch descriptor primitive.memberText path

section Traversal

-- the recursive call of a traversal
variable (decode : DamlValueSource → DamlTypeDescriptor → String → Decoded DamlValue)

/-! ## Ledger API values -/

def decodeRequiredProtobufValue (value : Option Value) (descriptor : DamlTypeDescriptor) (path : String) :
    Decoded DamlValue :=
  match value with
  | none => materializationError path "required value is absent"
  | some value => decode (.protobuf value) descriptor path

/-- A field of a labelled record. -/
def decodeLabelledField (fields : List (String × Option Value)) (path : String)
    (field : RecordField DamlTypeDescriptor) : Decoded (String × DamlValue) :=
  match fields.find? fun candidate => decide (candidate.1 = field.damlLabel) with
  | none => materializationError (fieldPath path field.propertyName) "required record field is absent"
  | some sourceField => do
      return (field.propertyName,
        ← decodeRequiredProtobufValue decode sourceField.2 field.type (fieldPath path field.propertyName))

/-- A field of a positional record, with the field at its place. -/
def decodePositionalField (path : String) (field : RecordField DamlTypeDescriptor × (String × Option Value)) :
    Decoded (String × DamlValue) := do
  return (field.1.propertyName,
    ← decodeRequiredProtobufValue decode field.2.2 field.1.type (fieldPath path field.1.propertyName))

def decodeProtobufRecord (fields : List (String × Option Value))
    (descriptorFields : List (RecordField DamlTypeDescriptor)) (path : String) : Decoded DamlValue :=
  if fields.all fun field => !field.1.isEmpty then
    if (fields.map Prod.fst).Nodup then do
      let output ← descriptorFields.mapM (decodeLabelledField decode fields path)
      if fields.length ≠ descriptorFields.length then
        materializationError path "record contains an unexpected field"
      else return .record (assigned output) none
    else materializationError path "record contains duplicate field labels"
  else if fields.all fun field => field.1.isEmpty then
    if fields.length ≠ descriptorFields.length then
      materializationError path "record has the wrong number of positional fields"
    else do
      let output ← (descriptorFields.zip fields).mapM (decodePositionalField decode path)
      return .record (assigned output) none
  else materializationError path "record fields mix labelled and positional encodings"

def decodeTextMapEntry (descriptor : DamlTypeDescriptor) (path : String) (index : Nat)
    (entry : String × Option Value) : Decoded (String × DamlValue) := do
  return (entry.1,
    ← decodeRequiredProtobufValue decode entry.2 descriptor (indexedPath path index ++ "." ++ entry.1))

def decodeGenMapEntry (key value : DamlTypeDescriptor) (path : String) (index : Nat)
    (entry : Option Value × Option Value) : Decoded (DamlValue × DamlValue) := do
  let decodedKey ← decodeRequiredProtobufValue decode entry.1 key (indexedPath path index ++ ".key")
  let decodedValue ← decodeRequiredProtobufValue decode entry.2 value (indexedPath path index ++ ".value")
  return (decodedKey, decodedValue)

def decodeProtobufValue (value : Value) (descriptor : DamlTypeDescriptor) (path : String) : Decoded DamlValue :=
  match value with
  | .unset => materializationError path "value is absent"
  | .unit => do
      let _ ← requirePrimitiveDescriptor descriptor .unit path
      return .unit
  | .bool value => do
      let _ ← requirePrimitiveDescriptor descriptor .bool path
      return .bool value
  | .int64 value => do
      let _ ← requirePrimitiveDescriptor descriptor .int64 path
      decodeInt64 value path
  | .date value => do
      let _ ← requirePrimitiveDescriptor descriptor .date path
      decodeDate value path
  | .timestamp value => do
      let _ ← requirePrimitiveDescriptor descriptor .timestamp path
      decodeTimestamp value path
  | .numeric value => do
      let numericScale ← requirePrimitiveDescriptor descriptor .numeric path
      decodeNumeric value numericScale path
  | .party value => do
      let _ ← requirePrimitiveDescriptor descriptor .party path
      decodeParty value path
  | .text value => do
      let _ ← requirePrimitiveDescriptor descriptor .text path
      return .string value
  | .contractId value =>
      match descriptor with
      | .contractId _ => .ok (.string value)
      | _ => mismatch descriptor "contractId" path
  | .optional value =>
      match descriptor with
      | .optional element =>
          match value with
          | none => .ok .undefined
          | some value => decode (.protobuf value) element path
      | _ => mismatch descriptor "optional" path
  | .list elements =>
      match descriptor with
      | .list element => do
          return .array (← mapIndexed
            (fun index item => decode (.protobuf item) element (indexedPath path index)) 0 elements)
      | _ => mismatch descriptor "list" path
  | .textMap entries =>
      match descriptor with
      | .textMap value => do return .textMap (← mapIndexed (decodeTextMapEntry decode value path) 0 entries)
      | _ => mismatch descriptor "textMap" path
  | .genMap entries =>
      match descriptor with
      | .genMap key value => do return .genMap (← mapIndexed (decodeGenMapEntry decode key value path) 0 entries)
      | _ => mismatch descriptor "genMap" path
  | .record fields =>
      match descriptor with
      | .record descriptorFields => decodeProtobufRecord decode fields descriptorFields path
      | _ => mismatch descriptor "record" path
  | .variant constructorName payload =>
      match descriptor with
      | .variant constructors =>
          match constructors.find? fun candidate => decide (candidate.constructorName = constructorName) with
          | none => materializationError path ("unknown variant constructor " ++ constructorName)
          | some found => do
              return .variant constructorName
                (← decodeRequiredProtobufValue decode payload found.payload (path ++ "." ++ constructorName)) none
      | _ => mismatch descriptor "variant" path
  | .enum constructorName =>
      match descriptor with
      | .enum constructors =>
          if constructorName ∈ constructors then .ok (.enum constructorName none)
          else materializationError path ("unknown enum constructor " ++ constructorName)
      | _ => mismatch descriptor "enum" path

/-! ## JSON values -/

def requireString (value : QueryValue) (path description : String) : Decoded String :=
  match value with
  | .text value => .ok value
  | _ => materializationError path ("expected " ++ description ++ " string")

def requireArray (value : QueryValue) (path description : String) : Decoded (List QueryValue) :=
  match value with
  | .array items => .ok items
  | _ => materializationError path ("expected " ++ description ++ " array")

/-- `requireObject`, with the own properties of the object in order. Dates show no properties, and bytes
show one for each byte. -/
def requireObject (value : QueryValue) (path description : String) : Decoded (List (String × QueryValue)) :=
  match value with
  | .object fields => .ok (ownOrder fields)
  | .date _ | .invalidDate => .ok []
  | .bytes bytes => .ok (bytes.mapIdx fun index byte => (toString index, .number byte.toNat))
  | _ => materializationError path ("expected " ++ description ++ " object")

/-- `Reflect.get(record, key)`, of an own property. -/
def ownProperty (record : List (String × QueryValue)) (key : String) : Option QueryValue :=
  (record.find? fun property => decide (property.1 = key)).map Prod.snd

def decodeJsonPrimitive (value : QueryValue) (primitive : DamlPrimitiveType) (numericScale : Option Int)
    (path : String) : Decoded DamlValue :=
  match primitive with
  | .unit => do
      let record ← requireObject value path "unit"
      if record.isEmpty then return .unit
      else materializationError path "unit must be an empty object"
  | .bool =>
      match value with
      | .bool value => .ok (.bool value)
      | _ => materializationError path "expected boolean"
  | .int64 => do decodeInt64 (← requireString value path "int64") path
  | .date =>
      match value with
      | .number value => decodeDate value path
      | _ => materializationError path "expected integer date"
  | .timestamp => do decodeTimestamp (← requireString value path "timestamp") path
  | .numeric => do decodeNumeric (← requireString value path "numeric") numericScale path
  | .party => do decodeParty (← requireString value path "party") path
  | .text => .string <$> requireString value path "text"

def decodeJsonTextMapEntry (descriptor : DamlTypeDescriptor) (path : String) (entry : String × QueryValue) :
    Decoded (String × DamlValue) := do
  return (entry.1, ← decode (.json entry.2) descriptor (fieldPath path entry.1))

def decodeJsonTextMap (value : QueryValue) (descriptor : DamlTypeDescriptor) (path : String) :
    Decoded DamlValue := do
  let record ← requireObject value path "text map"
  return .textMap (← record.mapM (decodeJsonTextMapEntry decode descriptor path))

def decodeJsonGenMapEntry (key value : DamlTypeDescriptor) (path : String) (index : Nat) (entry : QueryValue) :
    Decoded (DamlValue × DamlValue) := do
  let pair ← requireArray entry (indexedPath path index) "generic map entry"
  match pair with
  | [first, second] => do
      let decodedKey ← decode (.json first) key (indexedPath path index ++ ".key")
      let decodedValue ← decode (.json second) value (indexedPath path index ++ ".value")
      return (decodedKey, decodedValue)
  | _ => materializationError (indexedPath path index) "generic map entries must contain key and value"

def decodeJsonItemField (path : String) (field : RecordField DamlTypeDescriptor × QueryValue) :
    Decoded (String × DamlValue) := do
  return (field.1.propertyName, ← decode (.json field.2) field.1.type (fieldPath path field.1.propertyName))

def decodeJsonField (record : List (String × QueryValue)) (path : String)
    (field : RecordField DamlTypeDescriptor) : Decoded (String × DamlValue) :=
  match ownProperty record field.damlLabel with
  | none => materializationError (fieldPath path field.propertyName) "required record field is absent"
  | some value => do
      return (field.propertyName, ← decode (.json value) field.type (fieldPath path field.propertyName))

def decodeJsonRecord (value : QueryValue) (descriptorFields : List (RecordField DamlTypeDescriptor))
    (path : String) : Decoded DamlValue :=
  match value with
  | .array items =>
      if items.length ≠ descriptorFields.length then
        materializationError path "record has the wrong number of positional fields"
      else do
        let output ← (descriptorFields.zip items).mapM (decodeJsonItemField decode path)
        return .record (assigned output) none
  | _ => do
      let record ← requireObject value path "record"
      match record.find? fun property => !(descriptorFields.map RecordField.damlLabel).contains property.1 with
      | some property => materializationError path ("record contains unexpected field " ++ property.1)
      | none => do
          let output ← descriptorFields.mapM (decodeJsonField decode record path)
          return .record (assigned output) none

/-- `requireString(Reflect.get(envelope, "tag"), …)`. -/
def requireTag (envelope : List (String × QueryValue)) (path : String) : Decoded String :=
  match ownProperty envelope "tag" with
  | some tag => requireString tag path "variant tag"
  | none => materializationError path "expected variant tag string"

def decodeJsonVariant (value : QueryValue) (constructors : List (VariantConstructor DamlTypeDescriptor))
    (path : String) : Decoded DamlValue := do
  let envelope ← requireObject value path "variant"
  let tag ← requireTag envelope path
  match constructors.find? fun candidate => decide (candidate.constructorName = tag) with
  | none => materializationError path ("unknown variant constructor " ++ tag)
  | some found =>
      match ownProperty envelope "value" with
      | none => materializationError path "variant value is absent"
      | some payload => do
          return .variant tag (← decode (.json payload) found.payload (path ++ "." ++ tag)) none

def decodeJsonValue (value : QueryValue) (descriptor : DamlTypeDescriptor) (path : String) : Decoded DamlValue :=
  match descriptor with
  | .primitive primitive numericScale => decodeJsonPrimitive value primitive numericScale path
  | .contractId _ => .string <$> requireString value path "contract ID"
  | .optional element =>
      match value with
      | .null => .ok .undefined
      | _ => decode (.json value) element path
  | .list element => do
      let items ← requireArray value path "list"
      return .array (← mapIndexed (fun index item => decode (.json item) element (indexedPath path index)) 0 items)
  | .textMap entry => decodeJsonTextMap decode value entry path
  | .genMap key entry => do
      let items ← requireArray value path "generic map"
      return .genMap (← mapIndexed (decodeJsonGenMapEntry decode key entry path) 0 items)
  | .record descriptorFields => decodeJsonRecord decode value descriptorFields path
  | .variant constructors => decodeJsonVariant decode value constructors path
  | .enum constructors => do
      let constructorName ← requireString value path "enum constructor"
      if constructorName ∈ constructors then return .enum constructorName none
      else materializationError path ("unknown enum constructor " ++ constructorName)
  | .namedReference .. => materializationError path "named type descriptor is not registered"

end Traversal

/-- `decodeDamlValue`, for at most `fuel` nested calls. -/
def decodeDamlValue (registry : Registry) : Nat → DamlValueSource → DamlTypeDescriptor → String → Decoded DamlValue
  | 0, _, _, _ => .error .outOfFuel
  | fuel + 1, source, .namedReference identity typeArguments, path =>
      match registry identity typeArguments with
      | none => materializationError path "named type descriptor is not registered"
      | some resolved => decodeDamlValue registry fuel source resolved path
  | fuel + 1, .protobuf value, descriptor, path =>
      decodeProtobufValue (decodeDamlValue registry fuel) value descriptor path
  | fuel + 1, .json value, descriptor, path =>
      decodeJsonValue (decodeDamlValue registry fuel) value descriptor path

end CantonSdk.DamlValues
