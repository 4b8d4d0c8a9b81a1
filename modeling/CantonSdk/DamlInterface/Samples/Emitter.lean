import CantonSdk.DamlInterface.Samples.Types
import CantonSdk.Query.Canonical.Value

/-!
# The sample emitter

`emit` writes a value of a type as a source expression: for the ledger as JSON, and for TypeScript with the annotation
of every named type. It descends to a maximal depth and chooses the first constructor of a variant; below that depth, and
at a reference within itself, `emitFinite` looks for the smallest value, trying the constructors in order. What
`emitFinite` has entered is kept as fingerprints. The recursions are bounded by fuel.

Expressions are trees. What a named type is imported as does not show in them: a name is the path of its file and the name
that the file exports.
-/

set_option linter.all false

namespace CantonSdk.DamlInterface.Samples

open CantonSdk.Base CantonSdk.DamlLf CantonSdk.DamlValues CantonSdk.Query.Canonical

/-! ## Expressions -/

/-- The names of types in annotations. -/
inductive TypeName
  | keyword (text : String)
  | runtime (exportedName : String)
  | optional (element : TypeName)
  | list (element : TypeName)
  | textMap (value : TypeName)
  | genMap (key value : TypeName)
  | applied (path exportedName : String) (typeArguments : List TypeName)

/-- A named reference with the scope it stands in, and the name it is annotated with. -/
structure Wrapped where
  identity : TypeConReference
  typeArguments : List AnalyzedType
  scope : Bindings
  annotation : TypeName

inductive Expression
  | undefined
  | null
  | boolean (value : Bool)
  | number (value : Nat)
  | bigint (value : Nat)
  | string (value : String)
  | emptyObject
  | object (properties : List (String × Expression))
  /-- One property, with a quoted name. -/
  | quoted (name : String) (value : Expression)
  | array (elements : List Expression)
  | newMap (entries : List (Expression × Expression))
  | construct (className : String) (constructorArguments : List Expression)
  | satisfies (structural : Expression) (wrapped : Wrapped)

mutual

def TypeName.text : TypeName → String
  | .keyword text => text
  | .runtime exportedName => exportedName
  | .optional element => element.text ++ " | undefined"
  | .list element => "readonly " ++ element.text ++ "[]"
  | .textMap value => "ReadonlyMap<string, " ++ value.text ++ ">"
  | .genMap key value => "ReadonlyMap<" ++ key.text ++ ", " ++ value.text ++ ">"
  | .applied _ exportedName [] => exportedName
  | .applied _ exportedName (argument :: rest) =>
      exportedName ++ "<" ++ ", ".intercalate (argument.text :: textsOfNames rest) ++ ">"

def textsOfNames : List TypeName → List String
  | [] => []
  | name :: rest => name.text :: textsOfNames rest

end

/-- `/^[A-Za-z_$][A-Za-z0-9_$]*$/u`. -/
def isIdentifier (name : String) : Bool :=
  match name.toList with
  | [] => false
  | first :: rest => (first.isAlpha || first = '_' || first = '$') && rest.all fun c => c.isAlphanum || c = '_' || c = '$'

/-- `emitObjectProperty`. -/
def emitObjectProperty (name value : String) : String :=
  (if isIdentifier name then name else jsonString name) ++ ": " ++ value

mutual

def Expression.text : Expression → String
  | .undefined => "undefined"
  | .null => "null"
  | .boolean value => toString value
  | .number value => toString value
  | .bigint value => toString value ++ "n"
  | .string value => jsonString value
  | .emptyObject => "\x7b\x7d"
  | .object properties => "\x7b " ++ ", ".intercalate (textsOfProperties properties) ++ " \x7d"
  | .quoted name value => "\x7b " ++ jsonString name ++ ": " ++ value.text ++ " \x7d"
  | .array elements => "[" ++ ", ".intercalate (textsOfElements elements) ++ "]"
  | .newMap [] => "new Map()"
  | .newMap ((key, value) :: rest) =>
      "new Map([" ++ ", ".intercalate (("[" ++ key.text ++ ", " ++ value.text ++ "]") :: textsOfEntries rest) ++ "])"
  | .construct className constructorArguments =>
      "new " ++ className ++ "(" ++ ", ".intercalate (textsOfElements constructorArguments) ++ ")"
  | .satisfies structural wrapped => "(" ++ structural.text ++ " satisfies " ++ wrapped.annotation.text ++ ")"

def textsOfProperties : List (String × Expression) → List String
  | [] => []
  | (name, value) :: rest => emitObjectProperty name value.text :: textsOfProperties rest

def textsOfElements : List Expression → List String
  | [] => []
  | element :: rest => element.text :: textsOfElements rest

def textsOfEntries : List (Expression × Expression) → List String
  | [] => []
  | (key, value) :: rest => ("[" ++ key.text ++ ", " ++ value.text ++ "]") :: textsOfEntries rest

end

/-! ## The state of the emitter -/

inductive Representation
  | typeScript
  | ledger
  deriving DecidableEq

structure SampleContext where
  definitions : List TypeDefinition
  namedTypeFiles : List NamedTypeFile

structure SampleState where
  representation : Representation
  path : List String
  depth : Int
  bindings : Bindings
  activeReferences : List String

/-- A `DamlInterfaceUnsupportedShapeException` with its message, or too little fuel. -/
abbrev Emitted (α : Type) := Except (Stop String) α

def describeIdentity (identity : TypeConReference) : String :=
  identity.packageId ++ ":" ++ identity.moduleName ++ ":" ++ identity.name

def uninhabitable (path : List String) (type : AnalyzedType) : Stop String :=
  let identity := match type with
    | .namedReference identity _ => describeIdentity identity
    | _ => "the reachable DAML value"
  .failed ("Cannot synthesize a finite generated test sample for " ++ identity ++ " at " ++ ".".intercalate path)

def SampleState.descend (state : SampleState) (segment : String) : SampleState :=
  { state with path := state.path ++ [segment], depth := state.depth - 1 }

/-- `createDefinitionIndex`. -/
def SampleContext.definitionIndex (context : SampleContext) : DefinitionIndex :=
  .ofEntries (context.definitions.map fun definition => (definition.identity.key, definition))

def withDefinitionBindings (definition : TypeDefinition) (typeArguments : List AnalyzedType) (path : List String)
    (bindings : Bindings) : Emitted Bindings :=
  if definition.typeParameters.length = typeArguments.length then
    .ok (enterParameters bindings definition.typeParameters typeArguments bindings)
  else
    .error (.failed ("Cannot synthesize a generated test sample for " ++ describeIdentity definition.identity
      ++ ": expected " ++ toString definition.typeParameters.length ++ " type arguments but received "
      ++ toString typeArguments.length ++ " at " ++ ".".intercalate path))

section Emission

variable (context : SampleContext)

/-! ## Names of types -/

def namedTypeFile (identity : TypeConReference) : Option NamedTypeFile :=
  context.namedTypeFiles.find? fun file => file.packageId = identity.packageId && file.moduleName = identity.moduleName

/-- The file that exports the type, and the name. -/
def exportedType (identity : TypeConReference) : Option (String × String) :=
  match namedTypeFile context identity with
  | none => none
  | some file => (file.exportedTypeNamesByIdentity.get identity.key).map fun exportedName => (file.path, exportedName)

def primitiveTypeName : DamlPrimitiveType → TypeName
  | .unit => .runtime "DamlUnit"
  | .bool => .keyword "boolean"
  | .int64 => .keyword "bigint"
  | .date => .runtime "DamlDate"
  | .timestamp => .runtime "DamlTimestamp"
  | .numeric => .runtime "DamlNumeric"
  | .party => .runtime "DamlParty"
  | .text => .keyword "string"

mutual

/-- `emitTypeName`, given the name for what a variable is bound to. -/
def emitTypeNameWith (path : List String) (bound : AnalyzedType → Emitted TypeName) (bindings : Bindings) :
    AnalyzedType → Emitted TypeName
  | .primitive builtinType _ => .ok (primitiveTypeName builtinType)
  | .contractId => .ok (.keyword "string")
  | .optional element => do
      let element ← emitTypeNameWith path bound bindings element
      return .optional element
  | .list element => do
      let element ← emitTypeNameWith path bound bindings element
      return .list element
  | .textMap value => do
      let value ← emitTypeNameWith path bound bindings value
      return .textMap value
  | .genMap key value => do
      let key ← emitTypeNameWith path bound bindings key
      let value ← emitTypeNameWith path bound bindings value
      return .genMap key value
  | .typeVariable name internedStringIndex =>
      match bindings.get (name, internedStringIndex) with
      | none => .ok (.keyword "unknown")
      | some binding => bound binding
  | .namedReference identity typeArguments => do
      let definitionBindings ← match context.definitionIndex.get identity.key with
        | none => .ok bindings
        | some definition => withDefinitionBindings definition typeArguments path bindings
      match exportedType context identity with
      | none => return .keyword "string"
      | some (file, exportedName) =>
          let typeArguments ← emitTypeNamesWith path bound definitionBindings typeArguments
          return .applied file exportedName typeArguments
  | .record _ => .ok (.keyword "unknown")
  | .variant _ => .ok (.keyword "unknown")
  | .enum _ => .ok (.keyword "unknown")

def emitTypeNamesWith (path : List String) (bound : AnalyzedType → Emitted TypeName) (bindings : Bindings) :
    List AnalyzedType → Emitted (List TypeName)
  | [] => .ok []
  | type :: rest => do
      let name ← emitTypeNameWith path bound bindings type
      let names ← emitTypeNamesWith path bound bindings rest
      return name :: names

end

/-- `emitTypeName`. -/
def emitTypeName (path : List String) (bindings : Bindings) (type : AnalyzedType) : Emitted TypeName :=
  emitTypeNameWith context path
    (emitTypeNameWith context path (fun _ => .ok (.keyword "unknown")) bindings) bindings type

/-- `wrapNamedTypeSample`; `scope` is the scope of the reference, and `state` the one the name is made in. -/
def wrapNamedTypeSample (identity : TypeConReference) (typeArguments : List AnalyzedType) (structural : Expression)
    (state : SampleState) (scope : Bindings) : Emitted Expression :=
  match exportedType context identity with
  | none => .ok structural
  | some (file, exportedName) => do
      let parameters ← typeArguments.mapM (emitTypeName context state.path state.bindings)
      return .satisfies structural ⟨identity, typeArguments, scope, .applied file exportedName parameters⟩

/-- A sample of a definition is annotated for TypeScript only. -/
def annotateSample (identity : TypeConReference) (typeArguments : List AnalyzedType) (structural : Expression)
    (state : SampleState) (scope : Bindings) : Emitted Expression :=
  match state.representation with
  | .ledger => .ok structural
  | .typeScript => wrapNamedTypeSample context identity typeArguments structural state scope

/-- `getRecordPropertyName`. -/
def getRecordPropertyName (definition : TypeDefinition) (index : Nat) (fallback : String) : String :=
  let key := definition.identity.key ++ "\x00field\x00" ++ toString index
  ((namedTypeFile context definition.identity).bind fun file => file.fieldPropertyNames.get key).getD fallback

/-! ## Values -/

/-- The text of a numeric with the given scale. -/
def sampleNumeric (numericScale : Option Nat) : String :=
  match numericScale with
  | none | some 0 => "1"
  | some scale => "1." ++ String.ofList (List.replicate scale '0')

def emitPrimitive (builtinType : DamlPrimitiveType) (numericScale : Option Nat) : Representation → Expression
  | .ledger =>
      match builtinType with
      | .unit => .emptyObject
      | .bool => .boolean true
      | .int64 => .string "1"
      | .date => .number 1
      | .timestamp => .string "1000000"
      | .numeric => .string (sampleNumeric numericScale)
      | .party => .string "Alice"
      | .text => .string "sample text"
  | .typeScript =>
      match builtinType with
      | .unit => .construct "DamlUnit" []
      | .bool => .boolean true
      | .int64 => .bigint 1
      | .date => .construct "DamlDate" [.number 1]
      | .timestamp => .construct "DamlTimestamp" [.string "1000000"]
      | .numeric => .construct "DamlNumeric" [.string (sampleNumeric numericScale)]
      | .party => .construct "DamlParty" [.string "Alice"]
      | .text => .string "sample text"

def sampleContractId : Expression := .string "#sample-contract-id"

def emitAbsent : Representation → Expression
  | .ledger => .null
  | .typeScript => .undefined

def emitEmptyTextMap : Representation → Expression
  | .ledger => .emptyObject
  | .typeScript => .newMap []

def emitEmptyGenMap : Representation → Expression
  | .ledger => .array []
  | .typeScript => .newMap []

def emitTextMap (value : Expression) : Representation → Expression
  | .ledger => .quoted "sample-key" value
  | .typeScript => .newMap [(.string "sample-key", value)]

def emitGenMap (key value : Expression) : Representation → Expression
  | .ledger => .array [.array [key, value]]
  | .typeScript => .newMap [(key, value)]

/-- `JSON.stringify(constructors[0])`. -/
def emitEnum (constructors : List String) : Expression :=
  match constructors with
  | [] => .undefined
  | first :: _ => .string first

def taggedObject (constructorName : String) (payload : Expression) : Expression :=
  .object [("tag", .string constructorName), ("value", payload)]

/-- The name of a field in an object. -/
def fieldName (representation : Representation) (damlLabel propertyName : String) : String :=
  match representation with
  | .ledger => damlLabel
  | .typeScript => propertyName

/-- The fields of a type, with the names of their properties. -/
def fieldNames (representation : Representation) (fields : List (RecordField AnalyzedType)) :
    List (String × RecordField AnalyzedType) :=
  fields.map fun field => (fieldName representation field.damlLabel field.propertyName, field)

/-- The fields of a definition, with the names of their properties. -/
def definitionFieldNames (representation : Representation) (definition : TypeDefinition)
    (fields : List (RecordField AnalyzedType)) : List (String × RecordField AnalyzedType) :=
  fields.zipIdx.map fun (field, index) =>
    (fieldName representation field.damlLabel (getRecordPropertyName context definition index field.propertyName), field)

/-- The properties of an object, as long as each has a value. -/
def collectProperties (emitField : RecordField AnalyzedType → Emitted (Option Expression)) :
    List (String × RecordField AnalyzedType) → Emitted (Option (List (String × Expression)))
  | [] => .ok (some [])
  | (name, field) :: rest => do
      let value ← emitField field
      match value with
      | none => return none
      | some value =>
          let properties ← collectProperties emitField rest
          return properties.map fun properties => (name, value) :: properties

/-- The object, if each of its properties has a value. -/
def collectObject (emitField : RecordField AnalyzedType → Emitted (Option Expression))
    (fields : List (String × RecordField AnalyzedType)) : Emitted (Option Expression) := do
  let properties ← collectProperties emitField fields
  return properties.map .object

/-- The first constructor with a payload. -/
def firstConstructor (emitPayload : VariantConstructor AnalyzedType → Emitted (Option Expression)) :
    List (VariantConstructor AnalyzedType) → Emitted (Option Expression)
  | [] => .ok none
  | constructor_ :: rest => do
      let payload ← emitPayload constructor_
      match payload with
      | some payload => return some (taggedObject constructor_.constructorName payload)
      | none => firstConstructor emitPayload rest

/-- `emitFiniteDefinition`, given how to emit a type. -/
def emitFiniteDefinition (emitType : AnalyzedType → SampleState → Emitted (Option Expression)) (definition : TypeDefinition)
    (state : SampleState) : Emitted (Option Expression) :=
  match definition with
  | .record _ _ fields =>
      collectObject (fun field => emitType field.type (state.descend field.propertyName))
        (definitionFieldNames context state.representation definition fields)
  | _ => emitType definition.shape state

def emitFinite : Nat → AnalyzedType → SampleState → List String → Emitted (Option Expression)
  | 0, _, _, _ => .error .gaveUp
  | fuel + 1, type, state, visitedReferences =>
      match type with
      | .primitive builtinType numericScale => .ok (some (emitPrimitive builtinType numericScale state.representation))
      | .contractId => .ok (some sampleContractId)
      | .optional _ => .ok (some (emitAbsent state.representation))
      | .list _ => .ok (some (.array []))
      | .textMap _ => .ok (some (emitEmptyTextMap state.representation))
      | .genMap _ _ => .ok (some (emitEmptyGenMap state.representation))
      | .record fields =>
          collectObject (fun field => emitFinite fuel field.type (state.descend field.propertyName) visitedReferences)
            (fieldNames state.representation fields)
      | .variant constructors =>
          firstConstructor
            (fun constructor_ =>
              emitFinite fuel constructor_.payload (state.descend constructor_.constructorName) visitedReferences)
            constructors
      | .enum constructors => .ok (if constructors = [] then none else some (emitEnum constructors))
      | .typeVariable name internedStringIndex =>
          match state.bindings.get (name, internedStringIndex) with
          | none => .ok none
          | some binding => emitFinite fuel binding state visitedReferences
      | .namedReference identity typeArguments =>
          if referenceKey identity typeArguments state.bindings ∈ visitedReferences then .ok none
          else
            match context.definitionIndex.get identity.key with
            | none => .ok (some sampleContractId)
            | some definition => do
                let bindings ← withDefinitionBindings definition typeArguments state.path state.bindings
                let namedState := { state with bindings }
                let nextVisited := referenceKey identity typeArguments state.bindings :: visitedReferences
                let structural ← emitFiniteDefinition context
                  (fun type state => emitFinite fuel type state nextVisited) definition namedState
                match structural with
                | none => return none
                | some structural => do
                    let sample ← annotateSample context identity typeArguments structural namedState state.bindings
                    return some sample

/-- What `emit` gives where it cannot descend. -/
def emitFiniteOrThrow (fuel : Nat) (type : AnalyzedType) (state : SampleState) : Emitted Expression := do
  let finite ← emitFinite context fuel type state []
  match finite with
  | some finite => return finite
  | none => .error (uninhabitable state.path type)

/-- `emitRecord`, given how to emit a field. -/
def emitProperties (emitField : RecordField AnalyzedType → Emitted Expression)
    (fields : List (String × RecordField AnalyzedType)) : Emitted Expression := do
  let properties ← fields.mapM fun (name, field) => do
    let value ← emitField field
    return (name, value)
  return .object properties

/-- `emitVariant`, given how to emit a payload. -/
def emitVariant (emitPayload : VariantConstructor AnalyzedType → Emitted Expression) (path : List String)
    (constructors : List (VariantConstructor AnalyzedType)) : Emitted Expression :=
  match constructors with
  | [] => .error (uninhabitable path (.variant constructors))
  | first :: _ => do
      let payload ← emitPayload first
      return taggedObject first.constructorName payload

/-- `emitDefinition`, given how to emit a type. -/
def emitDefinition (emitType : AnalyzedType → SampleState → Emitted Expression) (definition : TypeDefinition)
    (state : SampleState) : Emitted Expression :=
  match definition with
  | .record _ _ fields =>
      emitProperties (fun field => emitType field.type (state.descend field.propertyName))
        (definitionFieldNames context state.representation definition fields)
  | .variant _ _ constructors =>
      emitVariant (fun constructor_ => emitType constructor_.payload (state.descend constructor_.constructorName))
        state.path constructors
  | .enum _ constructors => .ok (emitEnum constructors)

/-- `typeVariable.name ?? internedStringIndex`. -/
def describeVariable (name : Option String) (internedStringIndex : Int) : String :=
  name.getD (toString internedStringIndex)

def emit : Nat → AnalyzedType → SampleState → Emitted Expression
  | 0, _, _ => .error .gaveUp
  | fuel + 1, type, state =>
      if state.depth ≤ 0 then emitFiniteOrThrow context fuel type state
      else
        match type with
        | .primitive builtinType numericScale => .ok (emitPrimitive builtinType numericScale state.representation)
        | .contractId => .ok sampleContractId
        | .optional _ => .ok (emitAbsent state.representation)
        | .list element => do
            let element ← emit fuel element (state.descend "[0]")
            return .array [element]
        | .textMap value => do
            let value ← emit fuel value (state.descend "sample-key")
            return emitTextMap value state.representation
        | .genMap key value => do
            let key ← emit fuel key (state.descend "[0].key")
            let value ← emit fuel value (state.descend "[0].value")
            return emitGenMap key value state.representation
        | .record fields =>
            emitProperties (fun field => emit fuel field.type (state.descend field.propertyName))
              (fieldNames state.representation fields)
        | .variant constructors =>
            emitVariant (fun constructor_ => emit fuel constructor_.payload (state.descend constructor_.constructorName))
              state.path constructors
        | .enum constructors => .ok (emitEnum constructors)
        | .typeVariable name internedStringIndex =>
            match state.bindings.get (name, internedStringIndex) with
            | none =>
                .error (.failed ("Cannot synthesize a generated test sample for unbound type variable '"
                  ++ describeVariable name internedStringIndex ++ "' at " ++ ".".intercalate state.path))
            | some binding => emit fuel binding state
        | .namedReference identity typeArguments =>
            if referenceKey identity typeArguments state.bindings ∈ state.activeReferences then
              emitFiniteOrThrow context fuel type state
            else
              match context.definitionIndex.get identity.key with
              | none => .ok sampleContractId
              | some definition => do
                  let bindings ← withDefinitionBindings definition typeArguments state.path state.bindings
                  let namedState := { state with
                    bindings
                    depth := state.depth - 1
                    activeReferences := state.activeReferences ++ [referenceKey identity typeArguments state.bindings] }
                  if namedState.depth ≤ 0 then emitFiniteOrThrow context fuel type state
                  else do
                    let structural ← emitDefinition context (emit fuel) definition namedState
                    annotateSample context identity typeArguments structural namedState state.bindings

/-- `GeneratedTestSampleContext`, beside the definitions and the files. -/
structure SampleOptions where
  path : List String
  maximumDepth : Int
  typeVariableBindings : Bindings

/-- The default options. -/
def SampleOptions.default : SampleOptions := ⟨["value"], 2, .empty⟩

def SampleOptions.state (options : SampleOptions) (representation : Representation) : SampleState where
  representation
  path := options.path
  depth := options.maximumDepth
  bindings := options.typeVariableBindings
  activeReferences := []

/-- `emitTypeScriptExpressionOrThrow` and `emitLedgerExpressionOrThrow`. -/
def emitOrThrow (fuel : Nat) (type : AnalyzedType) (options : SampleOptions) (representation : Representation) :
    Emitted Expression :=
  emit context fuel type (options.state representation)

end Emission

end CantonSdk.DamlInterface.Samples
