import CantonSdk.Base.Stateful
import CantonSdk.DamlInterface.Names
import CantonSdk.DamlLf.Model

/-!
# The analysis of a compilation

`analyzeOrThrow` turns templates and data types into the shapes the emitters read. Named types are resolved
into references, and the definition behind a reference is built the first time its key is met: a table
holds every key that has been met, without a definition while that one is being built, which is what ends
the recursion through mutually recursive types.

The recursion from a reference into the definition it names is bounded by fuel here; the closedness results
show that one unit for each type of the compilation is enough.
-/

set_option linter.all false

namespace CantonSdk.DamlInterface

open CantonSdk.Base CantonSdk.DamlLf

/-- The types that the analysis builds; records, variants and enumerations occur as definitions only. -/
inductive AnalyzedDamlType
  | primitive (builtinType : DamlLfBuiltinType) (numericScale : Option Rat)
  | contractId
  | optional (element : AnalyzedDamlType)
  | list (element : AnalyzedDamlType)
  | textMap (value : AnalyzedDamlType)
  | genMap (key value : AnalyzedDamlType)
  | typeVariable (name : Option String) (internedStringIndex : Int)
  | namedReference (identity : TypeConReference) (typeArguments : List AnalyzedDamlType)

structure AnalyzedDamlRecordField where
  damlLabel : String
  propertyName : String
  type : AnalyzedDamlType

structure AnalyzedDamlVariantConstructor where
  constructor_ : String
  payload : AnalyzedDamlType

inductive AnalyzedDamlTypeDefinition
  | record (identity : TypeConReference) (typeParameters : List DamlLfTypeParameter)
      (fields : List AnalyzedDamlRecordField)
  | variant (identity : TypeConReference) (typeParameters : List DamlLfTypeParameter)
      (constructors : List AnalyzedDamlVariantConstructor)
  | enum (identity : TypeConReference) (constructors : List String)

structure AnalyzedTemplateField where
  name : String
  propertyName : String
  type : AnalyzedDamlType

structure AnalyzedChoice where
  name : String
  methodName : String
  parameterName : String
  parameterType : AnalyzedDamlType
  returnType : AnalyzedDamlType

structure AnalyzedTemplate where
  templateId : DamlLfTemplateId
  className : String
  fileName : String
  createFields : List AnalyzedTemplateField
  choices : List AnalyzedChoice

structure DamlInterfacePackageMetadata where
  packageName : String
  packageVersion : String

structure DamlInterfaceAnalysisResult where
  templates : List AnalyzedTemplate
  typeDefinitions : List AnalyzedDamlTypeDefinition
  packageMetadata : KeyedMap String DamlInterfacePackageMetadata

/-- The state of `AnalyzedDamlTypeBuilder`; a key without a definition is being built. -/
structure Builder where
  definitionKeys : List String
  canonicalIdentities : KeyedMap String TypeConReference
  definitions : KeyedMap String (Option AnalyzedDamlTypeDefinition)

def Builder.empty : Builder := ⟨[], .empty, .empty⟩

abbrev Build := StateT Builder (Except InterfaceError)

/-- The type parameters in scope, by interned name. -/
abbrev Scope := KeyedMap Int DamlLfTypeParameter

def unsupported (context reason : String) : InterfaceError :=
  .unsupportedShape (context ++ " is not supported by the DAML interface generator: " ++ reason)

/-- The plural ending of a count. -/
def plural (count : Nat) : String := if count = 1 then "" else "s"

def argumentCountError (builtinType : DamlLfBuiltinType) (expectedCount : Nat) (context : String) :
    InterfaceError :=
  unsupported context ("builtin '" ++ builtinType.memberText ++ "' requires " ++ toString expectedCount
    ++ " type argument" ++ plural expectedCount)

/-- `assertArgumentCountOrThrow`. -/
def assertArgumentCount (builtinType : DamlLfBuiltinType) (typeArguments : List DamlLfType)
    (expectedCount : Nat) (context : String) : Build Unit :=
  if typeArguments.length = expectedCount then pure ()
  else throw (argumentCountError builtinType expectedCount context)

def nameOrIndex (name : Option String) (internedStringIndex : Int) : String :=
  name.getD ("#" ++ toString internedStringIndex)

/-- `getDataTypeOrThrow`. -/
def getDataTypeOrThrow (compilation : DamlLfCompilation) (reference : TypeConReference)
    (context : String) : Build DamlLfDataType :=
  match compilation.getDataType reference with
  | some dataType => pure dataType
  | none => throw (unsupported context ("could not resolve named type '" ++ reference.packageId ++ ":"
      ++ reference.moduleName ++ ":" ++ reference.name ++ "'"))

/-- What is wrong with a type parameter, if anything. -/
def typeParameterError (context : String) (parameter : DamlLfTypeParameter) : Option InterfaceError :=
  if parameter.name = none then
    some (unsupported context ("type parameter '"
      ++ nameOrIndex parameter.name parameter.internedStringIndex ++ "' requires a resolved name"))
  else if parameter.kind.isStar then none
  else some (unsupported context ("type parameter '"
    ++ nameOrIndex parameter.name parameter.internedStringIndex ++ "' must have kind '*'"))

/-- `assertSupportedDataTypeParametersOrThrow`. -/
def assertSupportedDataTypeParameters (dataType : DamlLfDataType) (context : String) : Build Unit :=
  match dataType.definition, dataType.typeParameters with
  | .enum _, _ :: _ => throw (unsupported context "generic enums are not supported")
  | _, parameters =>
      match parameters.findSome? (typeParameterError context) with
      | some error => throw error
      | none => pure ()

/-- `assertNamedArgumentCountOrThrow`. -/
def assertNamedArgumentCount (typeArguments : List DamlLfType) (dataType : DamlLfDataType)
    (context : String) : Build Unit :=
  let expectedCount := dataType.typeParameters.length
  if typeArguments.length = expectedCount then pure ()
  else throw (unsupported context ("named type '" ++ dataType.name ++ "' requires "
    ++ toString expectedCount ++ " type argument" ++ plural expectedCount))

/-- `getCanonicalIdentity`. -/
def getCanonicalIdentity (reference : TypeConReference) : Build TypeConReference := do
  let builder ← get
  match builder.canonicalIdentities.get reference.key with
  | some identity => pure identity
  | none => do
      set { builder with
        canonicalIdentities := builder.canonicalIdentities.set reference.key reference }
      pure reference

/-- `registerNamedDefinitionOrThrow`, as the builder of types calls it. -/
abbrev Register := TypeConReference → TypeConReference → DamlLfDataType → Build Unit

def createTypeParameterScope (parameters : List DamlLfTypeParameter) : Scope :=
  KeyedMap.ofEntries (parameters.map fun parameter => (parameter.internedStringIndex, parameter))

def isNumericScale (scale : Rat) : Bool := scale.isInt && decide (0 ≤ scale ∧ scale ≤ 37)

/-- The branch of `buildOrThrow` for a type variable. -/
def buildTypeVariable (typeVariable : DamlLfTypeVariableReference) (typeArguments : List DamlLfType)
    (context : String) (typeParameters : Scope) : Build AnalyzedDamlType :=
  let shown := nameOrIndex typeVariable.name typeVariable.internedStringIndex
  if typeVariable.name = none then
    throw (unsupported context ("type variable '" ++ shown ++ "' requires a resolved name"))
  else if typeArguments.length ≠ 0 then
    throw (unsupported context "applied type variables are not supported")
  else
    match typeParameters.get typeVariable.internedStringIndex with
    | none => throw (unsupported context ("unbound type variable '" ++ shown ++ "'"))
    | some parameter => pure (.typeVariable parameter.name parameter.internedStringIndex)

section Types

variable (compilation : DamlLfCompilation) (register : Register)

mutual

/-- `buildOrThrow`. -/
def buildOrThrow (type : DamlLfType) (context : String) (typeParameters : Scope) :
    Build AnalyzedDamlType :=
  match type with
  | ⟨builtinType, numericScale, typeConReference, typeVariable, diagnosticForall, typeArguments⟩ =>
      if diagnosticForall then
        throw (unsupported context "retained forall types are not supported")
      else
        match typeVariable, typeConReference with
        | some typeVariable, _ => buildTypeVariable typeVariable typeArguments context typeParameters
        | none, some reference =>
            if builtinType ≠ .unknown then
              throw (unsupported context "a type constructor cannot also be a builtin type")
            else do
              -- `buildNamedReferenceOrThrow`: the arguments come before the definition.
              let identity ← getCanonicalIdentity reference
              let dataType ← getDataTypeOrThrow compilation reference context
              assertSupportedDataTypeParameters dataType context
              assertNamedArgumentCount typeArguments dataType context
              let analyzedTypeArguments ← buildArguments typeArguments context typeParameters
              register reference identity dataType
              pure (.namedReference identity analyzedTypeArguments)
        | none, none =>
            match builtinType with
            | .unit | .bool | .int64 | .date | .timestamp | .party | .text => do
                assertArgumentCount builtinType typeArguments 0 context
                pure (.primitive builtinType numericScale)
            | .numeric => do
                assertArgumentCount builtinType typeArguments 0 context
                if numericScale.any isNumericScale then pure (.primitive builtinType numericScale)
                else throw (unsupported context
                  "numeric values require an integer scale from 0 through 37")
            | .contractId => do
                assertArgumentCount builtinType typeArguments 1 context
                pure .contractId
            | .optional => .optional <$> buildUnaryArgument builtinType typeArguments context typeParameters
            | .list => .list <$> buildUnaryArgument builtinType typeArguments context typeParameters
            | .textMap => .textMap <$> buildUnaryArgument builtinType typeArguments context typeParameters
            | .genMap =>
                match typeArguments with
                | [key, value] => do
                    let key ← buildOrThrow key context typeParameters
                    let value ← buildOrThrow value context typeParameters
                    pure (.genMap key value)
                | _ => throw (argumentCountError .genMap 2 context)
            | .unknown => throw (unsupported context "the type is not serializable")

/-- `buildUnaryArgumentOrThrow`. -/
def buildUnaryArgument (builtinType : DamlLfBuiltinType) (typeArguments : List DamlLfType)
    (context : String) (typeParameters : Scope) : Build AnalyzedDamlType :=
  match typeArguments with
  | [argument] => buildOrThrow argument context typeParameters
  | _ => throw (argumentCountError builtinType 1 context)

/-- `typeArguments.map(buildOrThrow)`. -/
def buildArguments (typeArguments : List DamlLfType) (context : String) (typeParameters : Scope) :
    Build (List AnalyzedDamlType) :=
  match typeArguments with
  | [] => pure []
  | argument :: rest => do
      let first ← buildOrThrow argument context typeParameters
      let others ← buildArguments rest context typeParameters
      pure (first :: others)

end

def buildRecordField (reference : TypeConReference) (typeParameters : Scope) (field : DamlLfField) :
    Build AnalyzedDamlRecordField := do
  let propertyName ← StateT.lift (toCamelCase field.name)
  let type ← buildOrThrow compilation register field.type
    ("field '" ++ field.name ++ "' of record '" ++ reference.name ++ "'") typeParameters
  pure ⟨field.name, propertyName, type⟩

def buildVariantConstructor (reference : TypeConReference) (typeParameters : Scope)
    (constructor_ : DamlLfVariantConstructor) : Build AnalyzedDamlVariantConstructor := do
  let payload ← buildOrThrow compilation register constructor_.type
    ("constructor '" ++ constructor_.name ++ "' of variant '" ++ reference.name ++ "'") typeParameters
  pure ⟨constructor_.name, payload⟩

/-- `buildNamedDefinitionOrThrow`. -/
def buildNamedDefinition (reference identity : TypeConReference) (dataType : DamlLfDataType) :
    Build AnalyzedDamlTypeDefinition :=
  let typeParameters := createTypeParameterScope dataType.typeParameters
  match dataType.definition with
  | .record fields =>
      .record identity dataType.typeParameters <$>
        fields.mapM (buildRecordField compilation register reference typeParameters)
  | .variant constructors =>
      .variant identity dataType.typeParameters <$>
        constructors.mapM (buildVariantConstructor compilation register reference typeParameters)
  | .enum constructors => pure (.enum identity constructors)

end Types

/-- The entry of a key that has been met and is being built. -/
def Builder.reserve (key : String) (builder : Builder) : Builder :=
  { builder with
    definitionKeys := builder.definitionKeys ++ [key]
    definitions := builder.definitions.set key none }

def Builder.complete (key : String) (definition : AnalyzedDamlTypeDefinition) (builder : Builder) :
    Builder :=
  { builder with definitions := builder.definitions.set key (some definition) }

section Analysis

variable (compilation : DamlLfCompilation)

/-- `registerNamedDefinitionOrThrow`, down to as many nested definitions as there is fuel. -/
def registerNamedDefinition : Nat → Register
  | 0, reference, _, _ => do
      let builder ← get
      if builder.definitions.has reference.key then pure () else throw .outOfFuel
  | fuel + 1, reference, identity, dataType => do
      let builder ← get
      if builder.definitions.has reference.key then pure ()
      else do
        modify (Builder.reserve reference.key)
        let definition ←
          buildNamedDefinition compilation (registerNamedDefinition fuel) reference identity dataType
        modify (Builder.complete reference.key definition)

variable (fuel : Nat)

/-- `buildOrThrow` outside definitions, where no type parameters are in scope. -/
def buildClosedType (type : DamlLfType) (context : String) : Build AnalyzedDamlType :=
  buildOrThrow compilation (registerNamedDefinition compilation fuel) type context .empty

/-- `buildDefinitionOrThrow`. -/
def buildDefinition (reference : TypeConReference) (context : String) : Build Unit := do
  let identity ← getCanonicalIdentity reference
  let dataType ← getDataTypeOrThrow compilation reference context
  assertSupportedDataTypeParameters dataType context
  registerNamedDefinition compilation fuel reference identity dataType

/-- `getTypeDefinitions`. -/
def getTypeDefinitions : Build (List AnalyzedDamlTypeDefinition) := do
  let builder ← get
  builder.definitionKeys.mapM fun key =>
    match builder.definitions.get key with
    | some (some definition) => pure definition
    | _ => throw (.unsupportedShape ("could not finish resolving named DAML type '" ++ key ++ "'"))

def analyzeTemplateField (field : DamlLfField) : Build AnalyzedTemplateField := do
  let type ← buildClosedType compilation fuel field.type ("template field '" ++ field.name ++ "'")
  let propertyName ← StateT.lift (toCamelCase field.name)
  pure ⟨field.name, propertyName, type⟩

def analyzeChoice (choice : DamlLfChoice) : Build AnalyzedChoice := do
  let parameterType ← buildClosedType compilation fuel choice.parameter.type
    ("choice parameter '" ++ choice.parameter.name ++ "'")
  let returnType ← buildClosedType compilation fuel choice.returnType
    ("choice return type '" ++ choice.name ++ "'")
  let methodName ← StateT.lift (toPascalCase choice.name)
  let parameterName ← StateT.lift (toCamelCase choice.parameter.name)
  pure ⟨choice.name, "exercise" ++ methodName, parameterName, parameterType, returnType⟩

def analyzeTemplate (template : DamlLfTemplate) : Build AnalyzedTemplate := do
  let className ← StateT.lift (toPascalCase template.name)
  let fileName ← StateT.lift (toKebabCase template.name)
  let createFields ← template.fields.mapM (analyzeTemplateField compilation fuel)
  let choices ← template.choices.mapM (analyzeChoice compilation fuel)
  pure ⟨template.templateId, className, fileName ++ ".ts", createFields, choices⟩

def analyze : Build DamlInterfaceAnalysisResult := do
  let templates ← compilation.getTemplates.mapM (analyzeTemplate compilation fuel)
  let _ ← (compilation.getDataTypes.filter fun entry => entry.definition.serializable).mapM fun entry =>
    buildDefinition compilation fuel entry.reference ("data type '" ++ entry.reference.name ++ "'")
  let typeDefinitions ← getTypeDefinitions
  pure {
    templates := templates
    typeDefinitions := typeDefinitions
    packageMetadata := .ofEntries (compilation.packages.map fun pkg =>
      (pkg.packageId, ⟨pkg.packageName, pkg.packageVersion⟩)) }

/-- `analyzeOrThrow`. -/
def analyzeOrThrow : Except InterfaceError DamlInterfaceAnalysisResult :=
  (analyze compilation compilation.typeSymbols.keys.length).run' Builder.empty

end Analysis

end CantonSdk.DamlInterface
