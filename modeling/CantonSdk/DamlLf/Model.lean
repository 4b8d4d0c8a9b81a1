import CantonSdk.Base.KeyedMap
import Mathlib.Data.Rat.Defs

/-!
# Decoded DAML-LF packages and their compilation

The type language of decoded packages, the data types and templates they define, and the indexes a
compilation builds over its workspace. Expressions and value definitions are not part of this model.
-/

set_option linter.all false

namespace CantonSdk.DamlLf

open CantonSdk.Base

inductive DamlLfBuiltinType
  | unit | bool | int64 | date | timestamp | numeric | party | text | contractId | optional | list
  | textMap | genMap | unknown
  deriving DecidableEq

/-- The text of the enumeration member, as error messages show it. -/
def DamlLfBuiltinType.memberText : DamlLfBuiltinType → String
  | .unit => "unit"
  | .bool => "bool"
  | .int64 => "int64"
  | .date => "date"
  | .timestamp => "timestamp"
  | .numeric => "numeric"
  | .party => "party"
  | .text => "text"
  | .contractId => "contractId"
  | .optional => "optional"
  | .list => "list"
  | .textMap => "textMap"
  | .genMap => "genMap"
  | .unknown => "unknown"

structure TypeConReference where
  packageId : String
  moduleName : String
  name : String
  deriving DecidableEq

structure DamlLfTemplateId where
  packageId : String
  moduleName : String
  templateName : String
  deriving DecidableEq

structure DamlLfTypeVariableReference where
  name : Option String
  internedStringIndex : Int
  deriving DecidableEq

inductive DamlLfTypeParameterKind
  | star
  | nat
  | arrow (parameters : List DamlLfTypeParameterKind) (result : DamlLfTypeParameterKind)
  | unknown (internedKindIndex : Option Int)

/-- Whether `kind.kind` is `star`. -/
def DamlLfTypeParameterKind.isStar : DamlLfTypeParameterKind → Bool
  | .star => true
  | _ => false

structure DamlLfTypeParameter where
  name : Option String
  internedStringIndex : Int
  kind : DamlLfTypeParameterKind

/-- A type as the archive states it: at most one of the four heads is meaningful, and nothing in the type
itself says which. -/
structure DamlLfType where
  builtinType : DamlLfBuiltinType := .unknown
  numericScale : Option Rat := none
  typeConReference : Option TypeConReference := none
  typeVariable : Option DamlLfTypeVariableReference := none
  /-- Whether a `forall` was retained for diagnostics. -/
  diagnosticForall : Bool := false
  typeArguments : List DamlLfType := []

structure DamlLfField where
  name : String
  type : DamlLfType

structure DamlLfVariantConstructor where
  name : String
  type : DamlLfType

inductive DamlLfDataTypeDefinition
  | record (fields : List DamlLfField)
  | variant (constructors : List DamlLfVariantConstructor)
  | enum (constructors : List String)

structure DamlLfDataType where
  name : String
  definition : DamlLfDataTypeDefinition
  serializable : Bool := true
  typeParameters : List DamlLfTypeParameter := []

structure DamlLfChoiceParameter where
  name : String
  type : DamlLfType

structure DamlLfChoice where
  name : String
  parameter : DamlLfChoiceParameter
  returnType : DamlLfType

structure DamlLfTemplate where
  templateId : DamlLfTemplateId
  name : String
  fields : List DamlLfField
  choices : List DamlLfChoice

inductive DamlLfDefinition
  | dataType (definition : DamlLfDataType)
  | template (definition : DamlLfTemplate)
  | valueDefinition (name : String)

structure DamlLfModule where
  name : String
  definitions : List DamlLfDefinition

structure DamlLfPackage where
  packageId : String
  packageName : String
  packageVersion : String
  modules : List DamlLfModule

/-- The workspace of a compilation; its indexes are functions of the packages. -/
structure DamlLfCompilation where
  packages : List DamlLfPackage

/-- `DamlLfDataTypeEntry`. -/
structure DamlLfDataTypeEntry where
  reference : TypeConReference
  definition : DamlLfDataType

/-- `createTypeKey`, and the key of every index over qualified names. -/
def createTypeKey (packageId moduleName name : String) : String :=
  packageId ++ "::" ++ moduleName ++ "::" ++ name

def TypeConReference.key (reference : TypeConReference) : String :=
  createTypeKey reference.packageId reference.moduleName reference.name

def DamlLfDefinition.dataType? : DamlLfDefinition → Option DamlLfDataType
  | .dataType definition => some definition
  | _ => none

def DamlLfDefinition.template? : DamlLfDefinition → Option DamlLfTemplate
  | .template definition => some definition
  | _ => none

namespace DamlLfCompilation

variable (compilation : DamlLfCompilation)

/-- `getDataTypes`: every named data type with its fully qualified identity. -/
def getDataTypes : List DamlLfDataTypeEntry :=
  compilation.packages.flatMap fun pkg =>
    pkg.modules.flatMap fun module_ =>
      (module_.definitions.filterMap DamlLfDefinition.dataType?).map fun definition =>
        { reference := ⟨pkg.packageId, module_.name, definition.name⟩, definition := definition }

/-- `typeSymbols`, as `buildIndexes` fills it. -/
def typeSymbols : KeyedMap String DamlLfDataType :=
  KeyedMap.ofEntries (compilation.getDataTypes.map fun entry => (entry.reference.key, entry.definition))

/-- `templates`, as `buildIndexes` fills it. -/
def templates : KeyedMap String DamlLfTemplate :=
  KeyedMap.ofEntries (((compilation.packages.flatMap fun pkg =>
    pkg.modules.flatMap fun module_ => module_.definitions).filterMap DamlLfDefinition.template?).map
      fun template =>
        (createTypeKey template.templateId.packageId template.templateId.moduleName
          template.templateId.templateName, template))

def getTemplates : List DamlLfTemplate := compilation.templates.values

/-- `getDataTypeOrThrow`; its callers catch the error and throw their own. -/
def getDataType (reference : TypeConReference) : Option DamlLfDataType :=
  compilation.typeSymbols.get reference.key

end DamlLfCompilation

theorem mem_keys_of_getDataType {compilation : DamlLfCompilation} {reference : TypeConReference}
    {dataType : DamlLfDataType} (h : compilation.getDataType reference = some dataType) :
    reference.key ∈ compilation.typeSymbols.keys := by
  rw [KeyedMap.mem_keys]
  exact ⟨dataType, h⟩

end CantonSdk.DamlLf
