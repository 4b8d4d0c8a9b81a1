import CantonSdk.Query.Grpc.ValueMapper

/-!
# Values and type descriptors

Generated bindings describe DAML types by descriptors, in which a named type is a reference that a registry
resolves. Decoded values and the arguments of commands are values of the host language and instances of the
value classes. Properties of an object stand in the order in which the host enumerates them.
-/

set_option linter.all false

namespace CantonSdk.DamlValues

open CantonSdk.Base CantonSdk.Query.Canonical

structure TemplateId where
  packageId : String
  moduleName : String
  entityName : String
  deriving DecidableEq

/-- What the callers of the SDK hold. A number is an integer that doubles represent exactly, or a fraction
by its printed text. -/
inductive DamlValue
  | undefined
  | null
  | bool (value : Bool)
  | integer (value : Int)
  | fraction (text : String)
  | bigint (value : Int)
  | string (value : String)
  | array (items : List DamlValue)
  | object (properties : List (String × DamlValue))
  | unit
  | date (daysSinceEpoch : Int)
  | timestamp (microsecondsSinceEpoch : String)
  | numeric (value : String)
  | party (value : String)
  | contractId (value : String)
  | textMap (entries : List (String × DamlValue))
  | genMap (entries : List (DamlValue × DamlValue))
  | record (fields : List (String × DamlValue)) (recordId : Option TemplateId)
  | variant (constructorName : String) (value : DamlValue) (variantId : Option TemplateId)
  | enum (constructorName : String) (enumId : Option TemplateId)

/-! ## Type descriptors -/

structure DamlTypeIdentity where
  packageId : String
  moduleName : String
  entityName : String
  deriving DecidableEq

inductive DamlPrimitiveType
  | unit | bool | int64 | date | timestamp | numeric | party | text
  deriving DecidableEq

def DamlPrimitiveType.memberText : DamlPrimitiveType → String
  | .unit => "unit"
  | .bool => "bool"
  | .int64 => "int64"
  | .date => "date"
  | .timestamp => "timestamp"
  | .numeric => "numeric"
  | .party => "party"
  | .text => "text"

/-- `DamlRecordFieldDescriptor`. -/
structure RecordField (α : Type) where
  damlLabel : String
  propertyName : String
  type : α

/-- `DamlVariantConstructorDescriptor`. -/
structure VariantConstructor (α : Type) where
  constructorName : String
  payload : α

inductive DamlTypeDescriptor
  | primitive (primitive : DamlPrimitiveType) (numericScale : Option Int)
  | contractId (contract : Option DamlTypeDescriptor)
  | optional (element : DamlTypeDescriptor)
  | list (element : DamlTypeDescriptor)
  | textMap (value : DamlTypeDescriptor)
  | genMap (key value : DamlTypeDescriptor)
  | record (fields : List (RecordField DamlTypeDescriptor))
  | variant (constructors : List (VariantConstructor DamlTypeDescriptor))
  | enum (constructors : List String)
  | namedReference (identity : DamlTypeIdentity) (typeArguments : List DamlTypeDescriptor)

/-- `descriptor.kind`. -/
def DamlTypeDescriptor.kind : DamlTypeDescriptor → String
  | .primitive .. => "primitive"
  | .contractId _ => "contractId"
  | .optional _ => "optional"
  | .list _ => "list"
  | .textMap _ => "textMap"
  | .genMap .. => "genMap"
  | .record _ => "record"
  | .variant _ => "variant"
  | .enum _ => "enum"
  | .namedReference .. => "namedReference"

/-- `DamlTypeDescriptorRegistry.resolve`. -/
abbrev Registry := DamlTypeIdentity → List DamlTypeDescriptor → Option DamlTypeDescriptor

inductive DamlValueSource
  | protobuf (value : Query.Grpc.Value)
  | json (value : QueryValue)

end CantonSdk.DamlValues
